/-
  File:      GoMoi/Syncer/FetchIxns.lean
  Subject:   The interactions of a tesseract, from the pool and from a peer (`FetchIxns` and
             `mergeIxns` of `syncer/forage/syncer.go`).

  The interactions of a reply are made by `NewInteraction`, which panics if nobody can lead one. An
  interaction that is null is decoded as the zero `Interaction`, which has no leader; `FromBytes`
  follows the pointer to it.

  * **`fetches_iff`** -- the replies on which the call does not panic.
-/
import GoMoi.Common.LeaderCandidate

namespace GoMoi

/-! ## 1. The pool -/

/-- `type lookupMap struct`: every interaction is under its hash. -/
structure LookupMap where
  all : GoMap Hash Interaction
  keyed : ∀ hash ix, all.lookup hash = some ix → ix.hash = hash

namespace LookupMap

variable (m : LookupMap)

def add (ix : Interaction) : Bool × LookupMap :=
  if ix.hash ∈ m.all then (false, m)
  else (true, ⟨m.all.insert ix.hash ix, fun hash ix' h => by
    rcases GoMap.of_lookup_insert h with ⟨rfl, rfl⟩ | h
    · rfl
    · exact m.keyed hash ix' h⟩)

def remove (ix : Interaction) : LookupMap :=
  ⟨m.all.erase ix.hash, fun hash ix' h => m.keyed hash ix' (GoMap.of_lookup_erase h)⟩

/-- `GetIxnsWithMissingIxns`. -/
def getIxnsWithMissingIxns : List Hash → List Interaction × List Hash
  | [] => ([], [])
  | ixHash :: rest =>
    let (ixns, missing) := getIxnsWithMissingIxns rest
    match m.all.lookup ixHash with
    | none => (ixns, ixHash :: missing)
    | some ix => (ix :: ixns, missing)

theorem hashes_of_none_missing {ixHashes : List Hash}
    (h : (m.getIxnsWithMissingIxns ixHashes).2 = []) :
    (m.getIxnsWithMissingIxns ixHashes).1.map (·.hash) = ixHashes := by
  induction ixHashes with
  | nil => rfl
  | cons ixHash rest ih =>
    unfold getIxnsWithMissingIxns at h ⊢
    rcases hix : m.all.lookup ixHash with _ | ix
    · rw [hix] at h
      cases h
    rw [hix] at h
    exact congrArg₂ List.cons (m.keyed ixHash ix hix) (ih h)

end LookupMap

/-! ## 2. The call -/

/-- An interaction in a reply: null, or its data and signatures, if they can be decoded. -/
abbrev IxWire : Type := Except Err (Option (IxData × List IxSignature))

/-- What `FetchIxns` reads and is answered; `pick` is the random number, `wires` the decoder of a
    list and `order` the order of the participants of an interaction. The zero `Interaction` is
    `none`. -/
structure FetchEnv where
  ix : IxEnv
  zeroHash : Hash
  pool : LookupMap
  validators : List KramaID
  randomSet : List Nat
  pick : Fin randomSet.length
  rpcGetIxns : KramaID → List Hash → Except Err Bytes
  wires : Bytes → Except Err (List IxWire)
  order : IxData → List Identifier
  leaderOrder : ∀ data, LeaderOrder ix data (order data)

namespace FetchEnv

variable (E : FetchEnv)

def hash (ix : Option Interaction) : Hash := ix.elim E.zeroHash (·.hash)

def mergeIxns : List Hash → List (Option Interaction) → List (Option Interaction) →
    Except Err (List (Option Interaction))
  | [], _, _ => .ok []
  | ixHash :: rest, ixns, nodeIxns =>
    match ixns.head?.filter (E.hash · = ixHash), nodeIxns.head?.filter (E.hash · = ixHash) with
    | some ix, _ => (mergeIxns rest ixns.tail nodeIxns).map (ix :: ·)
    | none, some ix => (mergeIxns rest ixns nodeIxns.tail).map (ix :: ·)
    | none, none => .error (.new s!"ix-hash {ixHash.bits} not found in node ixns")

/-- The loop of `NewInteractionsWithLeaderCheck`, without the candidate that it finds. -/
def leaderCheck : List (Option Interaction) → Go Unit
  | [] => pure ()
  | none :: _ => .error .nilDeref
  | some ix :: rest =>
    if E.ix.ids.accountTypeFromID ix.leaderCandidateAcc = .systemAccount then pure ()
    else leaderCheck rest

/-- `Interaction.Depolorize` of the interactions of a list, one after the other. -/
def depolorize : List IxWire → Go (Except Err (List (Option Interaction)))
  | [] => pure (.ok [])
  | .error err :: _ => pure (.error err)
  | .ok none :: rest => do return (← depolorize rest).map (none :: ·)
  | .ok (some (data, signatures)) :: rest => do
    match ← newInteraction E.ix (E.order data) data signatures with
    | .error err => return .error err
    | .ok ix => return (← depolorize rest).map (some ix :: ·)

/-- The reply of the validator that is picked. -/
def request (missing : List Hash) : Except Err (List IxWire) :=
  match E.validators[E.randomSet[E.pick]]? with
  | none => .error (.new "index validator index")
  | some kramaID => do
    let ixns ← E.rpcGetIxns kramaID missing
    (E.wires ixns).mapError (.wrap · "failed to depolorize interactions")

def fetchIxns (ixHashes : List Hash) : Go (Except Err (List (Option Interaction))) :=
  let (ixns, missing) := E.pool.getIxnsWithMissingIxns ixHashes
  if missing.length = 0 then pure (.ok (ixns.map some))
  else match E.request missing with
    | .error err => pure (.error err)
    | .ok wires => do
      match ← E.depolorize wires with
      | .error err => return .error (.wrap err "failed to depolorize interactions")
      | .ok fetched =>
        E.leaderCheck fetched
        if missing.length ≠ fetched.length then
          return .error (.new (
            s!"fetched ixn hash count doesn't match the requested count expected: " ++
            s!"{missing.length}, actual {fetched.length}"))
        return E.mergeIxns ixHashes (ixns.map some) fetched

/-! ## 3. What is returned -/

/-- An error, or the interactions with these hashes. -/
def Fetches (ixHashes : List Hash) : Prop :=
  ∃ r, E.fetchIxns ixHashes = .ok r ∧ ∀ ixns, r = .ok ixns → ixns.map E.hash = ixHashes

/-- The first condition on a reply: up to the first interaction that is refused, none is without an
    account that can lead it. -/
def Leadable : List IxWire → Prop
  | [] => True
  | .error _ :: _ => True
  | .ok none :: rest => Leadable rest
  | .ok (some (data, signatures)) :: rest => ¬ Stranded E.ix data signatures ∧
    ∀ ix, newInteraction E.ix (E.order data) data signatures = .ok (.ok ix) → Leadable rest

/-- The second: no null before the first interaction that a system account leads. -/
def Led (fetched : List (Option Interaction)) : Prop :=
  none ∉ fetched.takeWhile fun ix =>
    ∀ i ∈ ix, E.ix.ids.accountTypeFromID i.leaderCandidateAcc ≠ .systemAccount

variable {E}

theorem mergeIxns_hashes {ixHashes : List Hash} {ixns nodeIxns result : List (Option Interaction)}
    (h : E.mergeIxns ixHashes ixns nodeIxns = .ok result) : result.map E.hash = ixHashes := by
  induction ixHashes generalizing ixns nodeIxns result with
  | nil =>
    cases h
    rfl
  | cons ixHash rest ih =>
    have hcons : ∀ {o : Option (Option Interaction)} {ix} {merged : Except Err _},
        o.filter (E.hash · = ixHash) = some ix → (∀ l, merged = .ok l → l.map E.hash = rest) →
        merged.map (ix :: ·) = .ok result → result.map E.hash = ixHash :: rest := by
      intro o ix merged ho hrest hmap
      rcases merged with _ | l
      · cases hmap
      cases hmap
      have hix := (Option.filter_eq_some_iff.mp ho).2
      exact congrArg₂ List.cons (of_decide_eq_true hix) (hrest l rfl)
    unfold mergeIxns at h
    split at h
    case h_1 ix ho => exact hcons ho (fun _ => ih) h
    case h_2 ix _ ho => exact hcons ho (fun _ => ih) h
    case h_3 => cases h

theorem leaderCheck_iff (l : List (Option Interaction)) : E.leaderCheck l = .ok () ↔ E.Led l := by
  unfold Led
  induction l with
  | nil => simp [leaderCheck, pure, Except.pure]
  | cons ix rest ih =>
    rcases ix with _ | ix
    · simp [leaderCheck]
    by_cases hsys : E.ix.ids.accountTypeFromID ix.leaderCandidateAcc = .systemAccount
    · simp [leaderCheck, hsys, pure, Except.pure]
    · simp [leaderCheck, hsys, ih]

/-- The list is decoded, or refused, exactly if it meets the first condition. -/
theorem depolorize_iff (l : List IxWire) : (∃ r, E.depolorize l = .ok r) ↔ E.Leadable l := by
  induction l with
  | nil => exact iff_of_true ⟨_, rfl⟩ trivial
  | cons wire rest ih =>
    rcases wire with err | _ | ⟨data, signatures⟩
    · exact iff_of_true ⟨_, rfl⟩ trivial
    · rw [Leadable, ← ih, depolorize]
      cases E.depolorize rest with
      | error p => exact iff_of_false nofun nofun
      | ok r => exact iff_of_true ⟨_, rfl⟩ ⟨r, rfl⟩
    rw [Leadable, depolorize]
    obtain ⟨hled, r, hr, -⟩ | ⟨hstranded, p, hp⟩ :=
      newInteraction_cases signatures (E.leaderOrder data)
    · rw [hr, and_iff_right hled, ← ih]
      rcases r with err | ix
      · exact iff_of_true ⟨_, rfl⟩ nofun
      simp only [Except.ok.injEq, forall_eq']
      cases E.depolorize rest with
      | error p => exact iff_of_false nofun nofun
      | ok r => exact iff_of_true ⟨_, rfl⟩ ⟨r, rfl⟩
    · rw [hp]
      exact iff_of_false nofun fun h => h.1 hstranded

/-- **An error or the interactions that were asked for**, unless the peer sends a null or an
    interaction that nobody can lead. -/
theorem fetches_iff (E : FetchEnv) (ixHashes : List Hash) : E.Fetches ixHashes ↔
    ∀ wires, (E.pool.getIxnsWithMissingIxns ixHashes).2.length ≠ 0 →
      E.request (E.pool.getIxnsWithMissingIxns ixHashes).2 = .ok wires →
        E.Leadable wires ∧ ∀ fetched, E.depolorize wires = .ok (.ok fetched) → E.Led fetched := by
  unfold Fetches fetchIxns
  by_cases hnone : (E.pool.getIxnsWithMissingIxns ixHashes).2.length = 0
  · refine iff_of_true ⟨_, if_pos hnone, fun ixns h => ?_⟩ fun _ h => absurd hnone h
    cases h
    have hfound := E.pool.hashes_of_none_missing (List.length_eq_zero_iff.mp hnone)
    rwa [List.map_map]
  simp only [if_neg hnone]
  rcases hreq : E.request (E.pool.getIxnsWithMissingIxns ixHashes).2 with err | wires
  · exact iff_of_true ⟨_, rfl, nofun⟩ nofun
  simp only [Except.ok.injEq, forall_eq', hnone, ne_eq, not_false_eq_true, true_imp_iff,
    ← leaderCheck_iff, ← depolorize_iff, bind, Except.bind]
  rcases E.depolorize wires with p | err | fetched
  · exact iff_of_false (fun ⟨_, h, _⟩ => nomatch h) fun ⟨⟨_, h⟩, _⟩ => nomatch h
  · exact iff_of_true ⟨_, rfl, nofun⟩ ⟨⟨_, rfl⟩, nofun⟩
  simp only [Except.ok.injEq, forall_eq', exists_eq', true_and]
  rcases E.leaderCheck fetched with p | u
  · exact iff_of_false (fun ⟨_, h, _⟩ => nomatch h) nofun
  refine iff_of_true ?_ rfl
  by_cases hlen : (E.pool.getIxnsWithMissingIxns ixHashes).2.length = fetched.length
  · exact ⟨_, if_neg (not_not.mpr hlen), fun _ => mergeIxns_hashes⟩
  · exact ⟨_, if_pos hlen, nofun⟩

/-- The participants in the order of the map. -/
def givenOrder (E : IxEnv) (data : IxData) : List Identifier :=
  match E.readOps data.sender data.participantsInfo data.ixOps with
  | .ok (_, ps) => ps.keys
  | .error _ => []

theorem givenOrder_leader (E : IxEnv) (data : IxData) : LeaderOrder E data (givenOrder E data) := by
  intro ops ps h
  rw [givenOrder, h]

/-- A peer that answers with a null. -/
theorem null_panics : ¬ Fetches ⟨bareIxEnv, nilHash, ⟨∅, nofun⟩, [[]], [0], 0, fun _ _ => .ok [],
    fun _ => .ok [.ok none], givenOrder bareIxEnv, givenOrder_leader bareIxEnv⟩ [nilHash] := by
  rintro ⟨r, h, -⟩
  cases h

end FetchEnv

end GoMoi
