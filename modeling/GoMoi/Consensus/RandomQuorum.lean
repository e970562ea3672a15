/-
  File:      GoMoi/Consensus/RandomQuorum.lean
  Subject:   The quorum that is demanded from the random set of a committee, and the nodes in it
             (`RandomQuorumSize` of `consensus/types/nodeset.go`, `createICSForProposal` of
             `consensus/krama_engine.go`, `GetICSCommittee` of `consensus/ics.go`).

  The commit information brings a list of validators and, in a field of its own, the size that the
  quorum is computed from. Nobody compares the two. A validator appends the set of the list to the
  committee in any case; a verifier appends no set for an empty list, and then takes the last
  context set for the random one.

  * `RandomQuorum` -- the committee ends with the set of the list, its quorum is more than two
    thirds of the distinct nodes in it, and it is the number that is meant;
  * `QuorumSize` -- the field is large enough for the list, and small enough for the arithmetic;
  * **`randomQuorum_iff`** -- when a committee is right, for a proposal and for a tesseract;
  * `quorum_of_one` -- the sizes 0 and 2147483648, of which one vote is demanded, and a tesseract
    without a random set.
-/
import GoMoi.Consensus.Prepare

namespace GoMoi

/-! ## 1. The property and the condition -/

/-- The number of distinct nodes among validators. -/
def nodeCount (vals : List ValidatorInfo) : Nat := (vals.map (·.kramaID)).dedup.length

/-- **The committee `c`, made of the context sets of `contexts`, has a random set of its own with a
    quorum of more than two thirds.** -/
structure RandomQuorum (so : SystemObject) (info : CommitInfo)
    (contexts c : ICSCommittee) : Prop where
  /-- the last set is the one of the list -/
  own : ∃ set, c.sets = contexts.sets ++ [set] ∧ so.getValidators info.randomSet = .ok set.infos
  /-- more than two thirds of the distinct nodes in the last set -/
  quorum : ∃ set q, c.randomSet = .ok set ∧ c.randomQuorumSize = .ok q ∧
    2 * nodeCount set.infos < 3 * q.toNat
  /-- no multiplication or addition has wrapped around -/
  exact : ∃ set q, c.randomSet = .ok set ∧ c.randomQuorumSize = .ok q ∧
    q.toNat = set.setSizeWithOutDelta.toNat * 2 / 3 + 1

/-- The size suits the list. -/
structure QuorumSize (so : SystemObject) (info : CommitInfo) : Prop where
  small : info.randomSetSizeWithoutDelta.toNat < 2 ^ 31
  large : ∀ vals, so.getValidators info.randomSet = .ok vals →
    2 * nodeCount vals < 3 * (info.randomSetSizeWithoutDelta.toNat * 2 / 3 + 1)

/-! ## 2. The committees -/

section

variable {so : SystemObject} {info : CommitInfo} {contexts c : ICSCommittee}
  {vals : List ValidatorInfo}

theorem twoThirds_exact_iff (n : UInt32) :
    (NodeSet.twoThirds n).toNat = n.toNat * 2 / 3 + 1 ↔ n.toNat < 2 ^ 31 := by
  have hlt := n.toNat_lt
  have h2 : (2 : UInt32).toNat = 2 := rfl
  have h3 : (3 : UInt32).toNat = 3 := rfl
  have h1 : (1 : UInt32).toNat = 1 := rfl
  unfold NodeSet.twoThirds
  rw [UInt32.toNat_add, UInt32.toNat_div, UInt32.toNat_mul, h1, h2, h3]
  rw [Nat.mod_eq_of_lt (show n.toNat * 2 % 2 ^ 32 / 3 + 1 < 2 ^ 32 by omega)]
  by_cases hsmall : n.toNat < 2 ^ 31
  · rw [Nat.mod_eq_of_lt (by omega)]
    exact ⟨fun _ => hsmall, fun _ => rfl⟩
  · have hwrap : n.toNat * 2 % 2 ^ 32 = n.toNat * 2 - 2 ^ 32 := by omega
    refine ⟨fun h => ?_, fun h => absurd h hsmall⟩
    omega

theorem randomSet_append {set : NodeSet} (hsets : c.sets = contexts.sets ++ [set]) :
    c.randomSet = .ok set := by
  have hlen : ((c.size : Int) - 1) = (contexts.sets.length : Int) := by
    rw [c.size_eq, hsets, List.length_append, List.length_singleton]
    omega
  unfold ICSCommittee.randomSet
  rw [hlen, hsets]
  exact sliceAt_natCast List.getElem?_concat_length

theorem randomQuorumSize_append {set : NodeSet} (hsets : c.sets = contexts.sets ++ [set]) :
    c.randomQuorumSize = .ok (NodeSet.twoThirds set.setSizeWithOutDelta) := by
  unfold ICSCommittee.randomQuorumSize
  rw [randomSet_append hsets]
  rfl

/-- **A committee that ends with the set of the list is right exactly if the size suits the
    list.** -/
theorem randomQuorum_append_iff (hvals : so.getValidators info.randomSet = .ok vals)
    (hsets : c.sets = contexts.sets ++ [NodeSet.new vals info.randomSetSizeWithoutDelta]) :
    RandomQuorum so info contexts c ↔ QuorumSize so info := by
  have hset := randomSet_append hsets
  have hquorum := randomQuorumSize_append hsets
  constructor
  · intro h
    obtain ⟨set, q, hset', hq, hexact⟩ := h.exact
    rw [hset] at hset'
    rw [hquorum] at hq
    cases hset'
    cases hq
    have hsmall := (twoThirds_exact_iff _).mp hexact
    refine ⟨hsmall, fun vals' hvals' => ?_⟩
    obtain ⟨_, q, hset', hq, hlarge⟩ := h.quorum
    rw [hset] at hset'
    rw [hquorum] at hq
    rw [hvals] at hvals'
    cases hset'
    cases hq
    cases hvals'
    rw [hexact] at hlarge
    exact hlarge
  · intro h
    have hexact := (twoThirds_exact_iff _).mpr h.small
    refine ⟨⟨_, hsets, hvals⟩, ⟨_, _, hset, hquorum, ?_⟩, ⟨_, _, hset, hquorum, hexact⟩⟩
    show 2 * nodeCount vals < 3 * (NodeSet.twoThirds info.randomSetSizeWithoutDelta).toNat
    rw [hexact]
    exact h.large vals hvals

/-- A committee without another set is not. -/
theorem not_randomQuorum_self : ¬ RandomQuorum so info contexts contexts := by
  intro h
  obtain ⟨set, hsets, -⟩ := h.own
  have hlen := congrArg List.length hsets
  rw [List.length_append, List.length_singleton] at hlen
  omega

theorem getValidators_length {indices : List Nat} (h : so.getValidators indices = .ok vals) :
    vals.length = indices.length := by
  unfold SystemObject.getValidators at h
  induction indices generalizing vals with
  | nil =>
    cases h
    rfl
  | cons i rest ih =>
    rw [List.mapM_cons] at h
    obtain ⟨v, -, h⟩ := Go.bind_eq_ok.mp h
    obtain ⟨_, hr, h⟩ := Go.bind_eq_ok.mp h
    cases h
    rw [List.length_cons, List.length_cons, ih hr]

theorem getValidators_nil_iff {indices : List Nat} (h : so.getValidators indices = .ok vals) :
    vals = [] ↔ indices = [] := by
  rw [← List.length_eq_zero_iff, ← List.length_eq_zero_iff, getValidators_length h]

/-- **When a committee is right.** A validator makes it of a proposal: exactly if the size suits the
    list of the commit information. A verifier builds it from a tesseract: exactly if moreover there
    is a random set. -/
theorem randomQuorum_iff (ts : Tesseract) (info : CommitInfo) :
    (∀ {D : Type} (so : SystemObject) (order : List Identifier) (ixnsHash : Hash)
      (participants participants' : Participants) (loaded contexts : ICSCommittee)
      (known : Identifier → KnownView) (d : D) (v : PrepareValidator D),
      ts.commitInfo = some info →
      excludeParticipantsFromICS order participants loaded ts.excludedAccounts =
        .ok (participants', contexts) →
      PrepareValidator.createClusterState so order ixnsHash participants loaded known d ts =
        .ok (.ok v) →
      (RandomQuorum so info contexts v.committee ↔ QuorumSize so info)) ∧
    (∀ (E : CommitteeEnv) (fetch : Fetch) (contexts c : ICSCommittee),
      rebuild fetch ts ts.accountIDs ICSCommittee.new = .ok (.ok contexts) →
      buildCommittee E fetch ts info = .ok (.ok c) →
      (RandomQuorum E.systemObject info contexts c ↔
        info.randomSet ≠ [] ∧ QuorumSize E.systemObject info)) := by
  constructor
  · intro D so order ixnsHash participants participants' loaded contexts known d v hinfo hexclude
      hcreate
    unfold PrepareValidator.createClusterState at hcreate
    rw [hexclude, hinfo] at hcreate
    rcases hvals : so.getValidators info.randomSet with e | vals
    · simp only [Go.deref, bind, Except.bind, hvals] at hcreate
      cases hcreate
    simp only [Go.deref, bind, Except.bind, hvals] at hcreate
    cases hcreate
    exact randomQuorum_append_iff hvals rfl
  · intro E fetch contexts c hcontexts hbuild
    unfold buildCommittee at hbuild
    rw [hcontexts] at hbuild
    rcases hvals : E.systemObject.getValidators info.randomSet with e | vals
    · simp only [bind, Except.bind, hvals] at hbuild
      cases hbuild
    simp only [bind, Except.bind, hvals, Engine.nodeSet] at hbuild
    by_cases hnil : vals = []
    · rw [if_pos hnil] at hbuild
      cases hbuild
      refine ⟨fun h => absurd h not_randomQuorum_self, fun h => ?_⟩
      exact absurd ((getValidators_nil_iff hvals).mp hnil) h.1
    rw [if_neg hnil] at hbuild
    cases hbuild
    rw [randomQuorum_append_iff hvals rfl]
    exact ⟨fun h => ⟨fun he => hnil ((getValidators_nil_iff hvals).mpr he), h⟩, fun h => h.2⟩

end

/-! ## 3. Sizes of which one vote is demanded -/

namespace RandomSample

/-- Four validators, and commit information that lists some of them. -/
def validators : SystemObject := ⟨[⟨0, [1], [7]⟩, ⟨1, [2], [8]⟩, ⟨2, [3], [9]⟩, ⟨3, [4], [10]⟩]⟩

def env : CommitteeEnv := ⟨fun _ => .ok ⟨[[1]], ⟨11⟩⟩, validators⟩

def info (randomSet : List Nat) (size : UInt32) : CommitInfo := ⟨none, [], [], 1, randomSet, size⟩

def committee (i : CommitInfo) : Go (Except Err ICSCommittee) :=
  getICSCommittee env (storeOf []) (oneParticipant ⟨5⟩) i

/-- Of no account a view is known. -/
def unseen (_ : Identifier) : KnownView := ⟨0, noLock, none⟩

/-- The cluster state of a validator, on a proposal with the commit information. -/
def proposed (i : CommitInfo) : Go (Except Err (PrepareValidator Unit)) :=
  PrepareValidator.createClusterState validators [] nilHash ∅ .new unseen ()
    { oneParticipant ⟨5⟩ with commitInfo := some i }

end RandomSample

open RandomSample in
/-- The condition at a list of four with its size, for a validator and for a verifier. -/
theorem randomQuorum_iff_four :
    (∃ contexts v, proposed (info [0, 1, 2, 3] 4) = .ok (.ok v) ∧
      RandomQuorum validators (info [0, 1, 2, 3] 4) contexts v.committee) ∧
    ∃ contexts c, committee (info [0, 1, 2, 3] 4) = .ok (.ok c) ∧
      RandomQuorum validators (info [0, 1, 2, 3] 4) contexts c := by
  have hfits : QuorumSize validators (info [0, 1, 2, 3] 4) := by
    refine ⟨by decide, fun vals hvals => ?_⟩
    cases hvals
    decide
  constructor
  · obtain ⟨v, hv⟩ : ∃ v, proposed (info [0, 1, 2, 3] 4) = .ok (.ok v) := ⟨_, rfl⟩
    exact ⟨.new, v, hv, ((randomQuorum_iff _ (info [0, 1, 2, 3] 4)).1 validators [] nilHash ∅ ∅ .new
      .new unseen () v rfl rfl hv).mpr hfits⟩
  · obtain ⟨contexts, hcontexts⟩ : ∃ contexts, rebuild
        (fetchParticipantContextByHash env (storeOf [])) (oneParticipant ⟨5⟩)
        (oneParticipant ⟨5⟩).accountIDs ICSCommittee.new = .ok (.ok contexts) := ⟨_, rfl⟩
    obtain ⟨c, hc⟩ : ∃ c, committee (info [0, 1, 2, 3] 4) = .ok (.ok c) := ⟨_, rfl⟩
    exact ⟨contexts, c, hc, ((randomQuorum_iff _ (info [0, 1, 2, 3] 4)).2 env _ contexts c
      hcontexts hc).mpr ⟨by decide, hfits⟩⟩

open RandomSample in
/-- **One vote of four nodes is a quorum if the size is 0 or 2147483648; and a tesseract without a
    random set has its context set taken for it.** -/
theorem quorum_of_one :
    (∃ c, committee (info [0, 1, 2, 3] 0) = .ok (.ok c) ∧ c.randomQuorumSize = .ok 1 ∧
      ∃ set, c.randomSet = .ok set ∧ nodeCount set.infos = 4) ∧
    (∃ c, committee (info [0, 1, 2, 3] 2147483648) = .ok (.ok c) ∧ c.randomQuorumSize = .ok 1) ∧
    (∃ c, committee (info [] 4) = .ok (.ok c) ∧ c.size = 1 ∧
      ∃ set, c.randomSet = .ok set ∧ set.kramaIDs = [[1]]) := by
  exact ⟨⟨_, rfl, rfl, _, rfl, by decide⟩, ⟨_, rfl, rfl⟩, ⟨_, rfl, rfl, _, rfl, rfl⟩⟩

end GoMoi
