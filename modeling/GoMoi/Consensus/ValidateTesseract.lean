/-
  File:      GoMoi/Consensus/ValidateTesseract.lean
  Subject:   The check a node makes before it adds a tesseract it got from a peer
             (`ValidateTesseract` of `consensus/krama_engine.go`).

  The check has four stages: the tesseract is not known yet, its seal verifies, its transitions
  fit their parents, and its commit certificate is signed by a quorum of the committee. The last
  stage is `verifyQc`, which itself first counts the signers (`quorumStage`) and then asks the
  aggregate-signature verifier.

  * `Node` -- the collaborators of the engine: stores, codec, signature verifier;
  * `quorumStage_eq` -- on a well-formed certificate the counting stage returns, and it accepts
    exactly if the tally of the signers is quorate;
  * `verifySignatures_cases` -- the verdict on a certificate whose signers can be listed; the
    other certificates panic (`verifySignatures_panics`).

  Lookups in the data base and in the account tries are functions of the node here: one
  validation reads one state of the node.
-/
import GoMoi.Consensus.VoteCount

namespace GoMoi

/-- `Identifier.String`. -/
def Identifier.hex (id : Identifier) : String := "0x" ++ id.bits.toHex

/-- What the engine asks its collaborators. -/
structure Node where
  codec : Codec
  prims : Primitives
  sargaAccountID : Identifier
  hasAccMetaInfoAt : Identifier → UInt64 → Bool
  getPublicKeys : List KramaID → Except Err (List Bytes)
  isAccountRegistered : Identifier → Bool × Option Err
  isAccountRegisteredAt : Identifier → Hash → Bool × Option Err
  getTesseract : Hash → Except Err Tesseract
  signatureVerifier : Bytes → Bytes → List Bytes → Bool × Option Err

/-! ## 1. The certificate -/

namespace ICSCommittee

/-- The first loop of `verifyQc`: the counters and the keys of the signers that resolve. -/
def countSigners (c : ICSCommittee) : List Nat → List UInt32 → Go (List UInt32 × List Bytes)
  | [], counter => pure (counter, [])
  | valIndex :: rest, counter =>
    match c.getKramaID (int32 valIndex) with
    | none => countSigners c rest counter
    | some k => do
      let counter ← VoteSet.updateSum counter k.slots
      let (counter, publicKeys) ← countSigners c rest counter
      pure (counter, k.publicKey :: publicKeys)

/-- The second loop of `verifyQc`, over the context sets. -/
def contextQuorum (c : ICSCommittee) (counter : List UInt32) : List Nat → Go Bool
  | [] => pure true
  | index :: rest => do
    if ← c.isExcluded index then contextQuorum c counter rest
    else do
      let votes ← sliceAt counter index
      let quorum ← c.participantQuorum index
      if votes < quorum then pure false else contextQuorum c counter rest

/-- `verifyQc` up to the signature: the keys to verify under, or why there is no quorum. -/
def quorumStage (c : ICSCommittee) (signerIndices : Option ArrayOfBits) :
    Go (Except Err (List Bytes)) := do
  let bits ← Go.deref signerIndices
  let signers ← bits.getTrueIndices
  let (counter, publicKeys) ← c.countSigners signers (List.replicate c.size 0)
  if ← c.contextQuorum counter (List.range (c.size - 1)) then do
    let votes ← sliceAt counter ((c.size : Int) - 1)
    let quorum ← c.randomQuorumSize
    if votes < quorum then pure (.error (.sentinel .errRandomQuorumFailed))
    else pure (.ok publicKeys)
  else pure (.error (.sentinel .errContextQuorumFailed))

end ICSCommittee

/-- The vote `verifyQc` rebuilds: the view of the commit information, the rest from the QC. -/
def Qc.canonical (qc : Qc) (view : UInt64) : CanonicalVote := ⟨qc.type, view, qc.tsHash⟩

namespace Node

variable (N : Node)

/-- `verifyQc`. -/
def verifyQc (view : UInt64) (ics : ICSCommittee) (qc : Option Qc) : Go (Bool × Option Err) := do
  let qc ← Go.deref qc
  match ← ics.quorumStage qc.signerIndices with
  | .error e => pure (false, some e)
  | .ok publicKeys =>
    match (qc.canonical view).bytes N.codec with
    | .error e => pure (false, some e)
    | .ok rawData =>
      let (verified, err) := N.signatureVerifier rawData qc.signature publicKeys
      if err.isSome then pure (false, err) else pure (verified, none)

/-- `verifySignatures`. -/
def verifySignatures (ts : Tesseract) (ics : ICSCommittee) : Go (Bool × Option Err) := do
  let info ← Go.deref ts.commitInfo
  N.verifyQc info.view ics info.qc

/-! ## 2. Seal and transitions -/

/-- `IsSealValid`. -/
def isSealValid (ts : Tesseract) : Go (Bool × Option Err) :=
  match N.getPublicKeys [ts.sealBy] with
  | .error e => pure (false, some e)
  | .ok publicKey =>
    match ts.signBytes N.codec with
    | .error e => pure (false, some e)
    | .ok rawData => do
      let pk ← sliceAt publicKey 0
      Crypto.verify N.prims rawData ts.sealBytes pk

/-- `IsInitialTesseract`. -/
def isInitialTesseract (ts : Tesseract) (id : Identifier) : Bool × Option Err :=
  let (accountRegistered, err) := match ts.state N.sargaAccountID with
    | none => N.isAccountRegistered id
    | some info => N.isAccountRegisteredAt id info.transitiveLink
  (!accountRegistered && ts.height id == 0, err)

/-- One round of `verifyTransitions`. -/
def verifyTransition (ts : Tesseract) (id : Identifier) : Option Err :=
  let (initial, err) := N.isInitialTesseract ts id
  if err.isSome then GoError.wrapErr err "Sarga account not found"
  else if initial then none
  else if (ts.stateHash id).isNil then none
  else if (ts.consensusInfo.accountLocks.lookup id).any (mutateLock.val < ·.val) then none
  else match N.getTesseract (ts.transitiveLink id) with
    | .error _ => some (.sentinel .errPreviousTesseractNotFound)
    | .ok parent =>
      if parent.height id ≠ ts.height id - 1 then some (.sentinel .errInvalidHeight)
      else if ts.timestamp < parent.timestamp then some (.sentinel .errInvalidBlockTime)
      else none

/-- `verifyTransitions`. -/
def verifyTransitions (id : Identifier) (ts : Tesseract) (allParticipants : Bool) : Option Err :=
  if ts.consensusInfo.view = genesisView then none
  else (if allParticipants then ts.accountIDs else [id]).findSome? (N.verifyTransition ts)

/-! ## 3. The whole check -/

/-- `ValidateTesseract`. -/
def validateTesseract (id : Identifier) (ts : Tesseract) (ics : ICSCommittee)
    (allParticipants : Bool) : Go (Option Err) :=
  if !allParticipants && N.hasAccMetaInfoAt id (ts.height id) then
    pure (some (.sentinel .errAlreadyKnown))
  else do
    let (validSeal, _) ← N.isSealValid ts
    if !validSeal then pure (some (.sentinel .errInvalidSeal))
    else match N.verifyTransitions id ts allParticipants with
      | some e => pure (some e)
      | none => do
        let (verified, err) ← N.verifySignatures ts ics
        if !verified || err.isSome then
          pure (GoError.wrapErr err ("failed to verify signatures " ++ id.hex ++ " " ++
            toString (ts.height id)))
        else pure none

end Node

/-! ## 4. What the counting stage decides -/

namespace ICSCommittee

variable {c : ICSCommittee}

/-- The slots credited for a signer named by a certificate; none if it does not resolve. -/
def signerSlots (c : ICSCommittee) (valIndex : Nat) : List Nat :=
  ((c.getKramaID (int32 valIndex)).map (·.slots)).getD []

/-- The keys of the signers that resolve. -/
def signerKeys (c : ICSCommittee) (signers : List Nat) : List Bytes :=
  signers.filterMap fun i : Nat => (c.getKramaID (int32 i)).map (·.publicKey)

/-- The credits of a list of signers, before they are counted in 32 bits. -/
def credits (c : ICSCommittee) (signers : List Nat) (s : Nat) : Nat :=
  (signers.map fun i => (c.signerSlots i).count s).sum

/-- What the counters hold in the end. -/
def counted (c : ICSCommittee) (signers : List Nat) (s : Nat) : Nat := c.credits signers s % 2 ^ 32

theorem countSigners_spec (signers : List Nat) (counter : List UInt32)
    (hlen : counter.length = c.size) :
    ∃ counter', c.countSigners signers counter = .ok (counter', c.signerKeys signers) ∧
      counter'.length = c.size ∧
      ∀ s, counter'[s]? = counter[s]?.map (· + UInt32.ofNat (c.credits signers s)) := by
  induction signers generalizing counter with
  | nil => exact ⟨counter, rfl, hlen, fun s => by cases counter[s]? <;> simp [credits]⟩
  | cons i rest ih =>
    rcases hk : c.getKramaID (int32 i) with _ | k
    · obtain ⟨counter', hcall, hlen', hget⟩ := ih counter hlen
      refine ⟨counter', ?_, hlen', fun s => ?_⟩
      · simp [countSigners, hk, hcall, signerKeys]
      · rw [hget s]
        simp [credits, signerSlots, hk]
    have hall : k.slots.all (· < counter.length) = true := by
      rw [List.all_eq_true]
      intro s hs
      have := getKramaID_slots_lt hk hs
      simpa [hlen] using this
    obtain ⟨counter', hcall, hlen', hget⟩ := ih (bump counter k.slots) (by simpa)
    refine ⟨counter', ?_, hlen', fun s => ?_⟩
    · simp only [countSigners, hk, VoteSet.updateSum, hall, if_true, bind, Except.bind, hcall,
        signerKeys, List.filterMap_cons, Option.map_some]
      rfl
    rw [hget s, bump_getElem?]
    cases counter[s]? with
    | none => rfl
    | some n => simp [credits, signerSlots, hk, UInt32.ofNat_add, UInt32.add_assoc]

/-- The second loop accepts exactly if each listed context set has the votes it requires. -/
theorem contextQuorum_spec {counter : List UInt32} (hlen : counter.length = c.size) {l : List Nat}
    (hl : ∀ i ∈ l, i + 1 < c.size) :
    ∃ b, c.contextQuorum counter l = .ok b ∧ (b = true ↔ ∀ i ∈ l, ∀ q v : UInt32,
      c.requiredVotes[i]? = some q → counter[i]? = some v → q ≤ v) := by
  induction l with
  | nil => exact ⟨true, rfl, by simp⟩
  | cons i rest ih =>
    obtain ⟨b, hb, hiff⟩ := ih fun j hj => hl j (List.mem_cons_of_mem i hj)
    have hi := hl i List.mem_cons_self
    have hset : i < c.sets.length := by rw [← c.size_eq]; omega
    have hcnt : i < counter.length := by omega
    have hreq : c.requiredVotes[i]? = some (if c.sets[i].excludedFromICS then 0
        else c.sets[i].participantQuorum) := by
      rw [requiredVotes, List.getElem?_mapIdx, List.getElem?_eq_getElem hset, Option.map_some,
        if_neg (by omega)]
    have hvote : sliceAt counter (i : Int) = .ok counter[i] :=
      sliceAt_natCast (List.getElem?_eq_getElem hcnt)
    have hhead : (∀ q v : UInt32, c.requiredVotes[i]? = some q → counter[i]? = some v → q ≤ v) ↔
        (if c.sets[i].excludedFromICS then 0 else c.sets[i].participantQuorum) ≤ counter[i] := by
      rw [hreq, List.getElem?_eq_getElem hcnt]
      simp
    rw [contextQuorum, isExcluded, participantQuorum, sliceAt_sets hset, hvote]
    simp only [bind, Except.bind, pure, Except.pure, List.forall_mem_cons, hhead]
    cases hex : c.sets[i].excludedFromICS with
    | true => exact ⟨b, hb, by simp [hiff]⟩
    | false =>
      by_cases hlt : counter[i] < c.sets[i].participantQuorum
      · exact ⟨false, by simp [hlt], by simp [UInt32.not_le.mpr hlt]⟩
      · exact ⟨b, by simp [hlt, hb], by simp [hiff, UInt32.not_lt.mp hlt]⟩

variable {bits : ArrayOfBits} {signers : List Nat}

/-- **On a certificate whose signers can be listed the counting stage returns**, with the keys of
    the signers exactly if their credits are quorate. -/
theorem quorumStage_eq (hpos : 0 < c.size) (hb : bits.getTrueIndices = .ok signers) :
    (c.quorumStage (some bits) = .ok (.ok (c.signerKeys signers)) ∧
        c.Quorate (c.counted signers)) ∨
      ∃ e, c.quorumStage (some bits) = .ok (.error e) ∧ ¬ c.Quorate (c.counted signers) := by
  obtain ⟨counter, hcount, hlen, hget⟩ :=
    c.countSigners_spec signers (List.replicate c.size 0) (by simp)
  have hcounter : ∀ s < c.size, counter[s]? = some (UInt32.ofNat (c.credits signers s)) := by
    intro s hs
    rw [hget s]
    simp [hs]
  have hle : ∀ (q : UInt32) s, q ≤ UInt32.ofNat (c.credits signers s) ↔
      q.toNat ≤ c.counted signers s := fun q s => by
    rw [UInt32.le_iff_toNat_le, UInt32.toNat_ofNat', counted]
  obtain ⟨b, hctx, hiff⟩ := contextQuorum_spec hlen (l := List.range (c.size - 1)) fun i hi => by
    rw [List.mem_range] at hi
    omega
  obtain ⟨hlast, hrandom⟩ := randomSet_eq hpos
  have hvotes : sliceAt counter ((c.size : Int) - 1) =
      .ok (UInt32.ofNat (c.credits signers (c.size - 1))) := by
    have hcast : ((c.size : Int) - 1) = ((c.size - 1 : Nat) : Int) := by omega
    rw [hcast]
    exact sliceAt_natCast (hcounter _ (by omega))
  have hreq : c.requiredVotes[c.size - 1]? =
      some (NodeSet.twoThirds c.sets[c.size - 1].setSizeWithOutDelta) := by
    rw [requiredVotes, List.getElem?_mapIdx, List.getElem?_eq_getElem hlast, Option.map_some,
      if_pos (by omega)]
  -- quorate is the context part, decided by the loop, and the random part
  have hsplit : c.Quorate (c.counted signers) ↔ b = true ∧
      NodeSet.twoThirds c.sets[c.size - 1].setSizeWithOutDelta ≤
        UInt32.ofNat (c.credits signers (c.size - 1)) := by
    rw [hiff, hle]
    constructor
    · refine fun hq => ⟨fun i hi q v hqi hv => ?_, hq.2 _ _ hreq⟩
      rw [List.mem_range] at hi
      rw [hcounter i (by omega), Option.some.injEq] at hv
      exact hv ▸ (hle q i).mpr (hq.2 i q hqi)
    · rintro ⟨hcontext, hrand⟩
      refine ⟨hpos, fun s q hq => ?_⟩
      have hs : s < c.size := by
        rw [← requiredVotes_length]
        exact (List.getElem?_eq_some_iff.mp hq).1
      by_cases hlt : s < c.size - 1
      · exact (hle q s).mp (hcontext s (List.mem_range.mpr hlt) q _ hq (hcounter s hs))
      · obtain rfl : s = c.size - 1 := by omega
        rw [hreq, Option.some.injEq] at hq
        exact hq ▸ hrand
  have hcall : c.quorumStage (some bits) = (if b then
      (if UInt32.ofNat (c.credits signers (c.size - 1)) <
          NodeSet.twoThirds c.sets[c.size - 1].setSizeWithOutDelta
        then .ok (.error (.sentinel .errRandomQuorumFailed)) else .ok (.ok (c.signerKeys signers)))
      else .ok (.error (.sentinel .errContextQuorumFailed))) := by
    simp [quorumStage, Go.deref, bind, Except.bind, hb, hcount, hctx, hvotes, randomQuorumSize,
      hrandom, pure, Except.pure]
  rw [hcall, hsplit]
  rcases b with _ | _
  · exact .inr ⟨_, rfl, by simp⟩
  by_cases hlt : UInt32.ofNat (c.credits signers (c.size - 1)) <
      NodeSet.twoThirds c.sets[c.size - 1].setSizeWithOutDelta
  · exact .inr ⟨_, by rw [if_pos rfl, if_pos hlt], fun h => absurd h.2 (UInt32.not_le.mpr hlt)⟩
  · exact .inl ⟨by rw [if_pos rfl, if_neg hlt], rfl, UInt32.not_lt.mp hlt⟩

/-- The random set of an empty committee is read at position -1. -/
theorem quorumStage_empty (hzero : c.size = 0) (hb : bits.getTrueIndices = .ok signers) :
    c.quorumStage (some bits) = .error .indexOutOfRange := by
  obtain ⟨_, hcount, _, _⟩ :=
    c.countSigners_spec signers (List.replicate c.size 0) (by simp)
  rw [hzero, List.replicate_zero] at hcount
  simp [quorumStage, contextQuorum, hb, hzero, hcount, sliceAt, Go.deref, bind, Except.bind, pure,
    Except.pure]

/-- **The counting stage accepts exactly if the credits of the signers are quorate.** -/
theorem quorumStage_accepts_iff (hb : bits.getTrueIndices = .ok signers) :
    (∃ keys, c.quorumStage (some bits) = .ok (.ok keys)) ↔ c.Quorate (c.counted signers) := by
  by_cases hzero : c.size = 0
  · constructor
    · rintro ⟨keys, h⟩
      rw [quorumStage_empty hzero hb] at h
      cases h
    · exact fun h => absurd h.1 (by omega)
  rcases quorumStage_eq (Nat.pos_of_ne_zero hzero) hb with ⟨hok, hq⟩ | ⟨e, herr, hq⟩
  · exact ⟨fun _ => hq, fun _ => ⟨_, hok⟩⟩
  refine ⟨?_, fun h => absurd h hq⟩
  rintro ⟨keys, h⟩
  rw [herr] at h
  cases h

end ICSCommittee

/-! ## 5. The verdict on the certificate -/

/-- The signers of the commit certificate can be listed and the committee has a set: what
    `verifyQc` needs so as not to panic. -/
def Listable (ts : Tesseract) (ics : ICSCommittee) : Prop :=
  0 < ics.size ∧ ∃ info qc bits signers, ts.commitInfo = some info ∧ info.qc = some qc ∧
    qc.signerIndices = some bits ∧ bits.getTrueIndices = .ok signers

namespace Node

variable {N : Node} {ts : Tesseract} {ics : ICSCommittee}

/-- The certificate has a quorum, its vote encodes, and the verifier answers `(verdict, nil)`. -/
def Answered (N : Node) (ts : Tesseract) (ics : ICSCommittee) (verdict : Bool) : Prop :=
  ∃ info qc publicKeys raw, ts.commitInfo = some info ∧ info.qc = some qc ∧
    ics.quorumStage qc.signerIndices = .ok (.ok publicKeys) ∧
    (qc.canonical info.view).bytes N.codec = .ok raw ∧
    N.signatureVerifier raw qc.signature publicKeys = (verdict, none)

theorem Answered.returned {verdict : Bool} (h : N.Answered ts ics verdict) :
    N.verifySignatures ts ics = .ok (verdict, none) := by
  obtain ⟨_, _, _, _, hinfo, hqc, hstage, hraw, hver⟩ := h
  simp only [verifySignatures, verifyQc, hinfo, hqc, Go.deref, bind, Except.bind, hstage, hraw,
    hver]
  rfl

/-- The verdict is `true`, an error, or the silent `false`. -/
theorem verifySignatures_cases (h : Listable ts ics) :
    N.Answered ts ics true ∨ (∃ e, N.verifySignatures ts ics = .ok (false, some e)) ∨
      N.Answered ts ics false := by
  obtain ⟨hpos, info, qc, _, signers, hinfo, hqc, hbits, hsigners⟩ := h
  have hopen : N.verifySignatures ts ics = N.verifyQc info.view ics (some qc) := by
    simp [verifySignatures, hinfo, hqc, Go.deref, bind, Except.bind]
  rcases ICSCommittee.quorumStage_eq hpos hsigners with ⟨hstage, _⟩ | ⟨e, hstage, _⟩
  · rw [← hbits] at hstage
    rcases hraw : (qc.canonical info.view).bytes N.codec with e | raw
    · refine .inr (.inl ⟨e, ?_⟩)
      rw [hopen]
      simp only [verifyQc, Go.deref, bind, Except.bind, hstage, hraw]
      rfl
    have hret : N.verifyQc info.view ics (some qc) =
        (if (N.signatureVerifier raw qc.signature (ics.signerKeys signers)).2.isSome
          then .ok (false, (N.signatureVerifier raw qc.signature (ics.signerKeys signers)).2)
          else .ok ((N.signatureVerifier raw qc.signature (ics.signerKeys signers)).1,
            none)) := by
      simp [verifyQc, Go.deref, bind, Except.bind, hstage, hraw, pure, Except.pure]
    rcases hver : N.signatureVerifier raw qc.signature (ics.signerKeys signers) with ⟨v, err⟩
    cases err with
    | some e => exact .inr (.inl ⟨e, by rw [hopen, hret, hver]; rfl⟩)
    | none =>
      cases v with
      | true => exact .inl ⟨info, qc, _, raw, hinfo, hqc, hstage, hraw, hver⟩
      | false => exact .inr (.inr ⟨info, qc, _, raw, hinfo, hqc, hstage, hraw, hver⟩)
  · rw [← hbits] at hstage
    refine .inr (.inl ⟨e, ?_⟩)
    rw [hopen]
    simp only [verifyQc, Go.deref, bind, Except.bind, hstage]
    rfl

/-- An empty committee, or a certificate without a listable set of signers, panics. -/
theorem verifySignatures_panics (h : ¬ Listable ts ics) :
    ∃ p, N.verifySignatures ts ics = .error p := by
  cases hinfo : ts.commitInfo with
  | none => exact ⟨.nilDeref, by simp [verifySignatures, hinfo, Go.deref, bind, Except.bind]⟩
  | some info =>
  cases hqc : info.qc with
  | none => exact ⟨.nilDeref, by simp [verifySignatures, verifyQc, hinfo, hqc, Go.deref, bind,
      Except.bind]⟩
  | some qc =>
  cases hbits : qc.signerIndices with
  | none => exact ⟨.nilDeref, by simp [verifySignatures, verifyQc, ICSCommittee.quorumStage, hinfo,
      hqc, hbits, Go.deref, bind, Except.bind]⟩
  | some bits =>
  rcases hsigners : bits.getTrueIndices with p | signers
  · exact ⟨p, by simp [verifySignatures, verifyQc, ICSCommittee.quorumStage, hinfo, hqc,
      hbits, hsigners, Go.deref, bind, Except.bind]⟩
  have hzero : ics.size = 0 := by
    by_contra hne
    exact h ⟨by omega, info, qc, bits, signers, hinfo, hqc, hbits, hsigners⟩
  refine ⟨.indexOutOfRange, ?_⟩
  simp [verifySignatures, verifyQc, hinfo, hqc, hbits, Go.deref, bind, Except.bind,
    ICSCommittee.quorumStage_empty hzero hsigners]

/-- **The certificate check returns `(true, nil)` only with the verifier's word for it.** -/
theorem verifySignatures_true (h : N.verifySignatures ts ics = .ok (true, none)) :
    N.Answered ts ics true := by
  by_cases hl : Listable ts ics
  · rcases verifySignatures_cases (N := N) hl with ht | ⟨e, he⟩ | hf
    · exact ht
    · rw [he] at h
      cases h
    · rw [hf.returned] at h
      cases h
  · obtain ⟨p, hp⟩ := verifySignatures_panics (N := N) hl
    rw [hp] at h
    cases h

end Node

end GoMoi
