/-
  File:      GoMoi/Consensus/Acceptance.lean
  Subject:   What an accepted tesseract has been checked for.

  * **`errorHandled_iff`** -- when the outcome of `ValidateTesseract` reflects its checks. It does
    not if the aggregate-signature verifier answers `(false, nil)`: the engine wraps the `nil`
    error, and wrapping `nil` gives `nil` (`accepts_false_verdict`);
  * `TesseractMsg.getTesseract`, `TesseractSyncMsg.getTesseract` -- how a tesseract comes in: the
    commit information is attached by the sender, outside what is hashed and sealed;
  * **`certificateBound_iff`** -- when an accepted certificate is a PRECOMMIT over the hash of the
    tesseract it came with: exactly if the sender chose it so, because neither field is compared.
-/
import GoMoi.Consensus.ValidateTesseract

namespace GoMoi

namespace Node

variable (N : Node) (id : Identifier) (ts : Tesseract) (ics : ICSCommittee) (allParticipants : Bool)

/-! ## 1. The outcome and the checks -/

/-- The stage that refuses a tesseract the node has. -/
def AlreadyKnown : Prop :=
  allParticipants = false ∧ N.hasAccMetaInfoAt id (ts.height id) = true

/-- The seal is valid, the transitions pass, and the certificate verifies without an error. -/
def Checked : Prop :=
  (∃ e, N.isSealValid ts = .ok (true, e)) ∧ N.verifyTransitions id ts allParticipants = none ∧
    N.verifySignatures ts ics = .ok (true, none)

variable {N id ts ics allParticipants}

theorem validateTesseract_known (ics : ICSCommittee) (h : N.AlreadyKnown id ts allParticipants) :
    N.validateTesseract id ts ics allParticipants = .ok (some (.sentinel .errAlreadyKnown)) := by
  obtain ⟨rfl, hknown⟩ := h
  simp [validateTesseract, hknown, pure, Except.pure]

theorem validateTesseract_unknown (ics : ICSCommittee)
    (h : ¬ N.AlreadyKnown id ts allParticipants) :
    N.validateTesseract id ts ics allParticipants = (do
      let (validSeal, _) ← N.isSealValid ts
      if !validSeal then pure (some (.sentinel .errInvalidSeal))
      else match N.verifyTransitions id ts allParticipants with
        | some e => pure (some e)
        | none => do
          let (verified, err) ← N.verifySignatures ts ics
          if !verified || err.isSome then
            pure (GoError.wrapErr err ("failed to verify signatures " ++ id.hex ++ " " ++
              toString (ts.height id)))
          else pure none) := by
  have hcond : (!allParticipants && N.hasAccMetaInfoAt id (ts.height id)) = false := by
    cases allParticipants with
    | true => rfl
    | false => simpa [AlreadyKnown] using h
  rw [validateTesseract, hcond]
  rfl

/-- Past the seal and the transitions the outcome is that of the certificate. -/
theorem validateTesseract_sealed (ics : ICSCommittee)
    (hk : ¬ N.AlreadyKnown id ts allParticipants) {e : Option Err}
    (hseal : N.isSealValid ts = .ok (true, e))
    (htrans : N.verifyTransitions id ts allParticipants = none) :
    N.validateTesseract id ts ics allParticipants = (do
      let (verified, err) ← N.verifySignatures ts ics
      if !verified || err.isSome then
        pure (GoError.wrapErr err ("failed to verify signatures " ++ id.hex ++ " " ++
          toString (ts.height id)))
      else pure none) := by
  rw [validateTesseract_unknown ics hk, hseal, htrans]
  rfl

end Node

/-! ## 2. A node with one validator -/

namespace Sample

def key : Bytes := List.replicate 48 1

/-- A committee of a random set with one member, who is its quorum. -/
def committee : ICSCommittee :=
  ICSCommittee.new.appendNodeSet nilHash (some (NodeSet.new [⟨0, [1], key⟩] 1))

def precommit : CanonicalVote := ⟨PRECOMMIT, 1, ⟨7⟩⟩

def foreignPrevote : CanonicalVote := ⟨PREVOTE, 1, ⟨8⟩⟩

/-- An encoder of two votes, and a hash that gives the tesseract below the value 7. -/
def codec : Codec where
  polorizeBody _ := .ok []
  polorizeVote v :=
    if v = precommit then .ok [3]
    else if v = foreignPrevote then .ok [2]
    else .error (.new "unsupported")
  blake2b raw := ⟨BitVec.ofNat 256 (7 + raw.length)⟩

/-- Seals verify; aggregates verify as the argument says. -/
def prims (fastAggregateVerify : Bytes → List Bytes → Bytes → Bool) : Primitives where
  verifyCompressed _ _ _ := true
  aggregate _ := .ok []
  fastAggregateVerify := fastAggregateVerify
  secp256k1Verify _ _ _ := (false, none)

def node (fastAggregateVerify : Bytes → List Bytes → Bytes → Bool) : Node where
  codec := codec
  prims := prims fastAggregateVerify
  sargaAccountID := ⟨1⟩
  hasAccMetaInfoAt _ _ := false
  getPublicKeys ids := .ok (ids.map fun _ => key)
  isAccountRegistered _ := (true, none)
  isAccountRegisteredAt _ _ := (true, none)
  getTesseract _ := .error (.new "not found")
  signatureVerifier := Crypto.verifyAggregateSignature (prims fastAggregateVerify)

/-- A tesseract of view 1 with the given commit information. -/
def tesseract (info : Option CommitInfo) : Tesseract where
  participants := ∅
  interactionsHash := nilHash
  receiptsHash := nilHash
  epoch := 0
  timestamp := 0
  fuelUsed := 0
  fuelLimit := 0
  consensusInfo := ⟨[], nilHash, nilHash, 1, ∅, ∅, ∅, nilHash, []⟩
  sealBytes := [4, 0]
  sealBy := [1]
  commitInfo := info

/-- Commit information with a certificate of the only member over a given vote. -/
def commitInfo (v : CanonicalVote) : CommitInfo :=
  ⟨some ⟨v.type, v.view, v.tsHash, some ⟨1, [1]⟩, []⟩, [], [], v.view, [0], 1⟩

end Sample

open Sample

/-- The decoders of what a message carries; the last two only tell whether decoding fails. -/
structure Decoder where
  tesseract : Bytes → Except Err Tesseract
  commitInfo : Bytes → Except Err CommitInfo
  interactions : Bytes → Option Err
  receipts : Bytes → Option Err

/-- The fields of `type TesseractMsg struct` that `GetTesseract` reads. -/
structure TesseractMsg where
  rawTesseract : Bytes
  commitInfo : Option CommitInfo

/-- `TesseractMsg.GetTesseract`. -/
def TesseractMsg.getTesseract (D : Decoder) (m : TesseractMsg) : Except Err Tesseract :=
  match D.tesseract m.rawTesseract with
  | .error e => .error e
  | .ok ts => .ok { ts with commitInfo := m.commitInfo }

/-- The fields of `type TesseractSyncMsg struct` that `GetTesseract` reads. -/
structure TesseractSyncMsg where
  rawTesseract : Bytes
  ixns : Option Bytes
  receipts : Option Bytes
  commitInfo : Bytes

/-- `new(CommitInfo)`. -/
def CommitInfo.zero : CommitInfo := ⟨none, [], [], 0, [], 0⟩

/-- `TesseractSyncMsg.GetTesseract`. -/
def TesseractSyncMsg.getTesseract (D : Decoder) (tm : TesseractSyncMsg) :
    Except Err Tesseract := do
  let ts ← D.tesseract tm.rawTesseract
  if !ts.interactionsHash.isNil then
    if let some e := tm.ixns.bind D.interactions then throw e
  if !ts.receiptsHash.isNil then
    if let some e := tm.receipts.bind D.receipts then throw e
  if ts.consensusInfo.view ≠ genesisView then do
    let info ← D.commitInfo tm.commitInfo
    pure { ts with commitInfo := some info }
  else pure { ts with commitInfo := some CommitInfo.zero }

/-! ## 4. What the certificate is over -/

namespace Node

/-- The same node with another signature verifier. -/
def withVerifier (N : Node) (V : Bytes → Bytes → List Bytes → Bool × Option Err) : Node :=
  { N with signatureVerifier := V }

/-- Whatever the signature verifier is: if the tesseract is accepted on its verdict `true`, the
    verifier has accepted a PRECOMMIT over the tesseract's own hash. -/
def CertificateBound (N : Node) (id : Identifier) (ts : Tesseract) (ics : ICSCommittee)
    (allParticipants : Bool) : Prop :=
  ∀ V, (N.withVerifier V).validateTesseract id ts ics allParticipants = .ok none →
    (N.withVerifier V).verifySignatures ts ics = .ok (true, none) →
    ∃ info qc publicKeys hash raw, ts.commitInfo = some info ∧ info.qc = some qc ∧
      ics.quorumStage qc.signerIndices = .ok (.ok publicKeys) ∧ ts.hash N.codec = .ok hash ∧
      CanonicalVote.bytes N.codec ⟨PRECOMMIT, info.view, hash⟩ = .ok raw ∧
      V raw qc.signature publicKeys = (true, none)

/-- The check gets as far as the signature of the certificate. -/
def SignatureReached (N : Node) (id : Identifier) (ts : Tesseract) (ics : ICSCommittee)
    (allParticipants : Bool) : Prop :=
  ¬ N.AlreadyKnown id ts allParticipants ∧ (∃ e, N.isSealValid ts = .ok (true, e)) ∧
    N.verifyTransitions id ts allParticipants = none ∧
    ∃ info qc publicKeys raw, ts.commitInfo = some info ∧ info.qc = some qc ∧
      ics.quorumStage qc.signerIndices = .ok (.ok publicKeys) ∧
      (qc.canonical info.view).bytes N.codec = .ok raw

/-- The attached certificate calls itself a PRECOMMIT over the tesseract's hash. -/
def NamesOwnPrecommit (N : Node) (ts : Tesseract) : Prop :=
  ∃ info qc, ts.commitInfo = some info ∧ info.qc = some qc ∧ qc.type = PRECOMMIT ∧
    ts.hash N.codec = .ok qc.tsHash

/-- Encoded votes are read back uniquely. -/
def VotesInjective (C : Codec) : Prop :=
  ∀ (v v' : CanonicalVote) (raw : Bytes), v.bytes C = .ok raw → v'.bytes C = .ok raw → v = v'

/-- An accepted tesseract passed the seal and the transitions. -/
theorem validateTesseract_none {N : Node} {id : Identifier} {ts : Tesseract} {ics : ICSCommittee}
    {allParticipants : Bool} (h : N.validateTesseract id ts ics allParticipants = .ok none) :
    ¬ N.AlreadyKnown id ts allParticipants ∧ (∃ e, N.isSealValid ts = .ok (true, e)) ∧
      N.verifyTransitions id ts allParticipants = none := by
  have hk : ¬ N.AlreadyKnown id ts allParticipants := fun hk => by
    rw [validateTesseract_known ics hk] at h
    cases h
  rw [validateTesseract_unknown ics hk, Go.bind_eq_ok] at h
  obtain ⟨⟨validSeal, e⟩, hseal, h⟩ := h
  rcases validSeal with _ | _
  · cases h
  refine ⟨hk, ⟨e, hseal⟩, ?_⟩
  rcases htrans : N.verifyTransitions id ts allParticipants with _ | _
  · rfl
  simp only [htrans] at h
  cases h

/-- **When an accepted certificate is bound to its tesseract**: exactly if the check never reaches
    the signature, or the sender attached a certificate that names the tesseract's hash and the
    PRECOMMIT phase. Nothing in the check compares either. -/
theorem certificateBound_iff (N : Node) (id : Identifier) (ts : Tesseract) (ics : ICSCommittee)
    (allParticipants : Bool) (hinj : VotesInjective N.codec) :
    N.CertificateBound id ts ics allParticipants ↔
      (¬ N.SignatureReached id ts ics allParticipants ∨ N.NamesOwnPrecommit ts) := by
  constructor
  · intro hbound
    by_cases hreached : N.SignatureReached id ts ics allParticipants
    · right
      obtain ⟨hk, ⟨e, hseal⟩, htrans, info, qc, keys, raw, hinfo, hqc, hstage, hraw⟩ := hreached
      -- the verifier that accepts these bytes only
      let V : Bytes → Bytes → List Bytes → Bool × Option Err :=
        fun r _ _ => (decide (r = raw), none)
      have hanswer : (N.withVerifier V).Answered ts ics true :=
        ⟨info, qc, keys, raw, hinfo, hqc, hstage, hraw, by simp [withVerifier, V]⟩
      have hver := hanswer.returned
      have haccept : (N.withVerifier V).validateTesseract id ts ics allParticipants = .ok none := by
        have hsealed := validateTesseract_sealed (N := N.withVerifier V) ics hk hseal htrans
        rw [hsealed, hver]
        rfl
      obtain ⟨info', qc', _, _, raw', hinfo', hqc', _, hhash, hraw', hV⟩ :=
        hbound _ haccept hver
      rw [hinfo, Option.some.injEq] at hinfo'
      subst hinfo'
      have hbytes : raw' = raw := by simpa [V] using hV
      subst hbytes
      have hvote := hinj _ _ _ hraw hraw'
      simp only [Qc.canonical, CanonicalVote.mk.injEq, true_and] at hvote
      exact ⟨info, qc, hinfo, hqc, hvote.1, by rw [hhash, hvote.2]⟩
    · exact .inl hreached
  · rintro (hnot | ⟨info, qc, hinfo, hqc, htype, hhash⟩) V haccept hver
    · obtain ⟨info, qc, keys, raw, hinfo, hqc, hstage, hraw, _⟩ := verifySignatures_true hver
      obtain ⟨hk, hseal, htrans⟩ := validateTesseract_none haccept
      exact absurd ⟨hk, hseal, htrans, info, qc, keys, raw, hinfo, hqc, hstage, hraw⟩ hnot
    · obtain ⟨_, _, keys, raw, hinfo', hqc', hstage, hraw, hV⟩ := verifySignatures_true hver
      rw [hinfo, Option.some.injEq] at hinfo'
      subst hinfo'
      rw [hqc, Option.some.injEq] at hqc'
      subst hqc'
      refine ⟨info, qc, keys, qc.tsHash, raw, hinfo, hqc, hstage, hhash, ?_, hV⟩
      rw [← htype]
      exact hraw

end Node

namespace Sample

theorem codec_injective : Node.VotesInjective codec := by
  -- both votes that encode are found by their bytes
  have hread : ∀ v raw, v.bytes codec = .ok raw →
      (v = precommit ∧ raw = [3]) ∨ (v = foreignPrevote ∧ raw = [2]) := by
    intro v raw h
    by_cases h1 : v = precommit
    · refine .inl ⟨h1, ?_⟩
      subst h1
      cases h
      rfl
    by_cases h2 : v = foreignPrevote
    · refine .inr ⟨h2, ?_⟩
      subst h2
      cases h
      rfl
    · simp [CanonicalVote.bytes, codec, h1, h2] at h
  intro v v' raw h h'
  rcases hread v raw h with ⟨rfl, rfl⟩ | ⟨rfl, rfl⟩
  · rcases hread v' _ h' with ⟨rfl, _⟩ | ⟨_, hraw⟩
    · rfl
    · cases hraw
  · rcases hread v' _ h' with ⟨_, hraw⟩ | ⟨rfl, _⟩
    · cases hraw
    · rfl

/-- A decoder that reads every message as the tesseract above. -/
def decoder : Decoder where
  tesseract _ := .ok (tesseract none)
  commitInfo _ := .ok (commitInfo foreignPrevote)
  interactions _ := none
  receipts _ := none

end Sample

/-- A message with a PREVOTE certificate over another hash, valid for the bytes of that vote only,
    makes the node accept the tesseract, in the execution phase and when it syncs an account; the
    certificate is not bound to it. -/
theorem accepts_foreign_prevote :
    ∃ (N : Node) (D : Decoder) (m : TesseractMsg) (tm : TesseractSyncMsg) (ts : Tesseract)
      (ics : ICSCommittee),
      m.getTesseract D = .ok ts ∧ tm.getTesseract D = .ok ts ∧
        N.validateTesseract nilIdentifier ts ics true = .ok none ∧
        N.validateTesseract ⟨2⟩ ts ics false = .ok none ∧
        N.verifySignatures ts ics = .ok (true, none) ∧ ¬ N.NamesOwnPrecommit ts ∧
        ¬ N.CertificateBound nilIdentifier ts ics true := by
  refine ⟨node fun _ _ data => data = [2], decoder,
    ⟨[], some (commitInfo foreignPrevote)⟩, ⟨[], none, none, []⟩,
    tesseract (some (commitInfo foreignPrevote)), committee,
    rfl, rfl, rfl, rfl, rfl, ?_, fun h => ?_⟩
  · rintro ⟨info, qc, hinfo, hqc, htype, _⟩
    cases hinfo
    cases hqc
    exact absurd htype (by decide)
  obtain ⟨_, _, _, _, _, hinfo, _, _, hhash, hraw, hV⟩ :=
    h (node fun _ _ data => data = [2]).signatureVerifier rfl rfl
  cases hinfo
  cases hhash
  cases hraw
  -- the bytes of the PRECOMMIT are not those the certificate is valid for
  have hpair := (Crypto.verifyAggregateSignature_true _ (congrArg Prod.fst hV)).1
  simp [prims] at hpair

/-- The condition at a tesseract that came with its own PRECOMMIT certificate. -/
theorem certificateBound_own_precommit :
    (node fun _ _ _ => true).CertificateBound nilIdentifier
      (tesseract (some (commitInfo precommit))) committee true :=
  (Node.certificateBound_iff (node fun _ _ _ => true) nilIdentifier
    (tesseract (some (commitInfo precommit))) committee true
    codec_injective).mpr (.inr ⟨_, _, rfl, rfl, rfl, rfl⟩)

end GoMoi
