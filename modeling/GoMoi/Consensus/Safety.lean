/-
  File:      GoMoi/Consensus/Safety.lean
  Subject:   The safety data a validator keeps for each account (`consensus/safety/safety.go`,
             `SafetyData` of `consensus/types/consensus.go`), and how certificates learnt from peers
             get into it (`validateQcAndUpdateSafety` of `consensus/ics_handler.go`).

  The safety data of an account lists certificates; the view of the last one is the view the
  validator reports for the account. `UpdateSafetyInfo` enters one certificate for every account
  that a tesseract locks.

  * `getTS`, `learnQc`, `validateQcAndUpdateSafety` -- a certificate from a peer is entered if its
    view passes that of ONE account, the one the peer reports on.

  The entries are bytes and the encoding is a parameter. What the data base, the caches and the
  peers answer is given for each call (`Answers`): reads and writes may fail at any of them.
-/
import GoMoi.Consensus.Kbft
import GoMoi.Consensus.ValidateTesseract
import GoMoi.Consensus.Participants

namespace GoMoi

/-! ## 1. Safety data -/

/-- `type SafetyData struct`. -/
structure SafetyData where
  qc : List (Option Qc)
  tsHashes : List Hash
  proposalTSHash : Hash
  deriving DecidableEq, Repr

namespace SafetyData

/-- `sd.Qc[len(sd.Qc)-1]`, read through. -/
def lastQc (sd : SafetyData) : Go Qc := do
  let qc ← sliceAt sd.qc ((sd.qc.length : Int) - 1)
  Go.deref qc

/-- `LastView`. -/
def lastView (sd : SafetyData) : Go UInt64 := do
  let qc ← sd.lastQc
  pure qc.view

/-- The end of `UpdateQc`. -/
def append (sd : SafetyData) (qc : Qc) : SafetyData :=
  { sd with qc := sd.qc ++ [some qc], tsHashes := sd.tsHashes ++ [qc.tsHash] }

/-- `UpdateQc`. -/
def updateQc (sd : SafetyData) (qc : Qc) : Go SafetyData :=
  if sd.qc = [] then pure (sd.append qc)
  else do
    let last ← sd.lastQc
    if last.view < qc.view then pure { sd with qc := [some qc], tsHashes := [qc.tsHash] }
    else if last.view = qc.view ∧ last.type = PREVOTE then
      pure { sd with qc := sd.qc.dropLast ++ [some qc] }
    else pure (sd.append qc)

/-- The view of a certificate at the end. -/
theorem lastView_snoc {sd : SafetyData} {l : List (Option Qc)} {qc : Qc}
    (h : sd.qc = l ++ [some qc]) : sd.lastView = .ok qc.view := by
  have hget : sd.qc[l.length]? = some (some qc) := by simp [h]
  have hlast : ((sd.qc.length : Int) - 1) = (l.length : Nat) := by
    rw [h, List.length_append, List.length_singleton]
    omega
  rw [lastView, lastQc, hlast, sliceAt_natCast hget]
  rfl

/-- **The certificate entered last is the last one, whatever its view.** -/
theorem lastView_updateQc {sd sd' : SafetyData} {qc : Qc} (h : sd.updateQc qc = .ok sd') :
    sd'.lastView = .ok qc.view := by
  unfold updateQc at h
  split at h
  · cases h
    exact lastView_snoc rfl
  rw [Go.bind_eq_ok] at h
  obtain ⟨_, _, h⟩ := h
  split at h
  · cases h
    exact lastView_snoc (List.nil_append _).symm
  split at h
  · cases h
    exact lastView_snoc rfl
  · cases h
    exact lastView_snoc rfl

end SafetyData

/-! ## 2. The store -/

/-- The encodings of the store; that of a proposal is `NewProposalInfo` with its tesseract. -/
structure SafetyCodec where
  polorize : SafetyData → Except Err Bytes
  depolorize : Bytes → Except Err SafetyData
  polorizeProposal : Tesseract → Except Err Bytes
  depolorizeProposal : Bytes → Except Err Tesseract

namespace SafetyCodec

/-- `SafetyData.Bytes`. -/
def bytes (E : SafetyCodec) (sd : SafetyData) : Except Err Bytes :=
  match E.polorize sd with
  | .error e => .error (.wrap e "failed to polorize safety data")
  | .ok raw => .ok raw

/-- `SafetyData.FromBytes`. -/
def fromBytes (E : SafetyCodec) (raw : Bytes) : Except Err SafetyData :=
  match E.depolorize raw with
  | .error e => .error (.wrap e "failed to depolorize safety data")
  | .ok sd => .ok sd

/-- What is encoded can be decoded. -/
def Lawful (E : SafetyCodec) : Prop := ∀ sd raw, E.polorize sd = .ok raw → E.depolorize raw = .ok sd

end SafetyCodec

/-- The entries of the data base that the store reads and writes. -/
structure SafetyDB where
  safetyData : GoMap Identifier Bytes
  proposalInfo : GoMap Hash Bytes

namespace SafetyDB

/-- `SetSafetyData`. -/
def setSafetyData (s : SafetyDB) (id : Identifier) (raw : Bytes) : SafetyDB :=
  { s with safetyData := s.safetyData.insert id raw }

/-- `SetConsensusProposalInfo`. -/
def setConsensusProposalInfo (s : SafetyDB) (tsHash : Hash) (raw : Bytes) : SafetyDB :=
  { s with proposalInfo := s.proposalInfo.insert tsHash raw }

end SafetyDB

/-- What is fixed for an engine. -/
structure SafetyEnv where
  node : Node
  codec : SafetyCodec
  /-- the field `FetchICSCommittee` -/
  fetchICSCommittee : Tesseract → Option CommitInfo → Go (Except Err ICSCommittee)

/-- What the other components answer during a call. -/
structure Answers where
  /-- why an entry cannot be read or written, if so -/
  readSafety : Identifier → Option Err
  writeSafety : Identifier → Option Err
  readProposal : Hash → Option Err
  writeProposal : Hash → Option Err
  getAccountMetaInfo : Identifier → Except Err AccountMetaInfo
  /-- `GetCommitInfo`, decoded -/
  getCommitInfo : Hash → Except Err CommitInfo
  /-- `lattice.GetTesseract` -/
  getTesseract : Hash → Except Err Tesseract
  /-- `getLockedTSFromCache` -/
  lockedTS : Hash → Option Tesseract
  rpcGetLockedTesseract : KramaID → Hash → Except Err (Option Tesseract)

namespace ConsensusSafety

open Proc

section

variable (K : SafetyEnv) (a : Answers)

/-- `getSafetyData`. -/
def getSafetyData (id : Identifier) : Proc SafetyDB (Except Err SafetyData) := do
  let s ← self
  pure (match a.readSafety id, s.safetyData.lookup id with
    | some e, _ => .error e
    | none, none => .error (.sentinel .errKeyNotFound)
    | none, some raw => K.codec.fromBytes raw)

/-- `setSafetyData`. -/
def setSafetyData (id : Identifier) (data : SafetyData) : Proc SafetyDB (Option Err) :=
  match K.codec.bytes data with
  | .error e => pure (some e)
  | .ok raw =>
    match a.writeSafety id with
    | some e => pure (some e)
    | none => do
      assign (·.setSafetyData id raw)
      pure none

/-- The certificate entered for one account. An entry that cannot be read is replaced. -/
def updateLock (qc : Qc) (tsHash : Hash) (id : Identifier) : Proc SafetyDB (Option Err) := do
  match ← getSafetyData K a id with
  | .error _ => setSafetyData K a id ⟨[some qc], [qc.tsHash], tsHash⟩
  | .ok safetyInfo => do
    let safetyInfo ← ofGo (safetyInfo.updateQc qc)
    setSafetyData K a id safetyInfo

/-- The loop of `UpdateSafetyInfo`, in the order of one iteration over the locks. -/
def updateLocks (qc : Qc) (tsHash : Hash) : List (Σ _ : Identifier, LockType) →
    Proc SafetyDB (Option Err)
  | [] => pure none
  | e :: rest =>
    if e.2 = noLock then updateLocks qc tsHash rest
    else do
      match ← updateLock K a qc tsHash e.1 with
      | some err => pure (some err)
      | none => updateLocks qc tsHash rest

/-- The proposal stored with a PREVOTE certificate. -/
def storeProposal (ts : Tesseract) (tsHash : Hash) : Proc SafetyDB (Option Err) :=
  match K.codec.polorizeProposal ts with
  | .error e => pure (some e)
  | .ok rawInfo =>
    match a.writeProposal tsHash with
    | some e => pure (some e)
    | none => do
      assign (·.setConsensusProposalInfo tsHash rawInfo)
      pure none

/-- `UpdateSafetyInfo`. -/
def updateSafetyInfo (p : Proposal) (qc : Qc) : Proc SafetyDB (Option Err) := do
  let ts ← ofGo (Go.deref p.tesseract)
  let tsHash ← ofGo (ts.hash K.node.codec)
  match ← updateLocks K a qc tsHash ts.consensusInfo.accountLocks.entries with
  | some e => pure (some e)
  | none => if qc.type = PREVOTE then storeProposal K a ts tsHash else pure none

/-- `GetLatestSafetyInfo`: without an entry, the commit certificate of the account. -/
def getLatestSafetyInfo (id : Identifier) : Proc SafetyDB (Except Err SafetyData) :=
  match a.getAccountMetaInfo id with
  | .error e => pure (.error e)
  | .ok metaInfo => do
    match ← getSafetyData K a metaInfo.id with
    | .ok info => pure (.ok info)
    | .error err =>
      if err.is .errKeyNotFound then
        pure (match a.getCommitInfo metaInfo.tesseractHash with
          | .error e => .error e
          | .ok commitInfo => .ok ⟨[commitInfo.qc], [metaInfo.tesseractHash], nilHash⟩)
      else pure (.error err)

/-- `GetTesseract` of the store. -/
def getTesseract (tsHash : Hash) : Proc SafetyDB (Except Err Tesseract) := do
  let s ← self
  pure (match a.readProposal tsHash, s.proposalInfo.lookup tsHash with
    | some e, _ => .error e
    | none, none => .error (.sentinel .errKeyNotFound)
    | none, some rawInfo => K.codec.depolorizeProposal rawInfo)

/-! ## 3. Certificates from peers -/

/-- `sendSyncRequests` for one tesseract: is a request sent? -/
def sendSyncRequests (ts : Tesseract) (msgType : ConsensusMsgType) : Bool :=
  ts.participants.entries.any fun e =>
    match a.getAccountMetaInfo e.1 with
    | .error _ => decide (msgType = PRECOMMIT ∨ (msgType = PREVOTE ∧ 1 ≤ e.2.height))
    | .ok accMetaInfo => decide ¬ (e.2.height ≤ accMetaInfo.height ∨
        (msgType = PREVOTE ∧ e.2.height - accMetaInfo.height ≤ 1))

/-- `getTS`: the tesseract, and whether it is new to the store. A peer need not send one. -/
def getTS (msgType : ConsensusMsgType) (tsHash : Hash) (kramaID : KramaID) (isProposal : Bool) :
    Proc SafetyDB (Except Err (Option Tesseract × Bool)) :=
  match a.getTesseract tsHash with
  | .ok ts => pure (.ok (some ts, false))
  | .error _ => do
    match ← getTesseract K a tsHash with
    | .ok ts => pure (.ok (some ts, false))
    | .error _ =>
      match a.lockedTS tsHash with
      | some ts => pure (.ok (some ts, true))
      | none =>
        if !isProposal then pure (.error (.new "ts not found"))
        else match a.rpcGetLockedTesseract kramaID tsHash with
          | .error e => pure (.error e)
          | .ok none => pure (.ok (none, false))
          | .ok (some ts) => do
            -- `addLockedTS` hashes the tesseract
            let _ ← ofGo (ts.hash K.node.codec)
            if sendSyncRequests a ts msgType then
              pure (.error (.sentinel .errSyncRequestSent))
            else pure (.ok (some ts, true))

/-- `type ViewInfo struct`, as far as it is read. -/
structure ViewInfo where
  id : Identifier
  qc : List (Option Qc)

/-- The guard before `UpdateSafetyInfo`: an error, or whether the certificate is to be entered. It
    looks at the account `id` only. -/
def isNewer (id : Identifier) (accMetaInfo : Option AccountMetaInfo) (ts : Tesseract) (qc : Qc) :
    Proc SafetyDB (Except Err Bool) :=
  match accMetaInfo with
  | none => pure (.ok true)
  | some accMetaInfo =>
    if ts.height id ≤ accMetaInfo.height then pure (.ok false)
    else do
      match ← getLatestSafetyInfo K a id with
      | .error e => pure (.error e)
      | .ok localSafetyInfo => do
        let lastView ← ofGo localSafetyInfo.lastView
        pure (.ok (decide ¬ qc.view ≤ lastView))

/-- One round of `validateQcAndUpdateSafety`. -/
def learnQc (id : Identifier) (accMetaInfo : Option AccountMetaInfo) (peerID : KramaID)
    (isProposal : Bool) (qc : Option Qc) : Proc SafetyDB (Option Err) := do
  let qc ← ofGo (Go.deref qc)
  if qc.view = genesisView then pure none
  else do
    match ← getTS K a qc.type qc.tsHash peerID isProposal with
    | .error e => pure (some e)
    | .ok (ts, shouldStore) => do
      let ts ← ofGo (Go.deref ts)
      match ← ofGo (K.fetchICSCommittee ts ts.commitInfo) with
      | .error e => pure (some e)
      | .ok ics => do
        let (isVerified, err) ← ofGo (K.node.verifyQc qc.view ics (some qc))
        if err.isSome then pure (GoError.wrapErr err "failed to verify QC")
        else if !isVerified then pure (some (.sentinel .errSignatureVerificationFailed))
        else if !shouldStore || qc.type ≠ PREVOTE then pure none
        else do
          match ← isNewer K a id accMetaInfo ts qc with
          | .error e => pure (some e)
          | .ok false => pure none
          | .ok true => updateSafetyInfo K a ⟨none, some ts⟩ qc

end

section

variable (K : SafetyEnv)

/-- The loop of `validateQcAndUpdateSafety`; each round has its own answers. -/
def validateQcs (id : Identifier) (accMetaInfo : Option AccountMetaInfo) (peerID : KramaID)
    (isProposal : Bool) : (Nat → Answers) → List (Option Qc) → Proc SafetyDB (Option Err)
  | _, [] => pure none
  | answers, qc :: rest => do
    match ← learnQc K (answers 0) id accMetaInfo peerID isProposal qc with
    | some e => pure (some e)
    | none => validateQcs id accMetaInfo peerID isProposal (fun i => answers (i + 1)) rest

/-- `validateQcAndUpdateSafety`. -/
def validateQcAndUpdateSafety (answers : Nat → Answers) (remote : ViewInfo) (peerID : KramaID)
    (isProposal : Bool) : Proc SafetyDB (Option Err) :=
  validateQcs K remote.id ((answers 0).getAccountMetaInfo remote.id).toOption peerID isProposal
    answers remote.qc

end

end ConsensusSafety

end GoMoi
