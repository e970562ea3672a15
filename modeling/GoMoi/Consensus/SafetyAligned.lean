/-
  File:      GoMoi/Consensus/SafetyAligned.lean
  Subject:   The three fields of an account's safety data over the calls of `UpdateSafetyInfo` and
             `DeleteLockedTSInfo` (`consensus/krama_engine.go`).

  `Qc` and `TSHashes` are parallel lists, and `ProposalTSHash` names the proposal whose copy is to
  be deleted with the safety data. `UpdateQc` edits the first two; the replace branch forgets the
  second, and the third is written only when the entry is made.

  * `deleteLockedTSInfo` -- the deletion after a round, and the one from the syncer, which goes by
    `ProposalTSHash`;
  * `Relocks` -- a call enters a certificate for its own proposal, and no other proposal is stored
    for an account it locks;
  * **`aligned_run`** -- in a run whose calls all meet `Relocks` the store stays aligned, and the
    syncer's deletion removes exactly the latest locked proposals;
  * `second_proposal_orphaned` -- a second proposal, locked in a later view: the hash of the first
    one stays, and the deletion leaves the second one behind.
-/
import GoMoi.Consensus.SafetyRuns

namespace GoMoi

open List AList

namespace SafetyDB

/-- `DeleteSafetyData`. -/
def deleteSafetyData (s : SafetyDB) (id : Identifier) : SafetyDB :=
  { s with safetyData := s.safetyData.erase id }

/-- `DeleteConsensusProposalInfo`. -/
def deleteConsensusProposalInfo (s : SafetyDB) (tsHash : Hash) : SafetyDB :=
  { s with proposalInfo := s.proposalInfo.erase tsHash }

end SafetyDB

/-- What the data base answers to deletions, besides the rest. -/
structure DeleteAnswers extends Answers where
  deleteSafety : Identifier → Option Err
  deleteProposal : Hash → Option Err

namespace ConsensusSafety

open Proc

/-! ## 1. Deletion -/

section

variable (K : SafetyEnv) (a : DeleteAnswers)

/-- `DeleteSafetyData`. -/
def deleteSafetyData (id : Identifier) : Proc SafetyDB (Option Err) :=
  match a.deleteSafety id with
  | some e => pure (some e)
  | none => do
    assign (·.deleteSafetyData id)
    pure none

/-- `DeleteConsensusProposalInfo`. -/
def deleteConsensusProposalInfo (tsHash : Hash) : Proc SafetyDB (Option Err) :=
  match a.deleteProposal tsHash with
  | some e => pure (some e)
  | none => do
    assign (·.deleteConsensusProposalInfo tsHash)
    pure none

/-- The loop of `DeleteLockedTSInfo` after a round. Errors are logged. -/
def deleteParticipants : List Identifier → Proc SafetyDB Unit
  | [] => pure ()
  | id :: rest => do
    let _ ← deleteSafetyData a id
    deleteParticipants rest

/-- The round of the syncer's loop for an account whose safety data could be read, with the hashes
    deleted so far. -/
def deleteLocked (id : Identifier) (data : SafetyData) (deletedTSHash : GoMap Hash Unit) :
    Proc SafetyDB (GoMap Hash Unit) := do
  let _ ← deleteSafetyData a id
  if data.proposalTSHash ∈ deletedTSHash then pure deletedTSHash
  else do
    let _ ← deleteConsensusProposalInfo a data.proposalTSHash
    pure (deletedTSHash.insert data.proposalTSHash ())

/-- The loop of `DeleteLockedTSInfo` from the syncer. -/
def deleteSynced : List Identifier → GoMap Hash Unit → Proc SafetyDB Unit
  | [], _ => pure ()
  | id :: rest, deletedTSHash => do
    match ← getLatestSafetyInfo K a.toAnswers id with
    | .error _ => deleteSynced rest deletedTSHash
    | .ok data => do
      let deletedTSHash ← deleteLocked a id data deletedTSHash
      deleteSynced rest deletedTSHash

/-- `DeleteLockedTSInfo`. -/
def deleteLockedTSInfo (ts : Tesseract) (fromSyncer : Bool) : Proc SafetyDB Unit := do
  let tsHash ← ofGo (ts.hash K.node.codec)
  let _ ← deleteConsensusProposalInfo a tsHash
  if !fromSyncer then deleteParticipants a ts.participants.keys
  else deleteSynced K a ts.participants.keys ∅

end

end ConsensusSafety

/-! ## 2. What the fields should say -/

namespace SafetyData

/-- The hashes are those of the certificates, and the proposal is the one certified last. -/
def Aligned (sd : SafetyData) : Prop :=
  ∃ (earlier : List Qc) (last : Qc), sd.qc = (earlier ++ [last]).map some ∧
    sd.tsHashes = (earlier ++ [last]).map (·.tsHash) ∧ sd.proposalTSHash = last.tsHash

variable {sd : SafetyData}

theorem lastQc_snoc {earlier : List Qc} {last : Qc} (h : sd.qc = (earlier ++ [last]).map some) :
    sd.lastQc = .ok last := by
  have hget : sd.qc[earlier.length]? = some (some last) := by simp [h]
  have hlast : ((sd.qc.length : Int) - 1) = (earlier.length : Nat) := by
    rw [h, length_map, length_append, length_singleton]
    omega
  rw [lastQc, hlast, sliceAt_natCast hget]
  rfl

theorem Aligned.locked (h : sd.Aligned) :
    sd.lastQc.toOption.map (·.tsHash) = some sd.proposalTSHash := by
  obtain ⟨_, _, hqc, _, hproposal⟩ := h
  rw [lastQc_snoc hqc, hproposal]
  rfl

/-- **A further certificate for the stored proposal keeps the fields aligned.** -/
theorem Aligned.updateQc {sd' : SafetyData} {qc : Qc} (ha : sd.Aligned)
    (hsame : sd.proposalTSHash = qc.tsHash) (h : sd.updateQc qc = .ok sd') :
    sd'.Aligned ∧ sd'.proposalTSHash = qc.tsHash := by
  obtain ⟨earlier, last, hqc, hhashes, hproposal⟩ := ha
  have hlast : last.tsHash = qc.tsHash := hproposal.symm.trans hsame
  have hne : sd.qc ≠ [] := by simp [hqc]
  rw [SafetyData.updateQc, if_neg hne, lastQc_snoc hqc] at h
  simp only [Go.bind_eq_ok, Except.ok.injEq] at h
  obtain ⟨_, rfl, h⟩ := h
  split at h
  · cases h
    exact ⟨⟨[], qc, rfl, rfl, hsame⟩, hsame⟩
  split at h
  · -- the hash of the replaced certificate stays, which is the same one
    cases h
    refine ⟨⟨earlier, qc, ?_, ?_, hsame⟩, hsame⟩
    · simp [hqc]
    · simp [hhashes, hlast]
  cases h
  refine ⟨⟨earlier ++ [last], qc, ?_, ?_, hsame⟩, hsame⟩
  · simp [SafetyData.append, hqc]
  · simp [SafetyData.append, hhashes]

end SafetyData

namespace ConsensusSafety

open Proc

/-- The safety data stored for an account, if its entry can be decoded. -/
def dataOf (E : SafetyCodec) (s : SafetyDB) (id : Identifier) : Option SafetyData :=
  match s.safetyData.lookup id with
  | none => none
  | some raw => (E.depolorize raw).toOption

/-- The proposal that was locked last for an account: the one its last certificate is for. -/
def lockedProposal (E : SafetyCodec) (s : SafetyDB) (id : Identifier) : Option Hash :=
  (dataOf E s id).bind fun sd => sd.lastQc.toOption.map (·.tsHash)

/-- Every entry can be decoded, and the data meet `P`. -/
def AllStored (E : SafetyCodec) (P : SafetyData → Prop) (s : SafetyDB) : Prop :=
  ∀ id, id ∈ s.safetyData → ∃ sd, dataOf E s id = some sd ∧ P sd

/-- Every entry can be decoded, and its fields are aligned. -/
def AlignedStore (E : SafetyCodec) (s : SafetyDB) : Prop := AllStored E SafetyData.Aligned s

section

variable {E : SafetyCodec} {P : SafetyData → Prop} {s s' : SafetyDB} {id id' : Identifier}
  {sd : SafetyData}

theorem dataOf_mem (h : dataOf E s id = some sd) : id ∈ s.safetyData := by
  unfold dataOf at h
  split at h
  · cases h
  · rename_i raw hraw
    exact lookup_isSome.mp (by rw [hraw]; rfl)

variable {raw : Bytes}

theorem dataOf_set (hraw : E.depolorize raw = .ok sd) :
    dataOf E (s.setSafetyData id raw) id = some sd := by
  simp [dataOf, SafetyDB.setSafetyData, hraw, Except.toOption]

theorem dataOf_set_ne (hne : id' ≠ id) :
    dataOf E (s.setSafetyData id raw) id' = dataOf E s id' := by
  simp [dataOf, SafetyDB.setSafetyData, lookup_insert_ne hne]

theorem dataOf_delete_ne (hne : id' ≠ id) :
    dataOf E (s.deleteSafetyData id) id' = dataOf E s id' := by
  simp [dataOf, SafetyDB.deleteSafetyData, lookup_erase_ne hne]

namespace AllStored

theorem get (h : AllStored E P s) (hsd : dataOf E s id = some sd) : P sd := by
  obtain ⟨_, hsd', hp⟩ := h id (dataOf_mem hsd)
  cases hsd.symm.trans hsd'
  exact hp

theorem set {raw : Bytes} (h : AllStored E P s) (hraw : E.depolorize raw = .ok sd) (hp : P sd) :
    AllStored E P (s.setSafetyData id raw) := by
  intro id' hmem
  by_cases hid : id' = id
  · rw [hid]
    exact ⟨sd, dataOf_set hraw, hp⟩
  rw [dataOf_set_ne hid]
  rcases mem_insert _ |>.mp hmem with heq | hmem
  · exact absurd heq hid
  · exact h id' hmem

theorem delete (h : AllStored E P s) : AllStored E P (s.deleteSafetyData id) := by
  intro id' hmem
  obtain ⟨hne, hmem⟩ := mem_erase.mp hmem
  rw [dataOf_delete_ne hne]
  exact h id' hmem

/-- The proposals do not matter. -/
theorem congr (h : AllStored E P s) (heq : s'.safetyData = s.safetyData) : AllStored E P s' := by
  intro id hmem
  rw [heq] at hmem
  obtain ⟨sd, hsd, hp⟩ := h id hmem
  exact ⟨sd, by rw [← hsd, dataOf, dataOf, heq], hp⟩

end AllStored

/-- The fields agree on the proposal that was locked last. -/
theorem AlignedStore.locked (h : AlignedStore E s) :
    lockedProposal E s id = (dataOf E s id).map (·.proposalTSHash) := by
  unfold lockedProposal
  cases hsd : dataOf E s id with
  | none => rfl
  | some sd => exact (AllStored.get h hsd).locked

end

/-! ## 3. One call of `UpdateSafetyInfo` -/

variable {K : SafetyEnv} {s : SafetyDB}

/-- The entries of the accounts that a tesseract locks meet `C`. -/
def LocksMeet (E : SafetyCodec) (C : SafetyData → Prop) (s : SafetyDB)
    (locks : List (Σ _ : Identifier, LockType)) : Prop :=
  ∀ e ∈ locks, e.2 ≠ noLock → ∀ sd, dataOf E s e.1 = some sd → C sd

/-- Of data that meet `P` and `C` the certificate makes such data, and so it does of none. -/
structure Admits (P C : SafetyData → Prop) (qc : Qc) (tsHash : Hash) : Prop where
  fresh : P ⟨[some qc], [qc.tsHash], tsHash⟩ ∧ C ⟨[some qc], [qc.tsHash], tsHash⟩
  update : ∀ sd sd', P sd → C sd → sd.updateQc qc = .ok sd' → P sd' ∧ C sd'

section

variable {a : Answers} {qc : Qc} {id : Identifier} {tsHash : Hash} {P C : SafetyData → Prop}
  {s' : SafetyDB} {E : SafetyCodec}

theorem Writes.allStored (h : Writes E (fun sd => P sd ∧ C sd) id s s') (ha : AllStored E P s) :
    AllStored E P s' := by
  rcases h with rfl | ⟨_, _, hraw, hp, rfl⟩
  · exact ha
  · exact ha.set hraw hp.1

theorem Writes.locksMeet {locks : List (Σ _ : Identifier, LockType)}
    (h : Writes E (fun sd => P sd ∧ C sd) id s s') (hs : LocksMeet E C s locks) :
    LocksMeet E C s' locks := by
  rcases h with rfl | ⟨_, _, hraw, hp, rfl⟩
  · exact hs
  intro e he hlock sd' hsd'
  by_cases hid : e.1 = id
  · rw [hid, dataOf_set hraw] at hsd'
    cases hsd'
    exact hp.2
  · rw [dataOf_set_ne hid] at hsd'
    exact hs e he hlock sd' hsd'

/-- What `getSafetyData` returns is stored. -/
theorem fromBytes_dataOf {raw : Bytes} {sd : SafetyData} (hlook : s.safetyData.lookup id = some raw)
    (h : K.codec.fromBytes raw = .ok sd) : dataOf K.codec s id = some sd := by
  unfold SafetyCodec.fromBytes at h
  split at h
  · cases h
  · rename_i sd' hsd'
    cases h
    simp [dataOf, hlook, hsd', Except.toOption]

/-- **One account.** -/
theorem updateLock_writes (hlaw : K.codec.Lawful) (hadmits : Admits P C qc tsHash)
    (ha : AllStored K.codec P s) (hc : ∀ sd, dataOf K.codec s id = some sd → C sd) :
    wp (updateLock K a qc tsHash id) (fun _ => Writes K.codec (fun sd => P sd ∧ C sd) id s)
      (· = s) s := by
  simp only [updateLock, getSafetyData, wp_bind, wp_self, wp_pure]
  split
  · exact setSafetyData_writes hlaw hadmits.fresh
  rename_i sd hread
  have hsd : dataOf K.codec s id = some sd := by
    split at hread
    · cases hread
    · cases hread
    · rename_i raw _ hlook
      exact fromBytes_dataOf hlook hread
  rw [wp_bind]
  refine wp_ofGo.mpr ⟨fun data hdata => ?_, fun _ _ => rfl⟩
  exact setSafetyData_writes hlaw (hadmits.update sd data (ha.get hsd) (hc sd hsd) hdata)

/-- **`UpdateSafetyInfo`** keeps what its certificate admits. -/
theorem updateSafetyInfo_allStored (hlaw : K.codec.Lawful) {p : Proposal}
    (ha : AllStored K.codec P s)
    (hok : ∀ ts tsHash, p.tesseract = some ts → ts.hash K.node.codec = .ok tsHash →
      ∃ C, Admits P C qc tsHash ∧ LocksMeet K.codec C s ts.consensusInfo.accountLocks.entries) :
    leaves (updateSafetyInfo K a p qc) (AllStored K.codec P) s := by
  refine updateSafetyInfo_leaves ha (fun _ _ heq h => h.congr heq) fun ts tsHash hts hhash => ?_
  obtain ⟨C, hadmits, hlocks⟩ := hok ts tsHash hts hhash
  refine ⟨(LocksMeet K.codec C · _), hlocks, fun e he hlock s₁ h => ?_⟩
  exact wp_mono (updateLock_writes hlaw hadmits h.1 (h.2 e he hlock))
    (fun _ _ h2 => ⟨h2.allStored h.1, h2.locksMeet h.2⟩) fun _ h2 => h2 ▸ h

end

/-- The call enters a certificate for its own proposal, and no account that it locks has another
    proposal stored. -/
def Relocks (K : SafetyEnv) (s : SafetyDB) (p : Proposal) (qc : Qc) : Prop :=
  ∀ ts tsHash, p.tesseract = some ts → ts.hash K.node.codec = .ok tsHash →
    qc.tsHash = tsHash ∧ LocksMeet K.codec (fun sd => sd.proposalTSHash = tsHash) s
      ts.consensusInfo.accountLocks.entries

/-- **`UpdateSafetyInfo`** for the proposal that is stored. -/
theorem updateSafetyInfo_aligned (hlaw : K.codec.Lawful) {a : Answers} {p : Proposal} {qc : Qc}
    (ha : AlignedStore K.codec s) (hok : Relocks K s p qc) :
    leaves (updateSafetyInfo K a p qc) (AlignedStore K.codec) s := by
  refine updateSafetyInfo_allStored hlaw ha fun ts tsHash hts hhash => ?_
  obtain ⟨rfl, hlocks⟩ := hok ts tsHash hts hhash
  exact ⟨(·.proposalTSHash = qc.tsHash),
    ⟨⟨⟨[], qc, rfl, rfl, rfl⟩, rfl⟩, fun _ _ ha hsame h => ha.updateQc hsame h⟩, hlocks⟩

/-! ## 4. One call of `DeleteLockedTSInfo` -/

section

variable {a : DeleteAnswers} {id : Identifier} {P : SafetyData → Prop}

theorem deleteSafetyData_allStored (ha : AllStored K.codec P s) :
    leaves (deleteSafetyData a id) (AllStored K.codec P) s := by
  unfold deleteSafetyData
  cases a.deleteSafety id with
  | some e => exact ha
  | none => exact ha.delete

theorem deleteConsensusProposalInfo_allStored (ha : AllStored K.codec P s) :
    leaves (deleteConsensusProposalInfo a tsHash) (AllStored K.codec P) s := by
  unfold deleteConsensusProposalInfo
  cases a.deleteProposal tsHash with
  | some e => exact ha
  | none => exact ha.congr rfl

theorem deleteParticipants_allStored (ids : List Identifier) (ha : AllStored K.codec P s) :
    leaves (deleteParticipants a ids) (AllStored K.codec P) s := by
  induction ids generalizing s with
  | nil => exact ha
  | cons id rest ih =>
    exact wp_seq (deleteSafetyData_allStored ha) fun _ _ => ih

variable {deleted : GoMap Hash Unit}

theorem deleteLocked_allStored {data : SafetyData} (ha : AllStored K.codec P s) :
    leaves (deleteLocked a id data deleted) (AllStored K.codec P) s := by
  simp only [deleteLocked, wp_bind, wp_ite, wp_pure]
  refine wp_post (deleteSafetyData_allStored ha) fun _ s₁ h1 => ⟨fun _ => h1, fun _ => ?_⟩
  exact deleteConsensusProposalInfo_allStored h1

theorem deleteSynced_allStored (ids : List Identifier) (deleted : GoMap Hash Unit)
    (ha : AllStored K.codec P s) :
    leaves (deleteSynced K a ids deleted) (AllStored K.codec P) s := by
  induction ids generalizing s deleted with
  | nil => exact ha
  | cons id rest ih =>
    have hread : leaves (getLatestSafetyInfo K a.toAnswers id) (AllStored K.codec P) s :=
      wp_state.mpr ((congrArg (AllStored K.codec P) (getLatestSafetyInfo_state _ s)).mpr ha)
    refine wp_seq hread fun r s₁ h1 => ?_
    cases r with
    | error e => exact ih deleted h1
    | ok data => exact wp_seq (deleteLocked_allStored h1) fun deleted' _ => ih deleted'

/-- **Deletion keeps what holds of all entries**, whatever fails meanwhile. -/
theorem deleteLockedTSInfo_allStored (ts : Tesseract) (fromSyncer : Bool)
    (ha : AllStored K.codec P s) :
    leaves (deleteLockedTSInfo K a ts fromSyncer) (AllStored K.codec P) s := by
  simp only [deleteLockedTSInfo, wp_bind]
  refine wp_ofGo.mpr ⟨fun tsHash _ => ?_, fun _ _ => ha⟩
  refine wp_post (deleteConsensusProposalInfo_allStored ha) fun _ s₁ h1 => ?_
  simp only [wp_ite]
  exact ⟨fun _ => deleteParticipants_allStored _ h1, fun _ => deleteSynced_allStored _ ∅ h1⟩

/-- The data base answers, and the accounts are registered under their own identifiers. -/
structure Works (a : DeleteAnswers) (ids : List Identifier) : Prop where
  reads : ∀ id, a.readSafety id = none
  deletesSafety : ∀ id, a.deleteSafety id = none
  deletesProposal : ∀ tsHash, a.deleteProposal tsHash = none
  registered : ∀ id ∈ ids, ∃ metaInfo, a.getAccountMetaInfo id = .ok metaInfo ∧ metaInfo.id = id

/-- What is read for a registered account: its entry, or something without a proposal. -/
theorem getLatestSafetyInfo_read {ids : List Identifier} (hw : Works a ids) (hid : id ∈ ids)
    (ha : AlignedStore K.codec s) :
    (∃ sd, dataOf K.codec s id = some sd ∧
      getLatestSafetyInfo K a.toAnswers id s = (.ok (.ok sd), s)) ∨
    (id ∉ s.safetyData ∧ ∃ r, getLatestSafetyInfo K a.toAnswers id s = (.ok r, s) ∧
      ∀ sd, r = .ok sd → sd.proposalTSHash = nilHash) := by
  obtain ⟨metaInfo, hmeta, hself⟩ := hw.registered id hid
  unfold getLatestSafetyInfo
  simp only [hmeta, hself]
  by_cases hmem : id ∈ s.safetyData
  · obtain ⟨sd, hsd, _⟩ := ha id hmem
    refine .inl ⟨sd, hsd, ?_⟩
    unfold dataOf at hsd
    have hread : getSafetyData K a.toAnswers id s = (.ok (.ok sd), s) := by
      show (Except.ok _, s) = _
      rw [hw.reads id]
      split at hsd
      · cases hsd
      rename_i raw hraw
      rw [hraw]
      show (Except.ok (K.codec.fromBytes raw), s) = _
      unfold SafetyCodec.fromBytes
      rcases hdec : K.codec.depolorize raw with e | _
      · rw [hdec] at hsd
        cases hsd
      rw [hdec] at hsd
      cases hsd
      rfl
    rw [bind_of_ok hread]
    rfl
  · refine .inr ⟨hmem, ?_⟩
    have hread : getSafetyData K a.toAnswers id s =
        (.ok (.error (.sentinel .errKeyNotFound)), s) := by
      show (Except.ok _, s) = _
      rw [hw.reads id, lookup_eq_none.mpr hmem]
    rw [bind_of_ok hread]
    rcases hcommit : a.getCommitInfo metaInfo.tesseractHash with e | info
    · exact ⟨.error e, rfl, by simp⟩
    refine ⟨.ok ⟨[info.qc], [metaInfo.tesseractHash], nilHash⟩, rfl, fun sd h => ?_⟩
    cases h
    rfl

/-- From `s` to `s'` the entries of `ids` are gone, and of the proposals exactly those that were
    stored with them. No tesseract has the zero hash, which stands for no proposal. -/
structure Removed (E : SafetyCodec) (ids : List Identifier) (s s' : SafetyDB) : Prop where
  gone : ∀ id ∈ ids, id ∉ s'.safetyData
  others : ∀ id, id ∉ ids → s'.safetyData.lookup id = s.safetyData.lookup id
  removed : ∀ id ∈ ids, ∀ sd, dataOf E s id = some sd → sd.proposalTSHash ∉ s'.proposalInfo
  kept : ∀ tsHash, tsHash ≠ nilHash →
    (∀ id ∈ ids, ∀ sd, dataOf E s id = some sd → sd.proposalTSHash ≠ tsHash) →
    s'.proposalInfo.lookup tsHash = s.proposalInfo.lookup tsHash
  fewer : ∀ tsHash, tsHash ∉ s.proposalInfo → tsHash ∉ s'.proposalInfo

variable {ids rest : List Identifier} {s₁ s' : SafetyDB} {E : SafetyCodec}

theorem Removed.nil (s : SafetyDB) : Removed E [] s s where
  gone _ h := by cases h
  others _ _ := rfl
  removed _ h := by cases h
  kept _ _ _ := rfl
  fewer _ h := h

/-- One account more. Its entry goes in the first step, and with it a proposal `tsHash`, which is
    the one of the entry, if there is one. -/
theorem Removed.cons (hnodup : (id :: rest).Nodup) (hgone : id ∉ s₁.safetyData)
    (hothers : ∀ id', id' ≠ id → s₁.safetyData.lookup id' = s.safetyData.lookup id')
    (tsHash : Hash) (hremoved : ∀ sd, dataOf E s id = some sd →
      sd.proposalTSHash = tsHash ∧ tsHash ∉ s₁.proposalInfo)
    (hnil : dataOf E s id = none → tsHash = nilHash)
    (hkept : ∀ h, h ≠ tsHash → s₁.proposalInfo.lookup h = s.proposalInfo.lookup h)
    (hfewer : ∀ h, h ∉ s.proposalInfo → h ∉ s₁.proposalInfo) (hrest : Removed E rest s₁ s') :
    Removed E (id :: rest) s s' := by
  obtain ⟨hid, _⟩ := nodup_cons.mp hnodup
  have hdata : ∀ id', id' ≠ id → dataOf E s₁ id' = dataOf E s id' := fun id' hne => by
    rw [dataOf, dataOf, hothers id' hne]
  have hne : ∀ id' ∈ rest, id' ≠ id := fun id' h heq => hid (heq ▸ h)
  refine ⟨fun id' hmem => ?_, fun id' hmem => ?_, fun id' hmem sd hsd => ?_,
    fun h hh hall => ?_, fun h hh => hrest.fewer h (hfewer h hh)⟩
  · rcases mem_cons.mp hmem with rfl | hmem
    · rw [← lookup_eq_none, hrest.others id' hid, lookup_eq_none]
      exact hgone
    · exact hrest.gone id' hmem
  · have hne' : id' ≠ id := fun heq => hmem (heq ▸ mem_cons_self)
    exact (hrest.others id' fun h => hmem (mem_cons_of_mem id h)).trans (hothers id' hne')
  · rcases mem_cons.mp hmem with rfl | hmem
    · obtain ⟨heq, hout⟩ := hremoved sd hsd
      exact hrest.fewer _ (heq ▸ hout)
    · exact hrest.removed id' hmem sd ((hdata id' (hne id' hmem)).trans hsd)
  have hnext := hrest.kept h hh fun id' hmem sd hsd =>
    hall id' (mem_cons_of_mem id hmem) sd ((hdata id' (hne id' hmem)).symm.trans hsd)
  refine hnext.trans (hkept h fun heq => ?_)
  -- the proposal taken away with the entry is not `h`
  cases hsd : dataOf E s id with
  | none => exact hh (heq.trans (hnil hsd))
  | some sd => exact hall id mem_cons_self sd hsd ((hremoved sd hsd).1.trans heq.symm)

theorem Works.tail (hw : Works a (id :: rest)) : Works a rest :=
  { hw with registered := fun id' h => hw.registered id' (mem_cons_of_mem id h) }

theorem deleteSafetyData_of_works (hw : Works a ids) :
    deleteSafetyData a id s = (.ok none, s.deleteSafetyData id) := by
  unfold deleteSafetyData
  rw [hw.deletesSafety id]
  rfl

theorem deleteConsensusProposalInfo_of_works (hw : Works a ids) :
    deleteConsensusProposalInfo a tsHash s = (.ok none, s.deleteConsensusProposalInfo tsHash) := by
  unfold deleteConsensusProposalInfo
  rw [hw.deletesProposal tsHash]
  rfl

/-- One round of the syncer's loop that has read `tsHash`: the entry is gone, and the proposal. -/
structure Round (id : Identifier) (tsHash : Hash) (s s₁ : SafetyDB) : Prop where
  safety : s₁.safetyData = s.safetyData.erase id
  out : tsHash ∉ s₁.proposalInfo
  fewer : ∀ h, h ∉ s.proposalInfo → h ∉ s₁.proposalInfo
  kept : ∀ h, h ≠ tsHash → s₁.proposalInfo.lookup h = s.proposalInfo.lookup h

variable {tsHash : Hash}

/-- The proposal was removed for an account before. -/
theorem Round.skip (h : tsHash ∉ s.proposalInfo) : Round id tsHash s (s.deleteSafetyData id) :=
  ⟨rfl, h, fun _ h => h, fun _ _ => rfl⟩

theorem Round.delete :
    Round id tsHash s ((s.deleteSafetyData id).deleteConsensusProposalInfo tsHash) where
  safety := rfl
  out h := (mem_erase.mp h).1 rfl
  fewer _ h hmem := h (mem_erase.mp hmem).2
  kept _ hne := lookup_erase_ne hne

theorem Round.removed (hr : Round id tsHash s s₁) (hnodup : (id :: rest).Nodup)
    (hstored : ∀ sd, dataOf E s id = some sd → sd.proposalTSHash = tsHash)
    (hnil : dataOf E s id = none → tsHash = nilHash) (hrest : Removed E rest s₁ s') :
    Removed E (id :: rest) s s' := by
  refine .cons hnodup ?_ (fun id' hne => ?_) tsHash (fun sd hsd => ⟨hstored sd hsd, hr.out⟩) hnil
    hr.kept hr.fewer hrest
  · rw [hr.safety]
    exact fun h => (mem_erase.mp h).1 rfl
  · rw [hr.safety]
    exact lookup_erase_ne hne

/-- A round returns, and what is in its list of deleted hashes has been removed. -/
theorem deleteLocked_spec (hw : Works a ids) (id : Identifier) (data : SafetyData)
    (hdel : ∀ h ∈ deleted, h ∉ s.proposalInfo) :
    ∃ deleted' s₁, deleteLocked a id data deleted s = (.ok deleted', s₁) ∧
      Round id data.proposalTSHash s s₁ ∧ ∀ h ∈ deleted', h ∉ s₁.proposalInfo := by
  rw [deleteLocked, bind_of_ok (deleteSafetyData_of_works hw)]
  by_cases hmem : data.proposalTSHash ∈ deleted
  · rw [if_pos hmem]
    exact ⟨deleted, _, rfl, .skip (hdel _ hmem), hdel⟩
  rw [if_neg hmem, bind_of_ok (deleteConsensusProposalInfo_of_works hw)]
  refine ⟨_, _, rfl, .delete, fun h hh => ?_⟩
  rcases (mem_insert _).mp hh with rfl | hh
  · exact Round.delete.out
  · exact Round.delete.fewer h (hdel h hh)

/-- **The syncer's loop removes exactly the proposals stored for the accounts.** What is in
    `deleted` has been removed already. -/
theorem deleteSynced_spec (hw : Works a ids) (hnodup : ids.Nodup) (ha : AlignedStore K.codec s)
    (deleted : GoMap Hash Unit) (hdel : ∀ tsHash ∈ deleted, tsHash ∉ s.proposalInfo) :
    wp (deleteSynced K a ids deleted) (fun _ => Removed K.codec ids s) (fun _ => False) s := by
  induction ids generalizing s deleted with
  | nil => exact .nil s
  | cons id rest ih =>
    have hnext := (nodup_cons.mp hnodup).2
    -- what is left to do once the safety data `data` have been read
    have hround : ∀ data : SafetyData,
        (∀ sd, dataOf K.codec s id = some sd → sd.proposalTSHash = data.proposalTSHash) →
        (dataOf K.codec s id = none → data.proposalTSHash = nilHash) →
        wp (deleteLocked a id data deleted >>= deleteSynced K a rest)
          (fun _ => Removed K.codec (id :: rest) s) (fun _ => False) s := by
      intro data hstored hnil
      obtain ⟨deleted', s₁, hcall, hr, hdel'⟩ := deleteLocked_spec hw id data hdel
      have ha1 : AlignedStore K.codec s₁ := (AllStored.delete ha).congr hr.safety
      rw [wp, bind_of_ok hcall]
      exact wp_post (ih hw.tail hnext ha1 deleted' hdel')
        fun _ _ => hr.removed hnodup hstored hnil
    rw [deleteSynced, wp_bind]
    rcases getLatestSafetyInfo_read hw mem_cons_self ha with
      ⟨sd, hsd, hread⟩ | ⟨hmem, r, hread, hr⟩
    · rw [wp, hread]
      refine hround sd (fun sd' hsd' => ?_) fun h => ?_
      · cases hsd.symm.trans hsd'
        rfl
      · rw [hsd] at h
        cases h
    · have hnone : dataOf K.codec s id = none := by
        rw [dataOf, lookup_eq_none.mpr hmem]
      rw [wp, hread]
      rcases r with e | data
      swap
      · refine hround data (fun sd hsd => ?_) fun _ => hr data rfl
        rw [hnone] at hsd
        cases hsd
      refine wp_post (ih hw.tail hnext ha deleted hdel) fun _ s' hs' => ?_
      refine .cons hnodup hmem (fun _ _ => rfl) nilHash (fun sd hsd => ?_) (fun _ => rfl)
        (fun _ _ => rfl) (fun _ h => h) hs'
      rw [hnone] at hsd
      cases hsd

/-- The syncer's deletion for the tesseract `tsHash`: the safety data of its accounts are gone, and
    of the proposals exactly its own and those that were locked last for its accounts. -/
structure Unlocked (E : SafetyCodec) (ids : List Identifier) (tsHash : Hash) (s s' : SafetyDB) :
    Prop where
  gone : ∀ id ∈ ids, id ∉ s'.safetyData
  others : ∀ id, id ∉ ids → s'.safetyData.lookup id = s.safetyData.lookup id
  removed : ∀ id ∈ ids, ∀ h, lockedProposal E s id = some h → h ∉ s'.proposalInfo
  own : tsHash ∉ s'.proposalInfo
  kept : ∀ h, h ≠ nilHash → h ≠ tsHash → (∀ id ∈ ids, lockedProposal E s id ≠ some h) →
    s'.proposalInfo.lookup h = s.proposalInfo.lookup h

/-- **`DeleteLockedTSInfo` from the syncer**, in an aligned store. -/
theorem deleteLockedTSInfo_synced {ts : Tesseract} (hw : Works a ts.participants.keys)
    (ha : AlignedStore K.codec s) (hhash : ts.hash K.node.codec = .ok tsHash) :
    wp (deleteLockedTSInfo K a ts true)
      (fun _ => Unlocked K.codec ts.participants.keys tsHash s) (fun _ => False) s := by
  have ha1 : AlignedStore K.codec (s.deleteConsensusProposalInfo tsHash) := AllStored.congr ha rfl
  have hloop := deleteSynced_spec hw ts.participants.keys_nodup ha1 ∅
    fun h hh => absurd hh (notMem_empty h)
  have hcall : ofGo (ts.hash K.node.codec) s = (.ok tsHash, s) := by
    rw [hhash]
    rfl
  rw [wp, deleteLockedTSInfo, bind_of_ok hcall,
    bind_of_ok (deleteConsensusProposalInfo_of_works hw)]
  refine wp_post hloop fun _ s' hs' => ?_
  have hlocked : ∀ id h, lockedProposal K.codec s id = some h ↔
      ∃ sd, dataOf K.codec (s.deleteConsensusProposalInfo tsHash) id = some sd ∧
        sd.proposalTSHash = h := fun id h => by
    rw [ha.locked, Option.map_eq_some_iff]
    rfl
  refine ⟨hs'.gone, hs'.others, fun id hid h hh => ?_, ?_, fun h hnil hne hall => ?_⟩
  · obtain ⟨sd, hsd, rfl⟩ := (hlocked id h).mp hh
    exact hs'.removed id hid sd hsd
  · exact hs'.fewer tsHash fun h => (mem_erase.mp h).1 rfl
  · refine (hs'.kept h hnil fun id hid sd hsd heq => ?_).trans (lookup_erase_ne hne)
    exact hall id hid ((hlocked id h).mpr ⟨sd, hsd, heq⟩)

end

/-! ## 5. Runs -/

/-- The calls that change safety data or delete it. -/
inductive LockEvent where
  | update (a : Answers) (p : Proposal) (qc : Qc)
  | delete (a : DeleteAnswers) (ts : Tesseract) (fromSyncer : Bool)

/-- The machine. What a call has written stays, also if it panics. -/
def LockStep (K : SafetyEnv) (s : SafetyDB) : LockEvent → SafetyDB → Prop
  | .update a p qc, s' => ∃ r, updateSafetyInfo K a p qc s = (r, s')
  | .delete a ts fromSyncer, s' => ∃ r, deleteLockedTSInfo K a ts fromSyncer s = (r, s')

/-- A call of `UpdateSafetyInfo` is for the proposal that is stored; deletions are free. -/
def RelocksEvent (K : SafetyEnv) (s : SafetyDB) : LockEvent → Prop
  | .update _ p qc => Relocks K s p qc
  | .delete _ _ _ => True

theorem LockStep.aligned (hlaw : K.codec.Lawful) {e : LockEvent} {s' : SafetyDB}
    (ha : AlignedStore K.codec s) (hok : RelocksEvent K s e) (h : LockStep K s e s') :
    AlignedStore K.codec s' := by
  cases e with
  | update a p qc =>
    obtain ⟨r, hcall⟩ := h
    have hspec := wp_state.mp (updateSafetyInfo_aligned (a := a) hlaw ha hok)
    rwa [hcall] at hspec
  | delete a ts fromSyncer =>
    obtain ⟨r, hcall⟩ := h
    have hspec := wp_state.mp (deleteLockedTSInfo_allStored (a := a) ts fromSyncer ha)
    rwa [hcall] at hspec

/-- **The safety data stay aligned, and the syncer's deletion removes exactly the locked proposals,
    as long as an account has one proposal at a time.** In every state of a run whose updates are
    all for the stored proposal each account's fields agree, and there a deletion from the syncer
    removes the proposals that were locked last for the accounts of the tesseract. -/
theorem aligned_run (hlaw : K.codec.Lawful) {es : List LockEvent} {s₀ : SafetyDB}
    (h₀ : AlignedStore K.codec s₀) (h : Run (Guarded (RelocksEvent K) (LockStep K)) s₀ es s) :
    AlignedStore K.codec s ∧
      ∀ a ts tsHash s', Works a ts.participants.keys → ts.hash K.node.codec = .ok tsHash →
        LockStep K s (.delete a ts true) s' →
        Unlocked K.codec ts.participants.keys tsHash s s' := by
  have ha : AlignedStore K.codec s :=
    h.invariant h₀ fun _ s e s' hs hstep => hstep.2.aligned hlaw hs hstep.1
  refine ⟨ha, fun a ts tsHash s' hw hhash hstep => ?_⟩
  obtain ⟨r, hcall⟩ := hstep
  have hspec := deleteLockedTSInfo_synced hw ha hhash
  rw [wp, hcall] at hspec
  cases r with
  | ok _ => exact hspec
  | error _ => exact hspec.elim

/-! ## 6. Two proposals -/

namespace Orphan

def account : Identifier := ⟨BitVec.ofNat 256 (2 ^ 32)⟩

/-- A tesseract that locks the account, with its epoch as its hash. -/
def tesseract (epoch : Nat) : Tesseract where
  participants := AList.singleton account ⟨2, nilHash, ⟨9⟩, none, ⟨1⟩⟩
  interactionsHash := nilHash
  receiptsHash := nilHash
  epoch := epoch
  timestamp := 0
  fuelUsed := 0
  fuelLimit := 0
  consensusInfo := ⟨[1], nilHash, nilHash, 3, ∅, ∅, AList.singleton account mutateLock, nilHash, []⟩
  sealBytes := []
  sealBy := []
  commitInfo := some ⟨none, [1], [], 3, [0], 1⟩

def qcFor (epoch : Nat) (view : UInt64) (type : ConsensusMsgType) : Qc :=
  ⟨type, view, ⟨BitVec.ofNat 256 epoch⟩, none, []⟩

/-- What the entry of the account can be here. -/
def table : List SafetyData :=
  [⟨[some (qcFor 1 1 PREVOTE)], [⟨1⟩], ⟨1⟩⟩, ⟨[some (qcFor 1 1 PRECOMMIT)], [⟨1⟩], ⟨1⟩⟩,
    ⟨[some (qcFor 2 2 PREVOTE)], [⟨2⟩], ⟨1⟩⟩, ⟨[some (qcFor 2 1 PREVOTE)], [⟨1⟩], ⟨1⟩⟩]

def env : SafetyEnv where
  node := { Pair.env.node with
    codec :=
      { polorizeBody := fun b => .ok [UInt8.ofNat b.epoch.toNat]
        polorizeVote := fun _ => .ok []
        blake2b := fun raw => ⟨BitVec.ofNat 256 ((raw.map UInt8.toNat).sum)⟩ } }
  codec := tableCodec table
  fetchICSCommittee := Pair.env.fetchICSCommittee

/-- Nothing fails. -/
def answers : DeleteAnswers where
  toAnswers := Pair.answers
  deleteSafety _ := none
  deleteProposal _ := none

/-- The proposal of an epoch, entered with a certificate for it. -/
def enters (epoch : Nat) (view : UInt64) (type : ConsensusMsgType) : LockEvent :=
  .update Pair.answers ⟨none, some (tesseract epoch)⟩ (qcFor epoch view type)

def empty : SafetyDB := ⟨∅, ∅⟩

theorem answers_work (ids : List Identifier) : Works answers ids where
  reads _ := rfl
  deletesSafety _ := rfl
  deletesProposal _ := rfl
  registered _ _ := ⟨_, rfl, rfl⟩

/-- The state after a call. -/
def after (s : SafetyDB) : LockEvent → SafetyDB
  | .update a p qc => (updateSafetyInfo env a p qc s).2
  | .delete a ts fromSyncer => (deleteLockedTSInfo env a ts fromSyncer s).2

theorem step_after (s : SafetyDB) (e : LockEvent) : LockStep env s e (after s e) := by
  cases e <;> exact ⟨_, rfl⟩

/-- The first proposal, with its PREVOTE certificate, and with its PRECOMMIT one. -/
def locked : SafetyDB := after empty (enters 1 1 PREVOTE)

def committed : SafetyDB := after locked (enters 1 1 PRECOMMIT)

/-- Another proposal in view 2, and one in view 1. -/
def relocked : SafetyDB := after locked (enters 2 2 PREVOTE)

def replaced : SafetyDB := after locked (enters 2 1 PREVOTE)

theorem relocks {view : UInt64} {type : ConsensusMsgType}
    (h : (dataOf env.codec s account).all fun sd => sd.proposalTSHash = ⟨1⟩) :
    RelocksEvent env s (enters 1 view type) := by
  intro ts tsHash hts hhash
  cases hts
  cases hhash
  have hown : (⟨1⟩ : Hash) = env.node.codec.blake2b [1] := by decide
  refine ⟨hown, fun e he _ sd hsd => ?_⟩
  obtain rfl : e = ⟨account, mutateLock⟩ := mem_singleton.mp he
  rw [hsd] at h
  exact of_decide_eq_true h

end Orphan

open Orphan in
/-- One proposal, locked, committed and deleted again. -/
theorem single_proposal_unlocked :
    (⟨1⟩ : Hash) ∈ committed.proposalInfo ∧ AlignedStore env.codec committed ∧
      Unlocked env.codec [account] ⟨3⟩ committed
        (after committed (.delete answers (tesseract 3) true)) := by
  have hrun : Run (Guarded (RelocksEvent env) (LockStep env)) empty
      [enters 1 1 PREVOTE, enters 1 1 PRECOMMIT] committed :=
    .snoc (.snoc .start _ ⟨relocks (by decide +kernel), step_after _ _⟩) _
      ⟨relocks (by decide +kernel), step_after _ _⟩
  have hresult := aligned_run (tableCodec_lawful (by decide))
    (fun _ h => absurd h (notMem_empty _)) hrun
  exact ⟨by decide +kernel, hresult.1,
    hresult.2 answers (tesseract 3) ⟨3⟩ _ (answers_work _) (by rfl) (step_after _ _)⟩

open Orphan in
/-- **A second proposal breaks the fields.** Locked in a later view, it leaves the hash of the first
    one in place, and the syncer's deletion removes the first one's copy instead of its own. Locked
    in the same view, it leaves the hash of the first one in the list. -/
theorem second_proposal_orphaned :
    Run (LockStep env) empty [enters 1 1 PREVOTE, enters 2 2 PREVOTE] relocked ∧
      lockedProposal env.codec relocked account = some ⟨2⟩ ∧
      (dataOf env.codec relocked account).map (·.proposalTSHash) = some ⟨1⟩ ∧
      (⟨2⟩ : Hash) ∈ (after relocked (.delete answers (tesseract 3) true)).proposalInfo ∧
      account ∉ (after relocked (.delete answers (tesseract 3) true)).safetyData ∧
    Run (LockStep env) empty [enters 1 1 PREVOTE, enters 2 1 PREVOTE] replaced ∧
      (dataOf env.codec replaced account).map (·.qc) = some [some (qcFor 2 1 PREVOTE)] ∧
      (dataOf env.codec replaced account).map (·.tsHashes) = some [⟨1⟩] := by
  refine ⟨.snoc (.snoc .start _ (step_after _ _)) _ (step_after _ _), by decide +kernel,
    by decide +kernel, by decide +kernel, by decide +kernel,
    .snoc (.snoc .start _ (step_after _ _)) _ (step_after _ _), by decide +kernel,
      by decide +kernel⟩

end ConsensusSafety

end GoMoi
