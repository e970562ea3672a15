/-
  File:      GoMoi/Lattice/Manager.lean
  Subject:   How the chain manager adds a tesseract (`AddTesseract` of `lattice/manager.go`).

  A tesseract is added for one participant or for all of them. First the participants are recorded
  one after the other: the state of the account is flushed, the hash of the tesseract is written
  under the height of the account, and the account meta information is brought to that height. Then,
  unless it is there, the tesseract itself is written in one batch, with its interactions, receipts
  and commit information.

  A participant has to be recorded if it is not excluded (its state hash is not nil) and its lock is
  not weaker than `MutateLock`. Before the participants are recorded, `addParticipantsData` asks for
  each of them whether its meta information is at the height of the tesseract; one that is ends the
  call for all of them.

  What the interaction pool, the event bus, the metrics and the cache of tesseracts are told is left
  out, but for the call of `ResetWithHeaders`, which the result names. The books of `senatus` are
  its own.

  * `addTesseract` -- the call; `Encoding.writes` -- the batch of the tesseract;
  * `wp_storeTesseract`, `storeTesseract_sound` -- what is on the disk however it ends, and if all
    goes well.
-/
import GoMoi.Storage.Manager

namespace GoMoi

open Proc

/-! ## 1. Tesseracts and state objects -/

/-- A tesseract with its interactions and receipts. -/
structure LoadedTesseract extends Tesseract where
  ixns : List Interaction
  receipts : Receipts

/-- `Hash.String`. -/
def Hash.string (h : Hash) : List Char := if h.isNil then [] else encodeToString h.bytes

/-- `DeltaGroup.NodeIndex`; `NodeNotFound` is -1. -/
def DeltaGroup.nodeIndex (d : DeltaGroup) (id : KramaID) : Int :=
  match d.consensusNodes.findIdx? (· = id) with
  | none => -1
  | some idx => idx

/-- What a tree has to flush: its new nodes, under their digests, and the keys behind the hashed
    keys. -/
structure TreeDB where
  dirty : GoMap Hash Bytes
  preImages : GoMap Hash Bytes

/-- The kinds of records that an object keeps among its dirty entries. -/
inductive ObjectRecord where
  | account
  | context
  | accountKeys
  | deeds
  | logicManifest
  deriving DecidableEq, Repr

def ObjectRecord.tag : ObjectRecord → PrefixTag
  | account => .account
  | context => .context
  | accountKeys => .accountKeys
  | deeds => .deeds
  | logicManifest => .logicManifest

/-- The fields of `type Object struct` that are read here. The keys of the dirty entries are made
    with the identifier of the object, and are kept in hexadecimal. -/
structure StateObject where
  accType : AccountType
  contextHash : Hash
  consensusNodesHash : Hash
  inheritedAccount : Identifier
  assetTree : Option TreeDB
  logicTree : Option TreeDB
  storageTrees : List TreeDB
  metaStorageTree : Option TreeDB
  dirtyEntries : List (ObjectRecord × Hash × Bytes)

/-- `type Transition struct`. -/
structure ChainTransition where
  systemObject : Option (Identifier × StateObject)
  objects : GoMap Identifier StateObject

/-- The object that the methods of the transition go to; the methods of `nil` panic. -/
def ChainTransition.object (t : ChainTransition) (id : Identifier) : Go StateObject :=
  match t.systemObject with
  | none => Go.deref (t.objects.lookup id)
  | some (sysID, o) => if sysID = id then .ok o else Go.deref (t.objects.lookup id)

/-! ## 2. Flushing an object -/

namespace Disk

/-- `KramaHashTree.Flush`. -/
def flushTree (id : Identifier) (tag : PrefixTag) (t : TreeDB) : Proc Disk (Option Err) :=
  if t.dirty.entries = [] then pure none
  else do
    match ← writeBatch (t.dirty.entries.map fun e => (dbKey id tag e.1.bytes, e.2)) with
    | some e => pure (some e)
    | none => writeBatch (t.preImages.entries.map fun e => (preImageKey id e.1, e.2))

/-- `flushAssetTree`, `flushLogicTree`. -/
def flushTree? (id : Identifier) (tag : PrefixTag) : Option TreeDB → Proc Disk (Option Err)
  | none => pure none
  | some t => flushTree id tag t

/-- The loop of `flushStorageTrees`. -/
def flushTrees (id : Identifier) : List TreeDB → Proc Disk (Option Err)
  | [] => pure none
  | t :: ts => do
    match ← flushTree id .storage t with
    | some e => pure (some (.wrap e "failed to commit modified storage tree entries to store"))
    | none => flushTrees id ts

/-- `flushStorageTrees`. -/
def flushStorageTrees (id : Identifier) (o : StateObject) : Proc Disk (Option Err) :=
  match o.metaStorageTree with
  | none => pure none
  | some t => do
    match ← flushTrees id o.storageTrees with
    | some e => pure (some e)
    | none => flushTree id .storage t

/-- The loop of `flush` over the dirty entries. -/
def flushDirty (id : Identifier) : List (ObjectRecord × Hash × Bytes) → Proc Disk (Option Err)
  | [] => pure none
  | e :: es => do
    match ← insert (dbKey id e.1.tag e.2.1.bytes) e.2.2 with
    | some err => pure (some (.wrap err "failed to write dirty entries"))
    | none => flushDirty id es

/-- `Object.flush`. -/
def flushObject (id : Identifier) (o : StateObject) : Proc Disk (Option Err) := do
  match ← flushTree? id .asset o.assetTree with
  | some e => pure (some (.wrap e "failed to flush asset tree"))
  | none => do
    match ← flushTree? id .logic o.logicTree with
    | some e => pure (some (.wrap e "failed to flush logic tree"))
    | none => do
      match ← flushStorageTrees id o with
      | some e => pure (some (.wrap e "failed to flush active storage trees"))
      | none => flushDirty id o.dirtyEntries

end Disk

/-! ## 3. Adding the participants -/

/-- What is fixed for a chain manager: encodings, and the node it runs on. -/
structure ChainEnv where
  codec : Codec
  metas : MetaCodec
  kramaID : KramaID
  tesseractBytes : Tesseract → Except Err Bytes
  interactionsBytes : List Interaction → Except Err Bytes
  receiptsBytes : Receipts → Except Err Bytes
  commitInfoBytes : Option CommitInfo → Except Err Bytes

/-- What a call of the chain manager finds: the orders in which its loops run over the participants,
    and the answers of `senatus`. -/
structure ChainAnswers where
  probing : (m : ParticipantsState) → GoMap.Order m
  recording : (m : ParticipantsState) → GoMap.Order m
  counting : (m : ParticipantsState) → GoMap.Order m
  settling : (m : ParticipantsState) → GoMap.Order m
  updateWalletCount : KramaID → Int → Option Err

/-- `CommitHash`. -/
def ChainEnv.commitHash (E : ChainEnv) (ts : Tesseract) : Hash :=
  match ts.commitInfo with
  | none => nilHash
  | some info =>
    match E.commitInfoBytes (some info) with
    | .error _ => nilHash
    | .ok raw => E.codec.blake2b raw

/-- The lock of the account is weaker than `MutateLock`; an account without a lock has that one. -/
def Tesseract.lockedWeaker (ts : Tesseract) (id : Identifier) : Bool :=
  match ts.consensusInfo.accountLocks.lookup id with
  | none => false
  | some lockType => decide (mutateLock.val < lockType.val)

namespace ChainManager

open Disk

variable (E : ChainEnv)

/-- The arguments with which `addParticipant` updates the meta information. -/
def metaUpdate (id : Identifier) (tsHash commitHash : Hash) (st : State) (o : StateObject) :
    MetaUpdate where
  id := id
  height := st.height
  tesseractHash := tsHash
  stateHash := st.stateHash
  contextHash := o.contextHash
  consensusNodesHash := o.consensusNodesHash
  inheritedAccount := o.inheritedAccount
  commitHash := commitHash
  accType := o.accType
  shouldUpdateContextSetPosition := st.contextDelta.isSome
  positionInContextSet := match st.contextDelta with
    | none => 0
    | some d => d.nodeIndex E.kramaID

/-- `addParticipant`. -/
def addParticipant (id : Identifier) (tsHash commitHash : Hash) (st : State)
    (transition : ChainTransition) : Proc Disk (Option Err) := do
  let o ← ofGo (transition.object id)
  match ← flushObject id o with
  | some e => pure (some e)
  | none => do
    match ← insert (tesseractHeightKey id st.height) tsHash.bytes with
    | some e => pure (some (.wrap e "failed to write tesseract height entry"))
    | none => do
      let r ← updateAccMetaInfo E.metas (metaUpdate E id tsHash commitHash st o)
      pure (GoError.wrapErr r.2.2 "account meta info update failed")

/-- The first loop of `addParticipantsData`: some participant is stored already. -/
def anyStored (ts : Tesseract) : List (Σ _ : Identifier, State) → Proc Disk Bool
  | [] => pure false
  | ⟨id, st⟩ :: rest =>
    if ts.lockedWeaker id then anyStored ts rest
    else if st.stateHash = nilHash then anyStored ts rest
    else do
      if ← hasAccMetaInfoAt E.metas id (ts.height id) then pure true else anyStored ts rest

/-- The second loop of `addParticipantsData`. -/
def addParticipants (ts : Tesseract) (transition : ChainTransition) :
    List (Σ _ : Identifier, State) → Proc Disk (Option Err)
  | [] => pure none
  | ⟨id, st⟩ :: rest =>
    if st.stateHash = nilHash then addParticipants ts transition rest
    else if ts.lockedWeaker id then addParticipants ts transition rest
    else do
      let tsHash ← ofGo (ts.hash E.codec)
      match ← addParticipant E id tsHash (E.commitHash ts) st transition with
      | some e => pure (some e)
      | none => addParticipants ts transition rest

/-- The participants a call is for: all of them, or one that has to be there. -/
def chosen (id : Identifier) (ts : Tesseract) (allParticipants : Bool) : Go ParticipantsState :=
  if allParticipants then .ok ts.participants
  else match ts.state id with
    | none => .error (.explicit "false")
    | some st => .ok (AList.singleton id st)

/-- `addParticipantsData`. -/
def addParticipantsData (a : ChainAnswers) (id : Identifier) (ts : Tesseract)
    (transition : ChainTransition) (allParticipants : Bool) : Proc Disk (Option Err) :=
  if !allParticipants ∧ id = nilIdentifier then pure (some (.new "id is not specified"))
  else do
    let participants ← ofGo (chosen id ts allParticipants)
    if ← anyStored E ts (a.probing participants).entries then pure none
    else addParticipants E ts transition (a.recording participants).entries

/-! ## 4. Adding the tesseract -/

/-- `storeInteractions`: the interactions under the hash of the tesseract, and the hash of the
    tesseract under that of each interaction. -/
def storeInteractions (bw : Batch) (t : LoadedTesseract) (tsHash : Hash) :
    Proc Disk (Except Err Batch) :=
  match E.interactionsBytes t.ixns with
  | .error e => pure (.error e)
  | .ok ixRawData => do
    match ← set bw (interactionsKey tsHash) ixRawData with
    | .error e =>
      pure (.error (.wrap e ("error writing interactions to db with ts-hash " ++
        String.ofList tsHash.string)))
    | .ok bw =>
      setAll (fun ix : Interaction => (ix.hash.bytes, tsHash.bytes))
        (fun ix e => .wrap e ("error writing tesseract hash to db ix-hash " ++
          String.ofList ix.hash.string ++ " ts-hash " ++ String.ofList tsHash.string))
        t.ixns bw

/-- What `storeReceipts` and `storeCommitInfo` share, down to the text of the error. -/
def storeRecord (bw : Batch) (key : Bytes) (rawData : Except Err Bytes) :
    Proc Disk (Except Err Batch) :=
  match rawData with
  | .error e => pure (.error e)
  | .ok rawData => do
    match ← set bw key rawData with
    | .error e => pure (.error (.wrap e "error writing receipts to db"))
    | .ok bw => pure (.ok bw)

/-- `storeReceipts`. -/
def storeReceipts (bw : Batch) (t : LoadedTesseract) (tsHash : Hash) :
    Proc Disk (Except Err Batch) :=
  storeRecord bw (receiptsKey tsHash) (E.receiptsBytes t.receipts)

/-- `storeCommitInfo`. -/
def storeCommitInfo (bw : Batch) (t : LoadedTesseract) (tsHash : Hash) :
    Proc Disk (Except Err Batch) :=
  storeRecord bw (tesseractCommitInfoKey tsHash) (E.commitInfoBytes t.commitInfo)

/-- `addTesseractData`. -/
def addTesseractData (bw : Batch) (t : LoadedTesseract) (tsHash : Hash) :
    Proc Disk (Except Err Batch) :=
  match E.tesseractBytes t.toTesseract with
  | .error e => pure (.error e)
  | .ok tsRawData => do
    match ← set bw (tesseractKey tsHash) tsRawData with
    | .error e => pure (.error (.wrap e "error writing tesseract to db"))
    | .ok bw => do
      match ← storeInteractions E bw t tsHash with
      | .error e => pure (.error (.wrap e "failed to store interactions"))
      | .ok bw => do
        match ← storeReceipts E bw t tsHash with
        | .error e => pure (.error (.wrap e "failed to store receipts"))
        | .ok bw => storeCommitInfo E bw t tsHash

/-- `UpdateNodeInclusivity`. -/
def updateNodeInclusivity (a : ChainAnswers) (delta : DeltaGroup) : Option Err :=
  (delta.consensusNodes.findSome? fun kramaID => a.updateWalletCount kramaID 1).or
    (delta.replacedNodes.findSome? fun kramaID => a.updateWalletCount kramaID (-1))

/-- The loop of `AddTesseract` over the context deltas. -/
def updateInclusivity (a : ChainAnswers) (ps : ParticipantsState) : Option Err :=
  GoError.wrapErr
    ((a.counting ps).entries.findSome? fun p => p.2.contextDelta.bind (updateNodeInclusivity a))
    "failed updating node inclusivity"

/-- The writes of a tesseract that is not there yet. -/
def storeTesseract (a : ChainAnswers) (t : LoadedTesseract) (tsHash : Hash) :
    Proc Disk (Option Err) := do
  match ← addTesseractData E [] t tsHash with
  | .error e => pure (some e)
  | .ok bw => do
    match ← flush bw with
    | some e => pure (some (.wrap e "failed to flush tesseract"))
    | none => pure (updateInclusivity a t.participants)

/-- The last loop of `AddTesseract`: every participant is stored. -/
def allStored : List (Σ _ : Identifier, State) → Proc Disk Bool
  | [] => pure true
  | ⟨id, st⟩ :: rest => do
    if ← hasAccMetaInfoAt E.metas id st.height then allStored rest else pure false

/-- The first half of `AddTesseract` after the participants: the tesseract, unless it is found. -/
def ensureTesseract (a : ChainAnswers) (t : LoadedTesseract) : Proc Disk (Option Err) := do
  let tsHash ← ofGo (t.hash E.codec)
  let found ← has (tesseractKey tsHash)
  if found.1 then pure none else storeTesseract E a t tsHash

/-- The second half: whether the pool is told by `ResetWithHeaders`. -/
def poolReset (a : ChainAnswers) (t : LoadedTesseract) (allParticipants : Bool) : Proc Disk Bool :=
  if allParticipants then pure true else allStored E (a.settling t.participants).entries

/-- `AddTesseract`: the error, and whether the pool is told. -/
def addTesseract (a : ChainAnswers) (id : Identifier) (t : LoadedTesseract)
    (transition : ChainTransition) (allParticipants : Bool) : Proc Disk (Option Err × Bool) := do
  match ← addParticipantsData E a id t.toTesseract transition allParticipants with
  | some e => pure (some e, false)
  | none => do
    match ← ensureTesseract E a t with
    | some e => pure (some e, false)
    | none => do
      let reset ← poolReset E a t allParticipants
      pure (none, reset)

/-- The loop of `AddTesseractWithState` over the extra entries. -/
def createEntries : List (Σ _ : Hash, Bytes) → Proc Disk (Option Err)
  | [] => pure none
  | e :: es => do
    match ← insert e.1.bytes e.2 with
    | some err => pure (some (.wrap err "failed to write dirty keys"))
    | none => createEntries es

/-- `AddTesseractWithState`; `dirtyStorage` in the order in which the loop runs over it. -/
def addTesseractWithState (a : ChainAnswers) (id : Identifier)
    (dirtyStorage : List (Σ _ : Hash, Bytes)) (t : LoadedTesseract)
    (transition : ChainTransition) (allParticipants : Bool) : Proc Disk (Option Err) :=
  if t.commitInfo = none then pure (some (.sentinel .errCommitInfoNotFound))
  else do
    let r ← addTesseract E a id t transition allParticipants
    match r.1 with
    | some e => pure (some e)
    | none => createEntries dirtyStorage

/-! ## 5. What is written of a tesseract -/

open FaultyStore

/-- The entries that a tesseract is stored in. -/
inductive IsTesseractWrite (t : LoadedTesseract) (tsHash : Hash) : Bytes × Bytes → Prop where
  | tesseract {raw : Bytes} (h : E.tesseractBytes t.toTesseract = .ok raw) :
      IsTesseractWrite t tsHash (tesseractKey tsHash, raw)
  | interactions {raw : Bytes} (h : E.interactionsBytes t.ixns = .ok raw) :
      IsTesseractWrite t tsHash (interactionsKey tsHash, raw)
  | lookup {ix : Interaction} (h : ix ∈ t.ixns) :
      IsTesseractWrite t tsHash (ix.hash.bytes, tsHash.bytes)
  | receipts {raw : Bytes} (h : E.receiptsBytes t.receipts = .ok raw) :
      IsTesseractWrite t tsHash (receiptsKey tsHash, raw)
  | commitInfo {raw : Bytes} (h : E.commitInfoBytes t.commitInfo = .ok raw) :
      IsTesseractWrite t tsHash (tesseractCommitInfoKey tsHash, raw)

/-- The encodings of a tesseract and of what is stored with it. -/
structure Encoding (t : LoadedTesseract) where
  tesseract : Bytes
  interactions : Bytes
  receipts : Bytes
  commitInfo : Bytes
  tesseract_eq : E.tesseractBytes t.toTesseract = .ok tesseract
  interactions_eq : E.interactionsBytes t.ixns = .ok interactions
  receipts_eq : E.receiptsBytes t.receipts = .ok receipts
  commitInfo_eq : E.commitInfoBytes t.commitInfo = .ok commitInfo

variable {E} {t : LoadedTesseract} {tsHash : Hash} {w : Bytes × Bytes}

theorem IsTesseractWrite.key_length (h : IsTesseractWrite E t tsHash w) :
    w.1.length = 40 ∨ w.1.length = 32 := by
  cases h with
  | tesseract _ => exact .inl (tesseractKey_length tsHash)
  | interactions _ => exact .inl (interactionsKey_length tsHash)
  | lookup _ => exact .inr (Hash.bytes_length _)
  | receipts _ => exact .inl (receiptsKey_length tsHash)
  | commitInfo _ => exact .inl (tesseractCommitInfoKey_length tsHash)

/-- The batch of a tesseract. -/
def Encoding.writes {t : LoadedTesseract} (e : Encoding E t) (tsHash : Hash) : Batch :=
  [(tesseractKey tsHash, e.tesseract), (interactionsKey tsHash, e.interactions)] ++
    t.ixns.map (fun ix => (ix.hash.bytes, tsHash.bytes)) ++
    [(receiptsKey tsHash, e.receipts), (tesseractCommitInfoKey tsHash, e.commitInfo)]

theorem Encoding.isTesseractWrite (e : Encoding E t) (hw : w ∈ e.writes tsHash) :
    IsTesseractWrite E t tsHash w := by
  simp only [Encoding.writes, List.mem_append, List.mem_cons, List.mem_map, List.not_mem_nil,
    or_false] at hw
  obtain ((rfl | rfl) | ⟨_, hix, rfl⟩) | rfl | rfl := hw
  · exact .tesseract e.tesseract_eq
  · exact .interactions e.interactions_eq
  · exact .lookup hix
  · exact .receipts e.receipts_eq
  · exact .commitInfo e.commitInfo_eq

/-- Some writes of the kind `P` have been made. -/
def Written (P : Bytes × Bytes → Prop) (m m' : Entries) : Prop :=
  ∃ ws, (∀ w ∈ ws, P w) ∧ m' = putAll m ws

/-- After a step of the batch: it has `B` and holds writes of the kind `P`, and nothing is written
    yet; or there is an error, and some of them have been made. -/
def Staged (P : Bytes × Bytes → Prop) (m : Entries) (B : Batch → Prop) (r : Except Err Batch)
    (m' : Entries) : Prop :=
  match r with
  | .ok bw => B bw ∧ (∀ w ∈ bw, P w) ∧ m' = m
  | .error _ => Written P m m'

section

variable {P : Bytes × Bytes → Prop} {m m' : Entries} {bw : Batch} {s : Disk}

theorem Written.refl (m : Entries) : Written P m m := ⟨[], nofun, rfl⟩

theorem Written.take (hbw : ∀ w ∈ bw, P w) (n : Nat) : Written P m (putAll m (bw.take n)) :=
  ⟨bw.take n, fun w hw => hbw w (List.mem_of_mem_take hw), rfl⟩

variable {t : LoadedTesseract} {tsHash : Hash}

open Written

theorem wp_storeInteractions (hbw : ∀ w ∈ bw, IsTesseractWrite E t tsHash w) :
    wp (storeInteractions E bw t tsHash) (fun r s' =>
        Staged (IsTesseractWrite E t tsHash) s.entries
          (fun bw' => ∃ raw, E.interactionsBytes t.ixns = .ok raw ∧
            bw' = bw ++ [(interactionsKey tsHash, raw)] ++
              t.ixns.map fun ix => (ix.hash.bytes, tsHash.bytes)) r s'.entries)
      (fun _ => False) s := by
  unfold storeInteractions
  rcases hraw : E.interactionsBytes t.ixns with e | raw
  · exact refl _
  rw [wp_bind]
  refine wp_set (fun e n fs => take hbw n) fun fs => ?_
  have hall : ∀ w ∈ bw ++ [(interactionsKey tsHash, raw)] ++
      t.ixns.map (fun ix => (ix.hash.bytes, tsHash.bytes)), IsTesseractWrite E t tsHash w := by
    intro w hw
    simp only [List.mem_append, List.mem_singleton, List.mem_map] at hw
    obtain (hw | rfl) | ⟨_, hix, rfl⟩ := hw
    · exact hbw w hw
    · exact .interactions hraw
    · exact .lookup hix
  refine wp_setAll (fun e n fs => take hall n) fun fs => ?_
  exact ⟨⟨raw, rfl, rfl⟩, hall, rfl⟩

theorem wp_storeRecord {key : Bytes} {rawData : Except Err Bytes} (hbw : ∀ w ∈ bw, P w)
    (hnew : ∀ raw, rawData = .ok raw → P (key, raw)) :
    wp (storeRecord bw key rawData) (fun r s' =>
        Staged P s.entries (fun bw' => ∃ raw, rawData = .ok raw ∧ bw' = bw ++ [(key, raw)]) r
          s'.entries) (fun _ => False) s := by
  rcases rawData with e | raw
  · exact refl _
  unfold storeRecord
  rw [wp_bind]
  refine wp_set (fun e n fs => take hbw n) fun fs => ?_
  refine ⟨⟨raw, rfl, rfl⟩, fun w hw => ?_, rfl⟩
  obtain hw | hw := List.mem_append.mp hw
  · exact hbw w hw
  · rw [List.mem_singleton.mp hw]
    exact hnew raw rfl

/-- **A batch holds the tesseract and all that belongs to it.** -/
theorem wp_addTesseractData :
    wp (addTesseractData E [] t tsHash) (fun r s' =>
        Staged (IsTesseractWrite E t tsHash) s.entries
          (fun bw => ∃ e : Encoding E t, bw = e.writes tsHash) r s'.entries)
      (fun _ => False) s := by
  unfold addTesseractData
  rcases hts : E.tesseractBytes t.toTesseract with e | tsRaw
  · exact refl _
  rw [wp_bind]
  refine wp_set (fun e n fs => take (by simp) n) fun fs => ?_
  have h1 : ∀ w ∈ [(tesseractKey tsHash, tsRaw)], IsTesseractWrite E t tsHash w := by
    intro w hw
    rw [List.mem_singleton.mp hw]
    exact .tesseract hts
  refine wp_seq (wp_storeInteractions h1) fun r s2 h => ?_
  rcases r with e | _
  · exact h
  obtain ⟨⟨ixRaw, hix, rfl⟩, h2, hm2⟩ := h
  refine wp_seq (wp_storeRecord h2 fun _ => .receipts) fun r s3 h => ?_
  rw [hm2] at h
  rcases r with e | _
  · exact h
  obtain ⟨⟨rRaw, hr, rfl⟩, h3, hm3⟩ := h
  refine wp_post (wp_storeRecord h3 fun _ => .commitInfo) fun r s4 h => ?_
  rw [hm3] at h
  rcases r with e | _
  · exact h
  obtain ⟨⟨cRaw, hc, rfl⟩, h4, hm4⟩ := h
  exact ⟨⟨⟨tsRaw, ixRaw, rRaw, cRaw, hts, hix, hr, hc⟩, by simp [Encoding.writes]⟩,
    h4, hm4⟩

variable {a : ChainAnswers}

/-- **A tesseract that is stored without an error is there with all that belongs to it.** -/
theorem wp_storeTesseract :
    wp (storeTesseract E a t tsHash) (fun err s' =>
        Written (IsTesseractWrite E t tsHash) s.entries s'.entries ∧
        (err = none → ∃ e : Encoding E t, s'.entries = putAll s.entries (e.writes tsHash)))
      (fun _ => False) s := by
  refine wp_seq wp_addTesseractData fun r s1 h => ?_
  rcases r with e | _
  · exact ⟨h, nofun⟩
  obtain ⟨⟨e, rfl⟩, hbw, hm⟩ := h
  rw [wp_bind]
  refine wp_flush (fun err n fs => ?_) fun fs => ?_
  · rw [hm]
    exact ⟨take hbw n, nofun⟩
  · rw [hm]
    exact ⟨⟨_, hbw, rfl⟩, fun _ => ⟨e, rfl⟩⟩

theorem storeInteractions_sound {raw : Bytes} (hraw : E.interactionsBytes t.ixns = .ok raw) :
    storeInteractions E bw t tsHash (sound m) = (.ok (.ok (bw ++ [(interactionsKey tsHash, raw)] ++
      t.ixns.map fun ix => (ix.hash.bytes, tsHash.bytes))), sound m) := by
  have hset : set bw (interactionsKey tsHash) raw (sound m) =
      (.ok (.ok (bw ++ [(interactionsKey tsHash, raw)])), sound m) := rfl
  rw [storeInteractions, hraw]
  exact (bind_of_ok hset).trans setAll_sound

theorem storeRecord_sound {key raw : Bytes} :
    storeRecord bw key (.ok raw) (sound m) = (.ok (.ok (bw ++ [(key, raw)])), sound m) := rfl

/-- On a store that does not fail a tesseract that can be encoded is stored. -/
theorem storeTesseract_sound (e : Encoding E t) :
    storeTesseract E a t tsHash (sound m) =
      (.ok (updateInclusivity a t.participants), sound (putAll m (e.writes tsHash))) := by
  have hdata : addTesseractData E [] t tsHash (sound m) =
      (.ok (.ok (e.writes tsHash)), sound m) := by
    have hset : set [] (tesseractKey tsHash) e.tesseract (sound m) =
        (.ok (.ok [(tesseractKey tsHash, e.tesseract)]), sound m) := rfl
    rw [addTesseractData, e.tesseract_eq]
    refine (bind_of_ok hset).trans ?_
    refine (bind_of_ok (storeInteractions_sound e.interactions_eq)).trans ?_
    simp only [storeReceipts, storeCommitInfo, e.receipts_eq, e.commitInfo_eq]
    refine (bind_of_ok storeRecord_sound).trans ?_
    refine storeRecord_sound.trans ?_
    simp [Encoding.writes]
  have hflush : flush (e.writes tsHash) (sound m) =
      (.ok none, sound (putAll m (e.writes tsHash))) := rfl
  refine (bind_of_ok hdata).trans ?_
  exact (bind_of_ok hflush).trans rfl

end

end ChainManager

end GoMoi
