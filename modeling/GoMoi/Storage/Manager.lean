/-
  File:      GoMoi/Storage/Manager.lean
  Subject:   The database of a node as the chain manager uses it (`storage/manager.go` over
             `storage/db/badger/badger_db.go`).

  * `Disk` -- byte strings under byte strings, every operation of which can fail;
  * `Disk.get`, `insert`, `update`, `has`, `set`, `flush` -- the operations of the wrapper around
    the store. `insert` looks before it writes: it never changes an entry;
  * `updateAccMetaInfo` and `hasAccMetaInfoAt` -- the account meta information, with the height
    up to which an account is stored;
  * `HasMetaAt` -- the entries give an account a height of at least `height`. An update keeps it for
    every account (`updateAccMetaInfo_keeps_meta`) and, once it has returned without an error, has
    made it true of its own (`wp_updateAccMetaInfo`).

  The encoding of a record is a package of its own; what is assumed of it stands in `MetaCodec`.
-/
import GoMoi.Lib.FaultyStore
import GoMoi.Storage.Keys
import GoMoi.Consensus.Participants

namespace GoMoi

open Proc List

/-! ## 1. The store -/

/-- The database. -/
abbrev Disk : Type := FaultyStore Bytes Bytes

/-- The entries of the database. -/
abbrev Entries : Type := GoMap Bytes Bytes

/-- The writes of a batch that is not flushed yet. -/
abbrev Batch : Type := List (Bytes × Bytes)

/-- `errors.Wrap(common.ErrDBCallFailed, err.Error())`. -/
def dbCallFailed (f : Fault) : Err := .wrap (.sentinel .errDBCallFailed) f.text

namespace Disk

open FaultyStore

/-- `Get`. -/
def get (key : Bytes) : Proc Disk (Except Err Bytes) := do
  match ← read key with
  | .error f => pure (.error (dbCallFailed f))
  | .ok none => pure (.error (.sentinel .errKeyNotFound))
  | .ok (some value) => pure (.ok value)

/-- `GetIXLookup`: the tesseract of an interaction, under the bare hash of the interaction. -/
def getIXLookup (ixHash : Hash) : Proc Disk (Except Err Bytes) := get ixHash.bytes

/-- `Update`. -/
def update (key value : Bytes) : Proc Disk (Option Err) := do
  match ← write key value with
  | some f => pure (some (dbCallFailed f))
  | none => pure none

/-- `Insert`; a failure of the read is wrapped a second time. -/
def insert (key value : Bytes) : Proc Disk (Option Err) := do
  match ← read key with
  | .error f =>
    pure (some (.wrap (.sentinel .errDBCallFailed) (f.text ++ ": db call failed")))
  | .ok (some data) => pure (if data = value then none else some (.sentinel .errKeyExists))
  | .ok none => update key value

/-- `Has`. -/
def has (key : Bytes) : Proc Disk (Bool × Option Err) := do
  match ← read key with
  | .error f => pure (false, some (.wrap (.new f.text) "Could not read from BadgerDB"))
  | .ok value => pure (value.isSome, none)

/-- `BatchWriter.Set`. -/
def set (bw : Batch) (key value : Bytes) : Proc Disk (Except Err Batch) := do
  match ← stage bw key value with
  | .error f => pure (.error (.new f.text))
  | .ok bw => pure (.ok bw)

/-- `BatchWriter.Flush`. -/
def flush (bw : Batch) : Proc Disk (Option Err) := do
  match ← commit bw with
  | some f => pure (some (.new f.text))
  | none => pure none

/-- A loop of `BatchWriter.Set`, with what it makes of an error. -/
def setAll {α : Type} (entry : α → Bytes × Bytes) (failed : α → Err → Err) :
    List α → Batch → Proc Disk (Except Err Batch)
  | [], bw => pure (.ok bw)
  | x :: xs, bw => do
    match ← set bw (entry x).1 (entry x).2 with
    | .error e => pure (.error (failed x e))
    | .ok bw => setAll entry failed xs bw

/-- The loop of `BatchWriter.Set` and the `Flush` of `SetMerkleTreeEntries` and
    `WritePreImages`. -/
def writeBatch (ws : List (Bytes × Bytes)) : Proc Disk (Option Err) := do
  match ← setAll (fun w => w) (fun _ e => e) ws [] with
  | .error e => pure (some e)
  | .ok bw => flush bw

section

variable {I : Entries → Prop} {R : Disk → Prop} {s : Disk} {key value : Bytes} {bw : Batch}

theorem get_keeps (key : Bytes) : Keeps I (get key) := by
  refine .bind (.read key) fun r => ?_
  rcases r with f | v
  · exact .pure _
  cases v <;> exact .pure _

theorem update_keeps (h : ∀ m, I m → I (m.insert key value)) : Keeps I (update key value) := by
  refine .bind (.write h) fun r => ?_
  cases r <;> exact .pure _

/-- A write that cannot be staged leaves some first writes of the batch behind. -/
theorem wp_set {Q : Except Err Batch → Disk → Prop}
    (herr : ∀ e n fs, Q (.error e) ⟨putAll s.entries (bw.take n), fs⟩)
    (hok : ∀ fs, Q (.ok (bw ++ [(key, value)])) ⟨s.entries, fs⟩) : wp (set bw key value) Q R s := by
  unfold set
  rw [wp_bind]
  exact wp_stage (fun f fs => herr _ f.landed fs) hok

variable {Q : Option Err → Disk → Prop} {ws : List (Bytes × Bytes)}

theorem wp_flush (herr : ∀ e n fs, Q (some e) ⟨putAll s.entries (bw.take n), fs⟩)
    (hok : ∀ fs, Q none ⟨putAll s.entries bw, fs⟩) : wp (flush bw) Q R s := by
  unfold flush
  rw [wp_bind]
  exact wp_commit (fun f fs => herr _ f.landed fs) hok

variable {α : Type} {entry : α → Bytes × Bytes} {xs : List α}

/-- The loop ends with all its writes in the batch, or with some first writes made. -/
theorem wp_setAll {failed : α → Err → Err} {Q : Except Err Batch → Disk → Prop}
    (herr : ∀ e n fs, Q (.error e) ⟨putAll s.entries ((bw ++ xs.map entry).take n), fs⟩)
    (hok : ∀ fs, Q (.ok (bw ++ xs.map entry)) ⟨s.entries, fs⟩) :
    wp (setAll entry failed xs bw) Q R s := by
  induction xs generalizing bw s with
  | nil =>
    have hs := hok s.faults
    rw [map_nil, append_nil] at hs
    exact hs
  | cons x xs ih =>
    unfold setAll
    rw [wp_bind]
    refine wp_set (fun e n fs => ?_) fun fs => ?_
    · have hn := herr (failed x e) (min n bw.length) fs
      rw [take_append_of_le_length (Nat.min_le_right _ _), ← take_eq_take_min] at hn
      exact hn
    have happend : bw ++ [entry x] ++ xs.map entry = bw ++ (x :: xs).map entry := by simp
    refine ih (fun e n fs => ?_) fun fs => ?_
    · rw [happend]
      exact herr e n fs
    · rw [happend]
      exact hok fs

/-- On a store that does not fail every write gets into the batch. -/
theorem setAll_sound {failed : α → Err → Err} {m : Entries} :
    setAll entry failed xs bw (sound m) = (.ok (.ok (bw ++ xs.map entry)), sound m) := by
  induction xs generalizing bw with
  | nil =>
    rw [map_nil, append_nil]
    rfl
  | cons x xs ih =>
    have hset : set bw (entry x).1 (entry x).2 (sound m) =
        (.ok (.ok (bw ++ [entry x])), sound m) := rfl
    refine (bind_of_ok hset).trans (ih.trans ?_)
    rw [map_cons, append_assoc, singleton_append]

theorem wp_writeBatch (herr : ∀ e n fs, Q (some e) ⟨putAll s.entries (ws.take n), fs⟩)
    (hok : ∀ fs, Q none ⟨putAll s.entries ws, fs⟩) : wp (writeBatch ws) Q R s := by
  unfold writeBatch
  rw [wp_bind]
  refine wp_setAll (fun e n fs => ?_) fun fs => ?_
  · rw [nil_append, map_id']
    exact herr e n fs
  · rw [nil_append, map_id']
    exact wp_flush herr hok

theorem writeBatch_keeps (h : ∀ w ∈ ws, ∀ m, I m → I (m.insert w.1 w.2)) :
    Keeps I (writeBatch ws) := by
  intro s hs
  refine Keeps.of_wp (wp_writeBatch (fun e n fs => ?_) fun fs => ?_)
  · exact putAll_induction (fun w hw => h w (mem_of_mem_take hw)) hs
  · exact putAll_induction h hs

/-- What a read can answer: an error that does not say "not found", or the entry. -/
theorem wp_get {Q : Except Err Bytes → Disk → Prop}
    (hfault : ∀ f fs, Q (.error (dbCallFailed f)) ⟨s.entries, fs⟩)
    (hnone : s.entries.lookup key = none →
      ∀ fs, Q (.error (.sentinel .errKeyNotFound)) ⟨s.entries, fs⟩)
    (hsome : ∀ v, s.entries.lookup key = some v → ∀ fs, Q (.ok v) ⟨s.entries, fs⟩) :
    wp (get key) Q R s := by
  unfold get
  rw [wp_bind]
  refine wp_read hfault fun fs => ?_
  cases hl : s.entries.lookup key with
  | none => exact hnone hl fs
  | some v => exact hsome v hl fs

/-- An entry is found only if it is there; a failure finds none. -/
theorem wp_has {Q : Bool × Option Err → Disk → Prop} (hfalse : ∀ e fs, Q (false, e) ⟨s.entries, fs⟩)
    (htrue : (s.entries.lookup key).isSome = true → ∀ fs, Q (true, none) ⟨s.entries, fs⟩) :
    wp (has key) Q R s := by
  unfold has
  rw [wp_bind]
  refine wp_read (fun f fs => hfalse _ fs) fun fs => ?_
  show Q _ _
  cases hl : (s.entries.lookup key).isSome with
  | false => exact hfalse none fs
  | true => exact htrue hl fs

theorem wp_update (hfault : ∀ e fs, Q (some e) ⟨s.entries, fs⟩)
    (hwrite : ∀ fs, Q none ⟨s.entries.insert key value, fs⟩) : wp (update key value) Q R s := by
  unfold update
  rw [wp_bind]
  exact wp_write (fun f fs => hfault _ fs) hwrite

/-- **An insertion that returns without an error leaves its entry**, and no other one changed; one
    with an error leaves all as they were. -/
theorem wp_insert (herr : ∀ e fs, Q (some e) ⟨s.entries, fs⟩)
    (hthere : s.entries.lookup key = some value → ∀ fs, Q none ⟨s.entries, fs⟩)
    (hnew : s.entries.lookup key = none → ∀ fs, Q none ⟨s.entries.insert key value, fs⟩) :
    wp (insert key value) Q R s := by
  unfold insert
  rw [wp_bind]
  refine wp_read (fun f fs => herr _ fs) fun fs => ?_
  rcases hl : s.entries.lookup key with _ | data
  · exact wp_update herr (hnew hl)
  show Q _ _
  by_cases hd : data = value
  · rw [if_pos hd]
    exact hthere (hd ▸ hl) fs
  · rw [if_neg hd]
    exact herr _ fs

/-- **An insertion keeps every property that a new entry keeps.** -/
theorem insert_keeps (h : ∀ m, m.lookup key = none → I m → I (m.insert key value)) :
    Keeps I (insert key value) := by
  intro s hs
  refine Keeps.of_wp (wp_insert (fun e fs => ?_) (fun _ fs => ?_) fun hnone fs => ?_)
  · exact hs
  · exact hs
  · exact h _ hnone hs

end

end Disk

/-! ## 2. Account meta information -/

/-- `type AccountMetaInfo struct`, with the fields that consensus does not read. -/
structure AccountMetaRecord extends AccountMetaInfo where
  type : AccountType
  stateHash : Hash
  consensusNodesHash : Hash
  positionInContextSet : Int
  deriving DecidableEq, Repr

/-- The encoding of the records: what is encoded can be decoded. -/
structure MetaCodec where
  polorize : AccountMetaRecord → Except Err Bytes
  depolorize : Bytes → Except Err AccountMetaRecord
  depolorize_polorize : ∀ r raw, polorize r = .ok raw → depolorize raw = .ok r

namespace MetaCodec

/-- `AccountMetaInfo.Bytes`. -/
def bytes (E : MetaCodec) (r : AccountMetaRecord) : Except Err Bytes :=
  match E.polorize r with
  | .error e => .error (.wrap e "failed to polorize account meta info")
  | .ok raw => .ok raw

/-- `AccountMetaInfo.FromBytes`. -/
def fromBytes (E : MetaCodec) (raw : Bytes) : Except Err AccountMetaRecord :=
  match E.depolorize raw with
  | .error e => .error (.wrap e "failed to depolorize account meta info")
  | .ok r => .ok r

theorem fromBytes_bytes {E : MetaCodec} {r : AccountMetaRecord} {raw : Bytes}
    (h : E.bytes r = .ok raw) : E.fromBytes raw = .ok r := by
  unfold bytes at h
  rcases hp : E.polorize r with e | _
  · rw [hp] at h
    cases h
  rw [hp] at h
  cases h
  rw [fromBytes, E.depolorize_polorize r raw hp]

end MetaCodec

/-- The encoding that knows one record. -/
def MetaCodec.single (r : AccountMetaRecord) : MetaCodec where
  polorize r' := if r' = r then .ok [1] else .error (.new "unsupported")
  depolorize raw := if raw = [1] then .ok r else .error (.new "malformed")
  depolorize_polorize := by
    intro r' raw h
    split at h
    case isTrue hr =>
      cases h
      rw [hr]
      rfl
    case isFalse => cases h

/-- The arguments of `UpdateAccMetaInfo`. -/
structure MetaUpdate where
  id : Identifier
  height : UInt64
  tesseractHash : Hash
  stateHash : Hash
  contextHash : Hash
  consensusNodesHash : Hash
  inheritedAccount : Identifier
  commitHash : Hash
  accType : AccountType
  shouldUpdateContextSetPosition : Bool
  positionInContextSet : Int

namespace MetaUpdate

/-- The record of an account that has none. -/
def fresh (u : MetaUpdate) : AccountMetaRecord where
  type := u.accType
  id := u.id
  inheritedAccount := u.inheritedAccount
  height := u.height
  tesseractHash := u.tesseractHash
  stateHash := u.stateHash
  consensusNodesHash := u.consensusNodesHash
  contextHash := u.contextHash
  commitHash := u.commitHash
  positionInContextSet := u.positionInContextSet

/-- The record of an account that has one: nothing is assigned below its height. -/
def applied (u : MetaUpdate) (r : AccountMetaRecord) : AccountMetaRecord :=
  if r.height ≤ u.height then
    { r with
      tesseractHash := u.tesseractHash
      stateHash := u.stateHash
      contextHash := u.contextHash
      id := u.id
      height := u.height
      commitHash := u.commitHash
      positionInContextSet :=
        if u.shouldUpdateContextSetPosition then u.positionInContextSet else r.positionInContextSet
      consensusNodesHash :=
        if u.consensusNodesHash.isNil then r.consensusNodesHash else u.consensusNodesHash }
  else r

/-- The record after the update. -/
def onto (u : MetaUpdate) : Option AccountMetaRecord → AccountMetaRecord
  | none => u.fresh
  | some r => u.applied r

theorem applied_height (u : MetaUpdate) (r : AccountMetaRecord) :
    u.height ≤ (u.applied r).height ∧ r.height ≤ (u.applied r).height := by
  unfold applied
  split
  case isTrue h => exact ⟨UInt64.le_refl _, h⟩
  case isFalse h =>
    have hlt : u.height.toNat < r.height.toNat := by
      rw [UInt64.le_iff_toNat_le] at h
      omega
    refine ⟨?_, UInt64.le_refl _⟩
    rw [UInt64.le_iff_toNat_le]
    omega

end MetaUpdate

namespace Disk

variable (E : MetaCodec)

/-- `GetAccountMetaInfo`: a failed read is an account that is not there. -/
def getAccountMetaInfo (id : Identifier) : Proc Disk (Except Err AccountMetaRecord) := do
  match ← get (bucketKey id) with
  | .error _ => pure (.error (.sentinel .errAccountNotFound))
  | .ok data => pure (E.fromBytes data)

/-- `HasAccMetaInfoAt`. -/
def hasAccMetaInfoAt (id : Identifier) (height : UInt64) : Proc Disk Bool := do
  match ← getAccountMetaInfo E id with
  | .error _ => pure false
  | .ok r => pure (decide (height ≤ r.height))

/-- `incrementBucketCount`; the stored count is read with `binary.BigEndian.Uint64`. -/
def incrementBucketCount (bucket count : Nat) : Proc Disk (Option Err) := do
  match ← get (bucketCountKey bucket) with
  | .ok data =>
    if data.length < 8 then ofGo (.error .indexOutOfRange)
    else update (bucketCountKey bucket) (bigEndian 8 (ofBigEndian (data.take 8) + count))
  | .error e =>
    if e.is .errKeyNotFound then insert (bucketCountKey bucket) (bigEndian 8 count)
    else pure (some e)

/-- The new account of `UpdateAccMetaInfo`. -/
def createAccMetaInfo (u : MetaUpdate) : Proc Disk (Int × Bool × Option Err) :=
  match E.bytes u.fresh with
  | .error e => pure (-1, false, some e)
  | .ok rawData => do
    match ← insert (bucketKey u.id) rawData with
    | some e => pure (-1, false, some e)
    | none => do
      match ← incrementBucketCount (bucketOf u.id) 1 with
      | some _ => ofGo (.error (.explicit "incrementBucketCount"))
      | none => pure (bucketOf u.id, true, none)

/-- The known account of `UpdateAccMetaInfo`. -/
def renewAccMetaInfo (u : MetaUpdate) (data : Bytes) : Proc Disk (Int × Bool × Option Err) :=
  match E.fromBytes data with
  | .error e => pure (-1, false, some e)
  | .ok r =>
    if u.height = r.height ∧ u.tesseractHash ≠ r.tesseractHash then
      pure (-1, false, some (.sentinel .errHashMismatch))
    else
      match E.bytes (u.applied r) with
      | .error e => pure (-1, false, some e)
      | .ok rawData => do
        let err ← update (bucketKey u.id) rawData
        pure (bucketOf u.id, false, err)

/-- `UpdateAccMetaInfo`. -/
def updateAccMetaInfo (u : MetaUpdate) : Proc Disk (Int × Bool × Option Err) :=
  if u.id = nilIdentifier then pure (0, false, some (.sentinel .errInvalidIdentifier))
  else if u.tesseractHash.isNil then pure (0, false, some (.sentinel .errEmptyHash))
  else do
    match ← get (bucketKey u.id) with
    | .ok data => renewAccMetaInfo E u data
    | .error e =>
      if e.is .errKeyNotFound then createAccMetaInfo E u else pure (-1, false, some e)

end Disk

/-! ## 3. What the entries say about an account -/

/-- The meta information of an account, if it can be read. -/
def metaOf (E : MetaCodec) (m : Entries) (id : Identifier) : Option AccountMetaRecord :=
  (m.lookup (bucketKey id)).bind fun data => (E.fromBytes data).toOption

/-- The account is stored up to `height`. -/
def HasMetaAt (E : MetaCodec) (m : Entries) (id : Identifier) (height : UInt64) : Prop :=
  ∃ r, metaOf E m id = some r ∧ height ≤ r.height

/-- What `m` says is stored, `m'` says too. -/
def MetaGrown (E : MetaCodec) (m m' : Entries) : Prop :=
  ∀ id height, HasMetaAt E m id height → HasMetaAt E m' id height

theorem MetaGrown.rfl {E : MetaCodec} {m : Entries} : MetaGrown E m m := fun _ _ h => h

section

variable {E : MetaCodec} {m m' : Entries} {id : Identifier} {height : UInt64} {key value : Bytes}

theorem HasMetaAt.congr (h : HasMetaAt E m id height)
    (heq : m'.lookup (bucketKey id) = m.lookup (bucketKey id)) : HasMetaAt E m' id height := by
  obtain ⟨r, hr, hle⟩ := h
  refine ⟨r, ?_, hle⟩
  rw [metaOf, heq]
  exact hr

theorem HasMetaAt.insert_ne (h : HasMetaAt E m id height) (hne : bucketKey id ≠ key) :
    HasMetaAt E (m.insert key value) id height :=
  h.congr (AList.lookup_insert_ne hne)

variable {r : AccountMetaRecord}

theorem metaOf_insert_ne (hne : bucketKey id ≠ key) :
    metaOf E (m.insert key value) id = metaOf E m id := by
  rw [metaOf, AList.lookup_insert_ne hne]
  rfl

/-- A record written for an account. -/
theorem metaOf_insert (hraw : E.bytes r = .ok value) :
    metaOf E (m.insert (bucketKey id) value) id = some r := by
  rw [metaOf, AList.lookup_insert, Option.bind_some, MetaCodec.fromBytes_bytes hraw]
  rfl

/-- A record that takes the place of an older one. -/
theorem metaGrown_insert (hraw : E.bytes r = .ok value)
    (hold : ∀ r', metaOf E m id = some r' → r'.height ≤ r.height) :
    MetaGrown E m (m.insert (bucketKey id) value) := by
  intro id' height' h
  by_cases hid : id' = id
  · subst hid
    obtain ⟨r', hr', hle⟩ := h
    exact ⟨r, metaOf_insert hraw, UInt64.le_trans hle (hold r' hr')⟩
  · exact h.insert_ne fun heq => hid (bucketKey_inj heq)

end

namespace Disk

open FaultyStore

variable {E : MetaCodec} {s : Disk} {I : Entries → Prop}

/-- The answer is `true` only if the entries say so; a failure answers `false`. -/
theorem wp_hasAccMetaInfoAt {id : Identifier} {height : UInt64} {Q : Bool → Disk → Prop}
    {R : Disk → Prop} (hfalse : ∀ fs, Q false ⟨s.entries, fs⟩)
    (htrue : HasMetaAt E s.entries id height → ∀ fs, Q true ⟨s.entries, fs⟩) :
    wp (hasAccMetaInfoAt E id height) Q R s := by
  unfold hasAccMetaInfoAt getAccountMetaInfo
  simp only [wp_bind]
  refine wp_get (fun f fs => hfalse fs) (fun _ fs => hfalse fs) fun v hv fs => ?_
  show wp _ Q R _
  rcases hr : E.fromBytes v with e | r
  · exact hfalse fs
  show Q _ _
  by_cases hle : height ≤ r.height
  · rw [decide_eq_true hle]
    refine htrue ⟨r, ?_, hle⟩ fs
    rw [metaOf, hv, Option.bind_some, hr]
    rfl
  · rw [decide_eq_false hle]
    exact hfalse fs

/-- On a store that does not fail the answer is that of the entries. -/
theorem hasAccMetaInfoAt_sound {m : Entries} {id : Identifier} {height : UInt64} :
    ∃ b, hasAccMetaInfoAt E id height (sound m) = (.ok b, sound m) ∧
      (b = true ↔ HasMetaAt E m id height) := by
  refine ⟨(metaOf E m id).any (height ≤ ·.height), ?_, ?_⟩
  · rcases hl : m.lookup (bucketKey id) with _ | v
    · simp [hasAccMetaInfoAt, getAccountMetaInfo, get, bind, metaOf, hl, pure]
    cases hd : E.fromBytes v <;>
      simp [hasAccMetaInfoAt, getAccountMetaInfo, get, bind, metaOf, hl, hd, pure, Except.toOption]
  · simp [HasMetaAt, Option.any_eq_true]

theorem incrementBucketCount_keeps {bucket count : Nat}
    (h : ∀ m v, I m → I (m.insert (bucketCountKey bucket) v)) :
    Keeps I (incrementBucketCount bucket count) := by
  refine .bind (get_keeps _) fun r => ?_
  cases r with
  | ok data => exact .ite (.ofGo _) (update_keeps fun m => h m _)
  | error e => exact .ite (insert_keeps fun m _ => h m _) (.pure _)

/-- After an update: nothing is forgotten, and without an error its own height is stored. -/
def Renewed (E : MetaCodec) (u : MetaUpdate) (m : Entries) (err : Option Err) (m' : Entries) :
    Prop :=
  MetaGrown E m m' ∧ (err = none → HasMetaAt E m' u.id u.height)

/-- ... and the record is that of the update. -/
def Updated (E : MetaCodec) (u : MetaUpdate) (m : Entries) (err : Option Err) (m' : Entries) :
    Prop :=
  MetaGrown E m m' ∧ (err = none → metaOf E m' u.id = some (u.onto (metaOf E m u.id)))

variable {u : MetaUpdate}

theorem Updated.failed {m : Entries} (e : Err) : Updated E u m (some e) m :=
  ⟨.rfl, nofun⟩

theorem Updated.renewed {m m' : Entries} {err : Option Err} (h : Updated E u m err m') :
    Renewed E u m err m' := by
  refine ⟨h.1, fun hnone => ⟨_, h.2 hnone, ?_⟩⟩
  cases metaOf E m u.id with
  | none => exact UInt64.le_refl _
  | some r => exact (u.applied_height r).1

open Disk.Updated

theorem wp_createAccMetaInfo (hnone : s.entries.lookup (bucketKey u.id) = none) :
    wp (createAccMetaInfo E u) (fun r s' => Updated E u s.entries r.2.2 s'.entries)
      (fun s' => MetaGrown E s.entries s'.entries) s := by
  unfold createAccMetaInfo
  rcases hraw : E.bytes u.fresh with e | rawData
  · exact failed e
  simp only [wp_bind]
  have hmeta : metaOf E s.entries u.id = none := by
    rw [metaOf, hnone]
    rfl
  have hnew : MetaGrown E s.entries (s.entries.insert (bucketKey u.id) rawData) := by
    refine metaGrown_insert hraw fun r' hr' => ?_
    rw [hmeta] at hr'
    cases hr'
  refine wp_insert (fun e fs => failed e) (fun hthere => ?_) fun _ fs => ?_
  · rw [hnone] at hthere
    cases hthere
  -- the count of the bucket lies under a key of another length
  have hne : ∀ id, bucketKey id ≠ bucketCountKey (bucketOf u.id) :=
    fun id => ne_of_apply_ne List.length (by simp)
  have hcount : Keeps (fun m => MetaGrown E s.entries m ∧ metaOf E m u.id = some u.fresh)
      (incrementBucketCount (bucketOf u.id) 1) :=
    incrementBucketCount_keeps fun m v hm =>
      ⟨fun id h hh => (hm.1 id h hh).insert_ne (hne id), (metaOf_insert_ne (hne u.id)).trans hm.2⟩
  rw [wp_bind]
  refine wp_mono (hcount.to_wp ⟨hnew, metaOf_insert hraw⟩)
    (fun r s' hs' => ?_) fun s' hs' => hs'.1
  cases r with
  | none => exact ⟨hs'.1, fun _ => hmeta ▸ hs'.2⟩
  | some e => exact wp_ofGo.mpr ⟨(by simp), fun _ _ => hs'.1⟩

theorem wp_renewAccMetaInfo {data : Bytes} (hdata : s.entries.lookup (bucketKey u.id) = some data) :
    wp (renewAccMetaInfo E u data) (fun r s' => Updated E u s.entries r.2.2 s'.entries)
      (fun s' => MetaGrown E s.entries s'.entries) s := by
  unfold renewAccMetaInfo
  rcases hr : E.fromBytes data with e | r
  · exact failed e
  have hmeta : metaOf E s.entries u.id = some r := by
    rw [metaOf, hdata, Option.bind_some, hr]
    rfl
  simp only [wp_ite, wp_pure]
  refine ⟨fun _ => failed _, fun _ => ?_⟩
  rcases hraw : E.bytes (u.applied r) with e | _
  · exact failed e
  simp only [wp_bind, wp_pure]
  refine wp_update (fun e fs => failed e) fun fs => ?_
  refine ⟨metaGrown_insert hraw fun r' hr' => ?_, fun _ => hmeta ▸ metaOf_insert hraw⟩
  cases hmeta.symm.trans hr'
  exact (u.applied_height r).2

/-- **What an update does.** -/
theorem wp_updateAccMetaInfo_onto (u : MetaUpdate) (s : Disk) :
    wp (updateAccMetaInfo E u) (fun r s' => Updated E u s.entries r.2.2 s'.entries)
      (fun s' => MetaGrown E s.entries s'.entries) s := by
  unfold updateAccMetaInfo
  simp only [wp_ite, wp_bind, wp_pure]
  refine ⟨fun _ => failed _, fun _ => ⟨fun _ => failed _, fun _ => ?_⟩⟩
  refine wp_get (fun f fs => failed _) (fun hnone fs => ?_) fun data hdata fs => ?_
  · exact wp_createAccMetaInfo hnone
  · exact wp_renewAccMetaInfo hdata

/-- **An update keeps what is stored, and without an error has stored its own height.** -/
theorem wp_updateAccMetaInfo (u : MetaUpdate) (s : Disk) :
    wp (updateAccMetaInfo E u) (fun r s' => Renewed E u s.entries r.2.2 s'.entries)
      (fun s' => MetaGrown E s.entries s'.entries) s :=
  wp_post (wp_updateAccMetaInfo_onto u s) fun _ _ h => h.renewed

/-- **An update touches two entries**: the record and the count of its bucket. -/
theorem updateAccMetaInfo_keeps (hrecord : ∀ m v, I m → I (m.insert (bucketKey u.id) v))
    (hcount : ∀ m v, I m → I (m.insert (bucketCountKey (bucketOf u.id)) v)) :
    Keeps I (updateAccMetaInfo E u) := by
  refine .ite (.pure _) (.ite (.pure _) (.bind (get_keeps _) fun r => ?_))
  rcases r with e | data
  swap
  · show Keeps I (renewAccMetaInfo E u data)
    unfold renewAccMetaInfo
    rcases E.fromBytes data with e | r
    · exact .pure _
    refine .ite (.pure _) ?_
    cases E.bytes (u.applied r) with
    | error e => exact .pure _
    | ok rawData => exact .bind (update_keeps fun m => hrecord m _) .pure
  refine .ite ?_ (.pure _)
  unfold createAccMetaInfo
  rcases E.bytes u.fresh with e | _
  · exact .pure _
  refine .bindErr (insert_keeps fun m _ => hrecord m _) (fun _ => .pure _) ?_
  exact .bindErr (incrementBucketCount_keeps hcount) (fun _ => .ofGo _) (.pure _)

end Disk

end GoMoi
