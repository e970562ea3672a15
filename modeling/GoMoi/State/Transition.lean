/-
  File:      GoMoi/State/Transition.lean
  Subject:   The objects an execution works on (`state/transition.go`): calls on them, the snapshot,
             and what can be observed of them.

  A transition holds pointers to objects. `Snapshot` makes a copy of each and puts the pointers to
  the copies into a transition of its own; `UpdateSnapshot` lets the transition hold those instead.
  Who holds a pointer to one of the old objects keeps it.

  * `Memory` -- all objects, and the memory of their assets; `Memory.call` -- a method called on the
    object behind a pointer;
  * `ObjectOp` -- the methods that change an object, as data, with `Object.run`; `TransitionOp` --
    one of them on an object of the transition;
  * `Observation` -- what the readers of an object return.
-/
import GoMoi.Common.Receipt
import GoMoi.State.Balance

namespace GoMoi

/-! ## 1. Memory and transition -/

/-- All state objects, and the memory of their assets. -/
structure Memory where
  objects : Cells Object
  heap : Heap

/-- A method called on the object behind a pointer. -/
def Memory.call {A : Type} (p : Ptr Object) (x : Method A) : Proc Memory A := fun m =>
  match m.objects.read p with
  | none => (.error .nilDeref, m)
  | some object =>
    ((x ⟨object, m.heap⟩).1,
      { objects := m.objects.modify p fun _ => (x ⟨object, m.heap⟩).2.object
        heap := (x ⟨object, m.heap⟩).2.heap })

/-- `type Transition struct`. -/
structure Transition where
  objects : GoMap Identifier (Ptr Object)
  systemObject : Option (Ptr Object)
  auxiliaryObjects : GoMap Identifier (Ptr Object)
  receipts : Receipts

/-- `object.Copy()`, in memory. -/
def copyObject (p : Ptr Object) (c : Cells Object) : Ptr Object × Cells Object :=
  match c.read p with
  | none => (p, c)
  | some object => c.alloc object.copy

namespace Transition

/-- `Snapshot`. The auxiliary objects are no part of it. -/
def snapshot (t : Transition) (m : Memory) : Transition × Memory :=
  let objects := t.objects.mapState (fun _ => copyObject) m.objects
  let system := match t.systemObject with
    | none => (none, objects.2)
    | some p => (some (copyObject p objects.2).1, (copyObject p objects.2).2)
  ({ objects := objects.1, systemObject := system.1, auxiliaryObjects := ∅
     receipts := t.receipts }, { m with objects := system.2 })

/-- `UpdateSnapshot`. -/
def updateSnapshot (t snap : Transition) : Transition :=
  { t with objects := snap.objects, systemObject := snap.systemObject, receipts := snap.receipts }

end Transition

/-! ## 2. Operations on the objects -/

/-- The calls that change an object, with their arguments. An amount is made for the call. -/
inductive ObjectOp where
  | addBalance (assetID : AssetID) (tokenID : TokenID) (value : Int)
    (metadata : Option (Ptr MetaData))
  | subBalance (assetID : AssetID) (tokenID : TokenID) (value : Int)
  | createLockup (assetID : AssetID) (tokenID : TokenID) (beneficiary : Identifier) (value : Int)
  | releaseLockup (assetID : AssetID) (tokenID : TokenID) (beneficiary : Identifier) (value : Int)
  | createMandate (assetID : AssetID) (tokenID : TokenID) (beneficiary : Identifier) (value : Int)
      (expiresAt : UInt64)
  | subMandateBalance (assetID : AssetID) (tokenID : TokenID) (operatorID : Identifier)
    (value : Int)
  | deleteMandate (assetID : AssetID) (tokenID : TokenID) (beneficiary : Identifier)
  | setAssetMetadata (assetID : AssetID) (isStatic : Bool) (key value : Bytes)
  | setTokenMetadata (assetID : AssetID) (tokenID : TokenID) (isStatic : Bool) (key value : Bytes)
  | createAsset (descriptor : AssetDescriptor)
  | mintAsset (assetID : AssetID) (value : Int)
  | burnAsset (assetID : AssetID) (value : Int)
  | updateKeys (keys : AccountKeys)
  | appendAccountKeys (keys : AccountKeys)
  | incrementSequenceID (keyID : UInt64)
  | revokeAccountKeys (keyIDs : List UInt64)
  | createDeedsEntry (key : Identifier)
  | updateSubAccount (subAccount targetAccount : Identifier)
  | subAccountCount
  | updateInheritedAccount (inheritedAccount : Identifier)
  | createContext (consensusNodes : List KramaID)
  | updateContext (consensusNodes : List KramaID)
  | setStorageEntry (logicID : LogicID) (key value : Bytes)
  | getStorageEntry (logicID : LogicID) (key : Bytes)
  | createLogic (descriptor : LogicDescriptor)

/-- A result that is dropped. -/
def Proc.drop {S A : Type} (x : Proc S A) : Proc S Unit := do
  let _ ← x
  return ()

namespace Object

/-- The call that an operation stands for; results are dropped. -/
def run (B : Backend) : ObjectOp → Method Unit
  | .addBalance assetID tokenID value metadata => do
    (addBalance B assetID tokenID (← newAmount value) metadata).drop
  | .subBalance assetID tokenID value => do
    (subBalance B assetID tokenID (← newAmount value)).drop
  | .createLockup assetID tokenID beneficiary value => do
    (createLockup B assetID tokenID beneficiary (← newAmount value)).drop
  | .releaseLockup assetID tokenID beneficiary value => do
    (releaseLockup B assetID tokenID beneficiary (← newAmount value)).drop
  | .createMandate assetID tokenID beneficiary value expiresAt => do
    (createMandate B assetID tokenID beneficiary (← newAmount value) expiresAt).drop
  | .subMandateBalance assetID tokenID operatorID value => do
    (subMandateBalance B assetID tokenID operatorID (← newAmount value)).drop
  | .deleteMandate assetID tokenID beneficiary =>
    (deleteMandate B assetID tokenID beneficiary).drop
  | .setAssetMetadata assetID isStatic key value =>
    (setAssetMetadata B assetID isStatic key value).drop
  | .setTokenMetadata assetID tokenID isStatic key value =>
    (setTokenMetadata B assetID tokenID isStatic key value).drop
  | .createAsset descriptor => (createAsset B descriptor).drop
  | .mintAsset assetID value => do (mintAsset B assetID (← newAmount value)).drop
  | .burnAsset assetID value => do (burnAsset B assetID (← newAmount value)).drop
  | .updateKeys keys => updateKeys keys
  | .appendAccountKeys keys => (appendAccountKeys B keys).drop
  | .incrementSequenceID keyID => (incrementSequenceID B keyID).drop
  | .revokeAccountKeys keyIDs => (revokeAccountKeys B keyIDs).drop
  | .createDeedsEntry key => (createDeedsEntry B key).drop
  | .updateSubAccount subAccount targetAccount =>
    (updateSubAccount B subAccount targetAccount).drop
  | .subAccountCount => (subAccountCount B).drop
  | .updateInheritedAccount inheritedAccount => (updateInheritedAccount B inheritedAccount).drop
  | .createContext consensusNodes => (createContext B consensusNodes).drop
  | .updateContext consensusNodes => (updateContext B consensusNodes).drop
  | .setStorageEntry logicID key value => (setStorageEntry B logicID key value).drop
  | .getStorageEntry logicID key => (getStorageEntry B logicID key).drop
  | .createLogic descriptor => (createLogic B descriptor).drop

end Object

/-- An object of a transition. -/
inductive Target where
  | account (id : Identifier)
  | system
  deriving DecidableEq, Repr

/-- `GetObject`, `GetSystemObject`; `none` is `nil`. -/
def Transition.object? (t : Transition) : Target → Option (Ptr Object)
  | .account id => t.objects.lookup id
  | .system => t.systemObject

/-- An operation on an object of the transition. -/
structure TransitionOp where
  target : Target
  op : ObjectOp

/-- The operation carried out; on a nil object it panics. -/
def TransitionOp.run (B : Backend) (t : Transition) (e : TransitionOp) : Proc Memory Unit :=
  match t.object? e.target with
  | none => Proc.ofGo (.error .nilDeref)
  | some p => Memory.call p (Object.run B e.op)

/-! ## 3. What can be observed -/

/-- `FetchAssetObject`, seen through its pointers. The readers of balances, lockups, mandates,
    properties and metadata all read from it. -/
def Object.fetchAsset (B : Backend) (assetID : AssetID) (fromTxn : Bool) :
    Method (Except Err AssetData) := do
  match ← getAssetObject B assetID fromTxn with
  | .error e => return .error e
  | .ok p => return .ok (← Proc.ofGo (Go.deref ((← Proc.self).heap.viewAsset p)))

/-- `AccountKeys`. -/
def Object.accountKeys (B : Backend) : Method (Except Err AccountKeys) := do
  match ← ensureKeys B with
  | some err => return .error err
  | none => return .ok ((← this).keys.getD [])

/-- `Deeds`. -/
def Object.readDeeds (B : Backend) : Method (Except Err Deeds) := do
  match ← ensureDeeds B with
  | some err => return .error err
  | none => return .ok ((← this).deeds.getD ∅)

/-- `getMetaCtxObject`: sub-accounts, inherited account and consensus nodes are read from it. -/
def Object.readContext (B : Backend) : Method (Except Err MetaContext) := do
  match ← getMetaCtxObject B with
  | some err => return .error err
  | none => return .ok ((← this).metaContext.getD .zero)

/-- What the readers of an object return. -/
structure Observation where
  id : Identifier
  accType : AccountType
  data : Account
  isGenesis : Bool
  dirtyEntries : GoMap Bytes Bytes
  deeds : Go (Except Err Deeds)
  keys : Go (Except Err AccountKeys)
  context : Go (Except Err MetaContext)
  asset : AssetID → Bool → Go (Except Err AssetData)
  logic : LogicID → Except Err LogicObject
  storage : LogicID → Bytes → Go (Except Err Bytes)

/-- The readers called on an object. -/
def Receiver.observe (B : Backend) (s : Receiver) : Observation where
  id := s.object.id
  accType := s.object.accType
  data := s.object.data
  isGenesis := s.object.isGenesis
  dirtyEntries := s.object.dirtyEntries
  deeds := (Object.readDeeds B s).1
  keys := (Object.accountKeys B s).1
  context := (Object.readContext B s).1
  asset := fun assetID fromTxn => (Object.fetchAsset B assetID fromTxn s).1
  logic := Object.getLogicObject B s.object
  storage := fun logicID key => (Object.getStorageEntry B logicID key s).1

/-- What can be observed of an object of the transition. -/
def Transition.observe (B : Backend) (t : Transition) (m : Memory) (target : Target) :
    Option Observation :=
  (t.object? target).bind fun p => (m.objects.read p).map fun object =>
    Receiver.observe B ⟨object, m.heap⟩

end GoMoi
