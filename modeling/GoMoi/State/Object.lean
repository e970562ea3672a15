/-
  File:      GoMoi/State/Object.lean
  Subject:   The state object of an account (`state/object.go`, `state/context.go`,
             `state/registry.go`, `state/logic.go`): keys, deeds, context, logics and storage.

  An object holds the account as committed, and over it what was loaded or changed since. Methods
  work on the object they are called on and on the memory of the asset objects (`Receiver`); they
  return error values, and some of them panic, so they are calls of `Proc`.

  * `Backend` -- the database, the cache of contexts and the encoders. A Merkle tree is what can be
    read from it at a root; opening one is deterministic until the next commit, so opened trees are
    no part of the object, except the storage trees, which a method may replace by new ones;
  * `Object`, with `nil` and empty kept apart where the source does (`deeds`, `keys`, the
    transactions, `metaContext`);
  * `Object.copy` -- `Copy`, which shares the asset objects and leaves the context behind;
  * the methods on keys, deeds, context, storage and logics. Those on assets are in `State/Balance`.
-/
import GoMoi.Lib.Proc
import GoMoi.State.Asset

namespace GoMoi

/-! ## 1. Data -/

/-- `type Account struct`. -/
structure Account where
  accType : AccountType
  assetDeeds : Hash
  contextHash : Hash
  storageRoot : Hash
  assetRoot : Hash
  logicRoot : Hash
  fileRoot : Hash
  keysHash : Hash
  deriving DecidableEq, Repr

/-- `type AccountKey struct`. -/
structure AccountKey where
  id : UInt64
  publicKey : Bytes
  weight : UInt64
  signatureAlgorithm : UInt64
  revoked : Bool
  sequenceID : UInt64
  deriving DecidableEq, Repr

/-- `type AccountKeys []*AccountKey`. -/
abbrev AccountKeys : Type := List AccountKey

/-- `type Deeds struct`. -/
abbrev Deeds : Type := GoMap Identifier Unit

/-- `type MetaContextObject struct` with all its fields. -/
structure MetaContext extends MetaContextObject where
  subAccounts : GoMap Identifier Identifier
  inheritedAccount : Identifier
  storageContext : Hash
  computeContext : Hash
  defaultMTQ : Int32
  previousHash : Hash

namespace MetaContext

/-- `new(MetaContextObject)`. -/
def zero : MetaContext where
  consensusNodes := []
  subAccounts := ∅
  inheritedAccount := nilIdentifier
  consensusNodesHash := nilHash
  storageContext := nilHash
  computeContext := nilHash
  defaultMTQ := 0
  previousHash := nilHash

/-- `Copy`: of all fields it takes two. -/
def copy (m : MetaContext) : MetaContext :=
  { zero with computeContext := m.computeContext, defaultMTQ := m.defaultMTQ }

end MetaContext

/-- `type LogicObject struct`. -/
structure LogicObject where
  id : LogicID
  engineKind : Int
  manifest : Hash
  isSealed : Bool
  artifact : Bytes
  deriving DecidableEq, Repr

/-- The fields of `type LogicDescriptor struct` that are read here. -/
structure LogicDescriptor where
  engine : Int
  manifestHash : Hash
  manifestData : Bytes
  artifact : Bytes
  deriving DecidableEq, Repr

/-- What an object reads from: database, trees, cache and encoders. -/
structure Backend where
  /-- `GetContext` and its decoding. -/
  getContext : Identifier → Hash → Except Err MetaContext
  /-- The cache of contexts, by their hash. -/
  cachedContext : Hash → Option MetaContext
  /-- `GetAccountKeys` and its decoding. -/
  getAccountKeys : Identifier → Hash → Except Err AccountKeys
  /-- `GetDeeds` and its decoding. -/
  getDeeds : Identifier → Hash → Except Err Deeds
  /-- The asset tree at a root, and what it holds. -/
  assetTree : Identifier → Hash → Except Err (AssetID → Except Err AssetData)
  /-- The logic tree at a root, and what it holds. -/
  logicTree : Identifier → Hash → Except Err (LogicID → Except Err LogicObject)
  /-- The meta storage tree at a root: the root of each logic's storage tree. -/
  metaStorageTree : Identifier → Hash → Except Err (LogicID → Except Err Hash)
  /-- A storage tree at a root, and what it holds. -/
  storageTree : Identifier → Hash → Bytes → Except Err Bytes
  /-- `PoloHash` of consensus nodes. -/
  poloHash : List KramaID → Except Err Hash
  /-- `LogicManifestKey`, in hexadecimal. -/
  logicManifestKey : Identifier → Hash → Bytes

/-- `type Object struct`. `none` is `nil`. -/
structure Object where
  id : Identifier
  accType : AccountType
  data : Account
  isGenesis : Bool
  deeds : Option Deeds
  keys : Option AccountKeys
  storageTrees : GoMap LogicID Hash
  dirtyEntries : GoMap Bytes Bytes
  storageTreeTxns : GoMap LogicID (GoMap Bytes Bytes)
  assetTreeTxn : Option (GoMap AssetID (Ptr AssetObject))
  logicTreeTxn : Option (GoMap LogicID LogicObject)
  metaContext : Option MetaContext

/-- `NewStateObject`. -/
def newStateObject (id : Identifier) (account : Account) (isGenesis : Bool) : Object where
  id := id
  accType := account.accType
  data := account
  isGenesis := isGenesis
  deeds := none
  keys := none
  storageTrees := ∅
  dirtyEntries := ∅
  storageTreeTxns := ∅
  assetTreeTxn := none
  logicTreeTxn := none
  metaContext := none

/-- `Copy`. The transactions are immutable trees, so a copy of one holds the same values; in the
    asset transaction these are pointers. Keys are copied if there are any, the context is not. -/
def Object.copy (object : Object) : Object :=
  { newStateObject object.id object.data object.isGenesis with
    dirtyEntries := object.dirtyEntries
    keys := object.keys.bind fun keys => if keys.length > 0 then some keys else none
    assetTreeTxn := object.assetTreeTxn
    deeds := object.deeds
    storageTreeTxns := object.storageTreeTxns
    logicTreeTxn := object.logicTreeTxn
    storageTrees := object.storageTrees }

/-- What a method works on: its object, and the memory of the asset objects. -/
structure Receiver where
  object : Object
  heap : Heap

/-- A method of `Object`. -/
abbrev Method (A : Type) : Type := Proc Receiver A

namespace Object

/-- Fields of the object assigned. -/
def set (f : Object → Object) : Method Unit := Proc.assign fun s => { s with object := f s.object }

/-- The object itself. -/
def this : Method Object := do return (← Proc.self).object

variable (B : Backend)

/-! ## 2. Keys -/

/-- `loadKeys`. The slice is made before the database is asked. -/
def loadKeys : Method (Option Err) := do
  let object ← this
  set fun o => { o with keys := some [] }
  if object.data.keysHash.isNil then return none
  match B.getAccountKeys object.id object.data.keysHash with
  | .error e => return some e
  | .ok keys => do
    set fun o => { o with keys := some keys }
    return none

/-- `if object.keys == nil { if err := object.loadKeys(); … }`. -/
def ensureKeys : Method (Option Err) := do
  match (← this).keys with
  | some _ => return none
  | none => return GoError.wrapErr (← loadKeys B) "failed to load acc keys"

/-- `UpdateKeys`. -/
def updateKeys (keys : AccountKeys) : Method Unit := set fun o => { o with keys := some keys }

/-- `AppendAccountKeys`. -/
def appendAccountKeys (keys : AccountKeys) : Method (Option Err) := do
  match ← ensureKeys B with
  | some err => return some err
  | none => do
    set fun o => { o with keys := some (o.keys.getD [] ++ keys) }
    return none

/-- `object.keys[keyID]` changed in place. -/
def modifyKey (keyID : UInt64) (f : AccountKey → AccountKey) : Method Unit := do
  if keyID.toNat < ((← this).keys.getD []).length then
    set fun o => { o with keys := some ((o.keys.getD []).modify keyID.toNat f) }
  else Proc.ofGo (.error .indexOutOfRange)

/-- `IncrementSequenceID`. -/
def incrementSequenceID (keyID : UInt64) : Method (Option Err) := do
  match ← ensureKeys B with
  | some err => return some err
  | none => do
    modifyKey keyID fun key => { key with sequenceID := key.sequenceID + 1 }
    return none

/-- The loop of `RevokeAccountKeys`. -/
def revokeKeys : List UInt64 → Method Unit
  | [] => pure ()
  | keyID :: rest => do
    modifyKey keyID fun key => { key with revoked := true }
    revokeKeys rest

/-- `RevokeAccountKeys`. -/
def revokeAccountKeys (keyIDs : List UInt64) : Method (Option Err) := do
  match ← ensureKeys B with
  | some err => return some err
  | none => do
    revokeKeys keyIDs
    return none

/-! ## 3. Deeds and context -/

/-- `loadDeeds`. -/
def loadDeeds : Method (Option Err) := do
  let object ← this
  if object.data.assetDeeds.isNil then do
    set fun o => { o with deeds := some ∅ }
    return none
  else match B.getDeeds object.id object.data.assetDeeds with
    | .error e => return some e
    | .ok deeds => do
      set fun o => { o with deeds := some deeds }
      return none

/-- `Deeds`. -/
def ensureDeeds : Method (Option Err) := do
  match (← this).deeds with
  | some _ => return none
  | none => return GoError.wrapErr (← loadDeeds B) "failed to load deeds"

/-- `CreateDeedsEntry`. -/
def createDeedsEntry (key : Identifier) : Method (Option Err) := do
  match ← ensureDeeds B with
  | some err => return some err
  | none => do
    if key ∈ (← this).deeds.getD ∅ then return some (.sentinel .errAssetAlreadyRegistered)
    set fun o => { o with deeds := some ((o.deeds.getD ∅).insert key ()) }
    return none

/-- `loadMetaCtxObject`. The context is made before the database is asked. -/
def loadMetaCtxObject : Method (Option Err) := do
  let object ← this
  set fun o => { o with metaContext := some .zero }
  if object.data.contextHash.isNil then return none
  match B.getContext object.id object.data.contextHash with
  | .error e => return some e
  | .ok metaContext => do
    set fun o => { o with metaContext := some metaContext }
    return none

/-- `getMetaCtxObject`. -/
def getMetaCtxObject : Method (Option Err) := do
  match (← this).metaContext with
  | some _ => return none
  | none => loadMetaCtxObject B

/-- `UpdateSubAccount`. -/
def updateSubAccount (subAccount targetAccount : Identifier) : Method (Option Err) := do
  match ← getMetaCtxObject B with
  | some err => return some err
  | none => do
    set fun o => { o with metaContext := o.metaContext.map fun m =>
      { m with subAccounts := m.subAccounts.insert subAccount targetAccount } }
    return none

/-- `SubAccountCount`. -/
def subAccountCount : Method Nat := do
  match ← getMetaCtxObject B with
  | some _ => Proc.ofGo (.error (.explicit "failed to load context"))
  | none => return ((← this).metaContext.getD .zero).subAccounts.keys.length

/-- `UpdateInheritedAccount`. -/
def updateInheritedAccount (inheritedAccount : Identifier) : Method (Option Err) := do
  match ← getMetaCtxObject B with
  | some _ => Proc.ofGo (.error (.explicit "failed to load context"))
  | none => do
    set fun o => { o with metaContext := o.metaContext.map fun m =>
      { m with inheritedAccount := inheritedAccount } }
    return none

/-- `MinimumContextSize`. -/
def minimumContextSize : Nat := 1

/-- `CreateContext`. -/
def createContext (consensusNodes : List KramaID) : Method (Option Err) := do
  if consensusNodes.length < minimumContextSize then return some (.new "liveliness size not met")
  match B.poloHash consensusNodes with
  | .error e => return some (.wrap e "failed to polorize context object")
  | .ok hash => do
    set fun o => { o with metaContext := some { MetaContext.zero with
      consensusNodesHash := hash, consensusNodes := consensusNodes } }
    return none

/-- `getMetaContextObjectCopy`. -/
def getMetaContextObjectCopy (object : Object) : Except Err MetaContext :=
  match B.cachedContext object.data.contextHash with
  | some m => .ok m.copy
  | none => match B.getContext object.id object.data.contextHash with
    | .error e => .error (.wrap e "failed to fetch meta context object")
    | .ok m => .ok m.copy

/-- `UpdateContext`. -/
def updateContext (consensusNodes : List KramaID) : Method (Option Err) := do
  let object ← this
  if consensusNodes.length = 0 ∨ object.id.isParticipantVariant then return none
  match getMetaContextObjectCopy B object with
  | .error e => return some e
  | .ok metaObj => match B.poloHash consensusNodes with
    | .error e => return some (.wrap e "failed to generate consensus nodes hash")
    | .ok hash => do
      set fun o => { o with metaContext := some { metaObj with
        previousHash := object.data.contextHash, consensusNodes := consensusNodes
        consensusNodesHash := hash } }
      return none

/-! ## 4. Storage and logics -/

/-- `GetStorageTree`: the root of the storage tree of a logic. -/
def getStorageTree (logicID : LogicID) : Method (Except Err Hash) := do
  let object ← this
  match object.storageTrees.lookup logicID with
  | some root => return .ok root
  | none => match B.metaStorageTree object.id object.data.storageRoot with
    | .error e => return .error (.wrap e "failed to initiate storage tree")
    | .ok roots => match roots logicID with
      | .error _ => return .error (.sentinel .errLogicStorageTreeNotFound)
      | .ok root => do
        set fun o => { o with storageTrees := o.storageTrees.insert logicID root }
        return .ok root

/-- `createStorageTreeForLogic`: an empty tree. -/
def createStorageTreeForLogic (logicID : LogicID) : Method (Option Err) := do
  let object ← this
  match B.metaStorageTree object.id object.data.storageRoot with
  | .error e => return some (.wrap e "failed to initiate storage tree")
  | .ok _ => do
    set fun o => { o with storageTrees := o.storageTrees.insert logicID nilHash }
    return none

/-- `InitLogicStorage`. -/
def initLogicStorage (logicID : LogicID) : Method (Option Err) := do
  match ← createStorageTreeForLogic B logicID with
  | some err => return some err
  | none => do
    set fun o => { o with storageTreeTxns := o.storageTreeTxns.insert logicID ∅ }
    return none

/-- The tree `SetStorageEntry` writes over, found or made. -/
def openStorage (logicID : LogicID) : Method (Option Err) := do
  match ← getStorageTree B logicID with
  | .ok _ => return none
  | .error e =>
    if e.is .errLogicStorageTreeNotFound then createStorageTreeForLogic B logicID
    else return some e

/-- `SetStorageEntry`; an empty value deletes. -/
def setStorageEntry (logicID : LogicID) (key value : Bytes) : Method (Option Err) := do
  let opened ← if logicID ∈ (← this).storageTreeTxns then pure none else do
    match ← openStorage B logicID with
    | some err => pure (some err)
    | none => do
      set fun o => { o with storageTreeTxns := o.storageTreeTxns.insert logicID ∅ }
      pure none
  match opened with
  | some err => return some err
  | none => do
    set fun o => { o with storageTreeTxns := o.storageTreeTxns.modify logicID fun txn =>
      if value.length = 0 then txn.erase key else txn.insert key value }
    return none

/-- `merkleTree.Get`; a tree with no root is empty. -/
def treeEntry (object : Object) (root : Hash) (key : Bytes) : Except Err Bytes :=
  if root.isNil then .error (.sentinel .errKeyNotFound) else B.storageTree object.id root key

/-- `GetStorageEntry`. -/
def getStorageEntry (logicID : LogicID) (key : Bytes) : Method (Except Err Bytes) := do
  let object ← this
  match (object.storageTreeTxns.lookup logicID).bind (·.lookup key) with
  | some value => return .ok value
  | none => do
    match ← getStorageTree B logicID with
    | .error e => return .error e
    | .ok root => return treeEntry B object root key

/-- `SetDirtyEntry`. -/
def setDirtyEntry (key value : Bytes) : Method Unit :=
  set fun o => { o with dirtyEntries := o.dirtyEntries.insert key value }

/-- `getLogicObject`. -/
def getLogicObject (object : Object) (logicID : LogicID) : Except Err LogicObject :=
  match object.logicTreeTxn.bind (·.lookup logicID) with
  | some logicObject => .ok logicObject
  | none => match B.logicTree object.id object.data.logicRoot with
    | .error e => .error (.wrap e "failed to initiate logic tree")
    | .ok tree => tree logicID

/-- `CreateLogic`. -/
def createLogic (descriptor : LogicDescriptor) : Method (Option Err) := do
  let object ← this
  setDirtyEntry (B.logicManifestKey object.id descriptor.manifestHash) descriptor.manifestData
  match getLogicObject B object object.id with
  | .ok _ => return some (.wrap (.new "logic already registered")
      "could not insert logic object into state object")
  | .error _ => do
    set fun o => { o with logicTreeTxn := some ((o.logicTreeTxn.getD ∅).insert object.id
      { id := object.id, engineKind := descriptor.engine, manifest := descriptor.manifestHash
        isSealed := false, artifact := descriptor.artifact }) }
    initLogicStorage B object.id

end Object

end GoMoi
