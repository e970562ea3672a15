/-
  File:      GoMoi/Compute/AssetEngine.lean
  Subject:   The asset engine (`compute/asset_engine.go`) and its checks (`compute/ixasset.go`).

  Every call takes the objects of the accounts it names from the transition, checks access, amount
  and funds, and then calls the methods of `State/Balance` on the objects. An access map says which
  lock an account was declared with. Of all calls one reads a clock: a transfer by mandate compares
  the expiry with the time at the node (`now`), in `validateAssetConsume`.

  * `EngineSample` -- four accounts, for the examples of the modules on the engine.
-/
import GoMoi.State.Transition

namespace GoMoi

open Memory

/-! ## 1. Readers of an object -/

/-- What the engine works with; `genesisInfo` is the encoding of `AccountGenesisInfo`. -/
structure EngineEnv where
  backend : Backend
  ids : AccountIDs
  sargaLogicID : LogicID
  idBytes : Identifier → Bytes
  idString : Identifier → String
  genesisInfo : Hash → Except Err Bytes

namespace Object

variable (X : EngineEnv)

/-- `IsAccountRegistered`. -/
def isAccountRegistered (id : Identifier) : Method (Except Err Bool) := do
  match ← getStorageEntry X.backend X.sargaLogicID (X.idBytes id) with
  | .ok _ => return .ok true
  | .error e => if e.is .errKeyNotFound then return .ok false else return .error e

/-- `AddAccountGenesisInfo`. -/
def addAccountGenesisInfo (id : Identifier) (ixHash : Hash) : Method (Option Err) := do
  match X.genesisInfo ixHash with
  | .error e => return some e
  | .ok rawData => setStorageEntry X.backend X.sargaLogicID (X.idBytes id) rawData

/-- `HasBalance` of the asset object behind a pointer. -/
def hasBalance (p : Ptr AssetObject) (tokenID : TokenID) (value : Int) : Method (Option Err) := do
  match (← asset p).balance.lookup tokenID with
  | none => return some (.sentinel .errTokenNotFound)
  | some bal =>
    if (← amount bal) < value then return some (.sentinel .errInsufficientFunds) else return none

/-- `FetchAssetObject` and `HasBalance`. -/
def fetchHasBalance (B : Backend) (assetID : AssetID) (tokenID : TokenID) (value : Int) :
    Method (Option Err) := do
  match ← getAssetObject B assetID true with
  | .error _ => return some (.sentinel .errAssetNotFound)
  | .ok p => hasBalance p tokenID value

/-- `GetProperties`. The properties of a holder's asset object are nil. -/
def getProperties (B : Backend) (assetID : AssetID) :
    Method (Except Err (Option AssetDescriptor)) :=
  withAsset B assetID fun p => do return .ok (← asset p).properties

/-- `GetMandate`. -/
def getMandate (B : Backend) (assetID : AssetID) (tokenID : TokenID) (beneficiary : Identifier) :
    Method (Except Err (AmountWithExpiry (Ptr Int))) :=
  withAsset B assetID fun p => do
    match (← asset p).mandate.at? beneficiary tokenID with
    | none => return .error (.sentinel .errMandateNotFound)
    | some mandate => return .ok mandate

/-- `GetLockup`. -/
def getLockup (B : Backend) (assetID : AssetID) (tokenID : TokenID) (operatorID : Identifier) :
    Method (Except Err (AmountWithExpiry (Ptr Int))) :=
  withAsset B assetID fun p => do
    match (← asset p).lockup.at? operatorID tokenID with
    | none => return .error (.sentinel .errLockupNotFound)
    | some lockup => return .ok lockup

end Object

/-! ## 2. Checks -/

/-- `map[[32]byte]int`: the locks the accounts were declared with. -/
abbrev Access : Type := GoMap Identifier Int

/-- `hasMutateAccess`. -/
def hasMutateAccess (access : Access) (ids : List Identifier) : Bool :=
  ids.all fun id => access.lookup id = some mutateLock.val

/-- A call of the engine on the memory of the objects. -/
abbrev Engine (A : Type) : Type := Proc Memory A

namespace Engine

/-- The identifier of an object. -/
def identifier (p : Ptr Object) : Engine Identifier := call p do return (← Object.this).id

/-- The amount of a call, in a cell of its own. -/
def newAmount (n : Int) : Engine (Ptr Int) := fun m =>
  (.ok (m.heap.amounts.alloc n).1,
    { m with heap := { m.heap with amounts := (m.heap.amounts.alloc n).2 } })

/-- The amount behind a pointer. -/
def amount (p : Ptr Int) : Engine Int := fun m => (Go.deref (m.heap.amounts.read p), m)

variable (X : EngineEnv)

/-- `validateAssetTransfer`. -/
def validateAssetTransfer (benefactor beneficiary sarga : Ptr Object) (assetID : AssetID)
    (tokenID : TokenID) (value : Int) (access : Access) : Engine (Option Err) := do
  if value < 1 then return some (.sentinel .errInvalidAmount)
  let beneficiaryID ← identifier beneficiary
  if hasMutateAccess access [← identifier benefactor, beneficiaryID] then
    match ← call sarga (Object.isAccountRegistered X beneficiaryID) with
    | .ok true => call benefactor (Object.fetchHasBalance X.backend assetID tokenID value)
    | _ => return some (.sentinel .errBeneficiaryNotRegistered)
  else return some (.sentinel .errInvalidAccess)

/-- `validateAssetConsume` up to the mandate: the mandate, on the asset object of the benefactor. -/
def findMandate (operatorID : Identifier) (beneficiary benefactor sarga : Ptr Object)
    (assetID : AssetID) (tokenID : TokenID) (value : Int) (access : Access) :
    Engine (Except Err (AmountWithExpiry (Ptr Int))) := do
  let beneficiaryID ← identifier beneficiary
  match ← call sarga (Object.getStorageEntry X.backend X.sargaLogicID
      (X.idBytes beneficiaryID)) with
  | .error _ => return .error (.sentinel .errBeneficiaryNotRegistered)
  | .ok _ =>
    if hasMutateAccess access [beneficiaryID, ← identifier benefactor] then
      call benefactor do
        match ← Object.getAssetObject X.backend assetID true with
        | .error _ => return .error (.sentinel .errAssetNotFound)
        | .ok p => do
          match ← Object.hasBalance p tokenID value with
          | some err => return .error err
          | none => do
            match (← Object.asset p).mandate.at? operatorID tokenID with
            | none => return .error (.sentinel .errMandateNotFound)
            | some mandate => return .ok mandate
    else return .error (.sentinel .errInvalidAccess)

/-- `validateAssetConsume`. -/
def validateAssetConsume (now : UInt64) (operatorID : Identifier)
    (beneficiary benefactor sarga : Ptr Object) (assetID : AssetID) (tokenID : TokenID)
      (value : Int)
    (access : Access) : Engine (Option Err) := do
  match ← findMandate X operatorID beneficiary benefactor sarga assetID tokenID value access with
  | .error err => return some err
  | .ok mandate =>
    if mandate.expiresAt < now then return some (.sentinel .errMandateExpired)
    else if (← amount mandate.amount) < value then
      return some (.sentinel .errInsufficientFunds)
    else return none

/-- `validateAssetApprove`. -/
def validateAssetApprove (sender : Ptr Object) (assetID : AssetID) (tokenID : TokenID) (value : Int)
    (access : Access) : Engine (Option Err) := do
  if hasMutateAccess access [← identifier sender] then
    if value < 1 then return some (.sentinel .errInvalidAmount)
    else call sender (Object.fetchHasBalance X.backend assetID tokenID value)
  else return some (.sentinel .errInvalidAccess)

/-- `validateAssetRevoke`. -/
def validateAssetRevoke (benefactor : Ptr Object) (beneficiary : Identifier) (assetID : AssetID)
    (tokenID : TokenID) (access : Access) : Engine (Option Err) := do
  if hasMutateAccess access [← identifier benefactor] then
    match ← call benefactor (Object.getMandate X.backend assetID tokenID beneficiary) with
    | .error err => return some err
    | .ok _ => return none
  else return some (.sentinel .errInvalidAccess)

/-- `validateAssetMint`. -/
def validateAssetMint (senderID beneficiaryID : Identifier) (assetacc : Ptr Object)
    (assetID : AssetID) (value : Int) (access : Access) : Engine (Option Err) := do
  if hasMutateAccess access [assetID, beneficiaryID] then
    match ← call assetacc (Object.getProperties X.backend assetID) with
    | .error _ => return some (.sentinel .errAssetNotFound)
    | .ok properties =>
      if value < 1 then return some (.sentinel .errInvalidAmount)
      let assetInfo ← Proc.ofGo (Go.deref properties)
      if senderID ≠ assetInfo.manager then return some (.sentinel .errManagerMismatch)
      else if assetInfo.circulatingSupply + value > assetInfo.maxSupply then
        return some (.sentinel .errMaxSupplyReached)
      else return none
  else return some (.sentinel .errInvalidAccess)

/-- `validateAssetBurn`, on the asset object of the benefactor. -/
def validateBurnBalance (benefactor : Ptr Object) (assetID : AssetID) (tokenID : TokenID)
    (value : Int) : Engine (Option Err) :=
  call benefactor do
    match ← Object.getAssetObject X.backend assetID true with
    | .error _ => return some (.sentinel .errAssetNotFound)
    | .ok p => do
      match (← Object.asset p).balance.lookup tokenID with
      | none => return some (.sentinel .errTokenNotFound)
      | some bal =>
        if value < 1 then return some (.sentinel .errInvalidAmount)
        else if (← Object.amount bal) < value then
          return some (.sentinel .errInsufficientFunds)
        else return none

/-- `validateAssetBurn`. -/
def validateAssetBurn (benefactor assetacc : Ptr Object) (assetID : AssetID) (tokenID : TokenID)
    (value : Int) (access : Access) : Engine (Option Err) := do
  let benefactorID ← identifier benefactor
  if hasMutateAccess access [assetID, benefactorID] then
    match ← call assetacc (Object.getProperties X.backend assetID) with
    | .error _ => return some (.sentinel .errAssetNotFound)
    | .ok properties => do
      let assetInfo ← Proc.ofGo (Go.deref properties)
      if assetInfo.manager ≠ benefactorID then return some (.sentinel .errManagerMismatch)
      else validateBurnBalance X benefactor assetID tokenID value
  else return some (.sentinel .errInvalidAccess)

/-- `validateAssetLockup`. -/
def validateAssetLockup (benefactor : Ptr Object) (beneficiaryID : Identifier) (assetID : AssetID)
    (tokenID : TokenID) (value : Int) (access : Access) : Engine (Option Err) := do
  if hasMutateAccess access [← identifier benefactor] then
    if beneficiaryID = nilIdentifier then return some (.sentinel .errInvalidBeneficiary)
    else if value < 1 then return some (.sentinel .errInvalidAmount)
    else call benefactor (Object.fetchHasBalance X.backend assetID tokenID value)
  else return some (.sentinel .errInvalidAccess)

/-- `validateAssetRelease`. -/
def validateAssetRelease (operatorID : Identifier) (benefactor : Ptr Object)
    (beneficiaryID : Identifier) (assetID : AssetID) (tokenID : TokenID) (value : Int)
    (access : Access) : Engine (Option Err) := do
  if hasMutateAccess access [← identifier benefactor, beneficiaryID] then
    match ← call benefactor (Object.getLockup X.backend assetID tokenID operatorID) with
    | .error _ => return some (.sentinel .errLockupNotFound)
    | .ok lockup =>
      if (← amount lockup.amount) < value then return some (.sentinel .errInsufficientFunds)
      else return none
  else return some (.sentinel .errInvalidAccess)

/-- `validateSetStaticMetaData`, `validateSetDynamicMetaData`. -/
def validateSetMetaData (object : Ptr Object) (assetID : AssetID) (participantID : Identifier)
    (access : Access) : Engine (Option Err) := do
  if hasMutateAccess access [assetID] then
    match ← call object (Object.getProperties X.backend assetID) with
    | .error _ => return some (.sentinel .errAssetNotFound)
    | .ok properties => do
      let properties ← Proc.ofGo (Go.deref properties)
      if properties.manager ≠ participantID then return some (.sentinel .errManagerMismatch)
      else return none
  else return some (.sentinel .errInvalidAccess)

/-! ## 3. Calls -/

/-- The fuel every call asks for, and its error. -/
abbrev Outcome : Type := UInt64 × Option Err

variable (t : Transition)

/-- `object, err := e.transition.GetObject(id); if err != nil { return fuel, err }`. -/
def withObject (fuel : UInt64) (id : Identifier) (k : Ptr Object → Engine Outcome) :
    Engine Outcome :=
  match t.objects.lookup id with
  | none => pure (fuel, some (.sentinel .errObjectNotFound))
  | some p => k p

/-- `if err = validate(…); err != nil { return fuel, err }`. -/
def checked (fuel : UInt64) (check : Engine (Option Err)) (k : Engine Outcome) :
    Engine Outcome := do
  match ← check with
  | some err => return (fuel, some err)
  | none => k

/-- `if err = change(…); err != nil { return fuel, err }; return fuel, nil`. -/
def finish (fuel : UInt64) (change : Engine (Option Err)) : Engine Outcome := do
  return (fuel, ← change)

/-- A result that is an error or nothing. -/
def errorOnly (x : Engine (Except Err Unit)) : Engine (Option Err) := do
  match ← x with
  | .error err => return some err
  | .ok () => return none

/-- What was taken with its metadata, credited to an account. -/
def creditTo (beneficiary : Ptr Object) (assetID : AssetID) (tokenID : TokenID) (value : Ptr Int)
    (take : Engine (Except Err (Option (Ptr MetaData)))) : Engine (Option Err) := do
  match ← take with
  | .error err => return some err
  | .ok metadata => call beneficiary (Object.addBalance X.backend assetID tokenID value metadata)

/-- `transferAsset`. -/
def transferAsset (sender target : Ptr Object) (assetID : AssetID) (tokenID : TokenID)
    (value : Ptr Int) : Engine (Option Err) :=
  creditTo X target assetID tokenID value
    (call sender (Object.subBalance X.backend assetID tokenID value))

/-- `consumeMandate`. -/
def consumeMandate (operatorID : Identifier) (benefactor beneficiary : Ptr Object)
    (assetID : AssetID) (tokenID : TokenID) (value : Ptr Int) : Engine (Option Err) :=
  creditTo X beneficiary assetID tokenID value
    (call benefactor (Object.consumeMandate X.backend assetID tokenID operatorID value))

/-- `releaseAsset`. -/
def releaseAsset (operatorID : Identifier) (benefactor beneficiary : Ptr Object) (assetID : AssetID)
    (tokenID : TokenID) (value : Ptr Int) : Engine (Option Err) :=
  creditTo X beneficiary assetID tokenID value
    (call benefactor (Object.releaseLockup X.backend assetID tokenID operatorID value))

/-- `mintAsset`. -/
def mintAsset (beneficiary assetacc : Ptr Object) (assetID : AssetID) (tokenID : TokenID)
    (value : Ptr Int) : Engine (Option Err) := do
  match ← call assetacc (Object.mintAsset X.backend assetID value) with
  | .error err => return some err
  | .ok () => call beneficiary (Object.addBalance X.backend assetID tokenID value none)

/-- `burnAsset`. -/
def burnAsset (benefactor assetacc : Ptr Object) (assetID : AssetID) (tokenID : TokenID)
    (value : Ptr Int) : Engine (Option Err) := do
  match ← call benefactor (Object.subBalance X.backend assetID tokenID value) with
  | .error err => return some err
  | .ok _ => errorOnly (call assetacc (Object.burnAsset X.backend assetID value))

/-- `GetObject` of the Sarga account, else `GetAuxiliaryObject`. -/
def sargaObject : Except Err (Ptr Object) :=
  match t.objects.lookup X.ids.sargaAccountID with
  | some p => .ok p
  | none => match t.auxiliaryObjects.lookup X.ids.sargaAccountID with
    | some p => .ok p
    | none => .error (.new ("object not found for " ++ X.idString X.ids.sargaAccountID))

/-- `FuelSimpleAssetTransfer`, and the fuel of every other call. -/
def fuelAsset : UInt64 := 100

/-- `Transfer`. -/
def transfer (now : UInt64) (assetID : AssetID) (tokenID : TokenID)
    (operatorID benefactorID beneficiaryID : Identifier) (value : Ptr Int) (access : Access) :
    Engine Outcome := do
  let n ← amount value
  withObject t fuelAsset operatorID fun operator =>
  withObject t fuelAsset beneficiaryID fun beneficiary =>
  match sargaObject X t with
  | .error err => pure (fuelAsset, some err)
  | .ok sarga =>
    if benefactorID = nilIdentifier then
      checked fuelAsset
        (validateAssetTransfer X operator beneficiary sarga assetID tokenID n access)
        (finish fuelAsset (transferAsset X operator beneficiary assetID tokenID value))
    else
      withObject t fuelAsset benefactorID fun benefactor =>
      checked fuelAsset
        (validateAssetConsume X now operatorID beneficiary benefactor sarga assetID
          tokenID n access)
        (finish fuelAsset
          (consumeMandate X operatorID benefactor beneficiary assetID tokenID value))

/-- `SetStaticTokenMetaData`, `SetDynamicTokenMetaData`, with `validateSetStaticTokenMetaData`. -/
def setTokenMetaData (isStatic : Bool) (assetID : AssetID) (participantID : Identifier)
    (tokenID : TokenID) (key val : Bytes) (access : Access) : Engine (Option Err) :=
  if hasMutateAccess access [participantID] then
    match t.objects.lookup participantID with
    | none => pure (some (.sentinel .errObjectNotFound))
    | some participant => errorOnly
        (call participant (Object.setTokenMetadata X.backend assetID tokenID isStatic key val))
  else pure (some (.sentinel .errInvalidAccess))

/-- The loop of `Mint` over the static metadata, which come in any order. -/
def setAllTokenMetaData (assetID : AssetID) (participantID : Identifier) (tokenID : TokenID)
    (access : Access) : List (Bytes × Bytes) → Engine (Option Err)
  | [] => pure none
  | (key, val) :: rest => do
    match ← setTokenMetaData X t true assetID participantID tokenID key val access with
    | some err => return some err
    | none => setAllTokenMetaData assetID participantID tokenID access rest

/-- `Mint`. -/
def mint (assetID : AssetID) (tokenID : TokenID) (senderID beneficiaryID : Identifier)
    (value : Ptr Int) (staticMetadata : List (Bytes × Bytes)) (access : Access) :
      Engine Outcome := do
  let n ← amount value
  withObject t fuelAsset beneficiaryID fun beneficiary =>
  withObject t fuelAsset assetID fun assetacc =>
  checked fuelAsset (validateAssetMint X senderID beneficiaryID assetacc assetID n access)
    (checked fuelAsset (mintAsset X beneficiary assetacc assetID tokenID value)
      (finish fuelAsset
        (setAllTokenMetaData X t assetID beneficiaryID tokenID access staticMetadata)))

/-- `Burn`. -/
def burn (assetID : AssetID) (tokenID : TokenID) (benefactorID : Identifier) (value : Ptr Int)
    (access : Access) : Engine Outcome := do
  let n ← amount value
  withObject t fuelAsset benefactorID fun benefactor =>
  withObject t fuelAsset assetID fun assetacc =>
  checked fuelAsset (validateAssetBurn X benefactor assetacc assetID tokenID n access)
    (finish fuelAsset (burnAsset X benefactor assetacc assetID tokenID value))

/-- `Approve`. -/
def approve (assetID : AssetID) (tokenID : TokenID) (benefactorID beneficiaryID : Identifier)
    (value : Ptr Int) (expiresAt : UInt64) (access : Access) : Engine Outcome := do
  let n ← amount value
  withObject t fuelAsset benefactorID fun benefactor =>
  checked fuelAsset (validateAssetApprove X benefactor assetID tokenID n access)
    (finish fuelAsset (errorOnly (call benefactor
      (Object.createMandate X.backend assetID tokenID beneficiaryID value expiresAt))))

/-- `Revoke`. -/
def revoke (assetID : AssetID) (tokenID : TokenID) (benefactorID beneficiaryID : Identifier)
    (access : Access) : Engine Outcome :=
  withObject t fuelAsset benefactorID fun benefactor =>
  checked fuelAsset (validateAssetRevoke X benefactor beneficiaryID assetID tokenID access)
    (finish fuelAsset (errorOnly (call benefactor
      (Object.deleteMandate X.backend assetID tokenID beneficiaryID))))

/-- `Lockup`. -/
def lockup (assetID : AssetID) (tokenID : TokenID) (benefactorID beneficiaryID : Identifier)
    (value : Ptr Int) (access : Access) : Engine Outcome := do
  let n ← amount value
  withObject t fuelAsset benefactorID fun benefactor =>
  checked fuelAsset (validateAssetLockup X benefactor beneficiaryID assetID tokenID n access)
    (finish fuelAsset (errorOnly (call benefactor
      (Object.createLockup X.backend assetID tokenID beneficiaryID value))))

/-- `Release`. Its success asks for no fuel. -/
def release (assetID : AssetID) (tokenID : TokenID)
    (operatorID benefactorID beneficiaryID : Identifier) (value : Ptr Int) (access : Access) :
    Engine Outcome := do
  let n ← amount value
  withObject t fuelAsset benefactorID fun benefactor =>
  withObject t fuelAsset beneficiaryID fun beneficiary =>
  checked fuelAsset
    (validateAssetRelease X operatorID benefactor beneficiaryID assetID tokenID n access)
    (checked fuelAsset (releaseAsset X operatorID benefactor beneficiary assetID tokenID value)
      (pure (0, none)))

/-- `SetStaticMetaData`, `SetDynamicMetaData`. -/
def setMetaData (isStatic : Bool) (assetID : AssetID) (participantID : Identifier)
    (key val : Bytes) (access : Access) : Engine Outcome :=
  withObject t 0 assetID fun object =>
  checked 0 (validateSetMetaData X object assetID participantID access)
    (finish 0 (errorOnly (call object
      (Object.setAssetMetadata X.backend assetID isStatic key val))))

/-- `IsGenesis` of an object in `t.objects`. -/
def objectIsGenesis (id : Identifier) : Engine Bool :=
  match t.objects.lookup id with
  | none => Proc.ofGo (.error .nilDeref)
  | some p => call p do return (← Object.this).isGenesis

/-- `IsGenesis`. -/
def isGenesis (id : Identifier) : Engine Bool :=
  match t.systemObject with
  | none => objectIsGenesis t id
  | some p => do
    if (← identifier p) = id then call p do return (← Object.this).isGenesis
    else objectIsGenesis t id

/-- A round of `addNewAccountsToSargaAccount`, on the Sarga object. -/
def registerAccount (sarga : Ptr Object) (ixHash : Hash) (id : Identifier) :
    Engine (Option Err) := do
  match ← call sarga (Object.isAccountRegistered X id) with
  | .error err => return some err
  | .ok true => return some (.sentinel .errAccountAlreadyRegistered)
  | .ok false => call sarga (Object.addAccountGenesisInfo X id ixHash)

/-- `addNewAccountsToSargaAccount`. -/
def addNewAccountsToSargaAccount (ixHash : Hash) : List Identifier → Engine (Option Err)
  | [] => pure none
  | id :: rest => do
    if ← isGenesis t id then
      match t.objects.lookup X.ids.sargaAccountID with
      | none => return some (.new "sarga object not found")
      | some sarga => do
        match ← registerAccount X sarga ixHash id with
        | some err => return some err
        | none => addNewAccountsToSargaAccount ixHash rest
    else addNewAccountsToSargaAccount ixHash rest

/-- `createAsset`. -/
def registerAsset (sender assetacc : Ptr Object) (descriptor : AssetDescriptor) :
    Engine (Option Err) := do
  match ← call assetacc (Object.createAsset X.backend descriptor) with
  | some err => return some err
  | none => call sender (Object.createDeedsEntry X.backend descriptor.assetID)

/-- `CreateAsset`; a new asset has no supply. -/
def createAsset (ixHash : Hash) (descriptor : AssetDescriptor) : Engine Outcome :=
  withObject t fuelAsset descriptor.creator fun sender =>
  withObject t fuelAsset descriptor.assetID fun assetacc =>
  checked fuelAsset (registerAsset X sender assetacc { descriptor with circulatingSupply := 0 })
    (finish fuelAsset do
      addNewAccountsToSargaAccount X t ixHash [← identifier assetacc])

end Engine

/-! ## 4. Calls as data -/

/-- A call of the engine with its arguments. -/
inductive EngineOp where
  | createAsset (ixHash : Hash) (descriptor : AssetDescriptor)
  | transfer (assetID : AssetID) (tokenID : TokenID)
      (operatorID benefactorID beneficiaryID : Identifier) (value : Int) (access : Access)
  | mint (assetID : AssetID) (tokenID : TokenID) (senderID beneficiaryID : Identifier) (value : Int)
      (staticMetadata : List (Bytes × Bytes)) (access : Access)
  | burn (assetID : AssetID) (tokenID : TokenID) (benefactorID : Identifier) (value : Int)
      (access : Access)
  | approve (assetID : AssetID) (tokenID : TokenID) (benefactorID beneficiaryID : Identifier)
      (value : Int) (expiresAt : UInt64) (access : Access)
  | revoke (assetID : AssetID) (tokenID : TokenID) (benefactorID beneficiaryID : Identifier)
      (access : Access)
  | lockup (assetID : AssetID) (tokenID : TokenID) (benefactorID beneficiaryID : Identifier)
      (value : Int) (access : Access)
  | release (assetID : AssetID) (tokenID : TokenID)
      (operatorID benefactorID beneficiaryID : Identifier) (value : Int) (access : Access)
  | setMetaData (isStatic : Bool) (assetID : AssetID) (participantID : Identifier)
      (key val : Bytes) (access : Access)
  | setTokenMetaData (isStatic : Bool) (assetID : AssetID) (participantID : Identifier)
      (tokenID : TokenID) (key val : Bytes) (access : Access)

/-- The call carried out at a time; its amount is in a cell of its own. -/
def EngineOp.run (X : EngineEnv) (now : UInt64) (t : Transition) : EngineOp → Engine Engine.Outcome
  | .createAsset ixHash descriptor => Engine.createAsset X t ixHash descriptor
  | .transfer assetID tokenID operatorID benefactorID beneficiaryID value access => do
    Engine.transfer X t now assetID tokenID operatorID benefactorID beneficiaryID
      (← Engine.newAmount value) access
  | .mint assetID tokenID senderID beneficiaryID value staticMetadata access => do
    Engine.mint X t assetID tokenID senderID beneficiaryID (← Engine.newAmount value)
      staticMetadata access
  | .burn assetID tokenID benefactorID value access => do
    Engine.burn X t assetID tokenID benefactorID (← Engine.newAmount value) access
  | .approve assetID tokenID benefactorID beneficiaryID value expiresAt access => do
    Engine.approve X t assetID tokenID benefactorID beneficiaryID (← Engine.newAmount value)
      expiresAt access
  | .revoke assetID tokenID benefactorID beneficiaryID access =>
    Engine.revoke X t assetID tokenID benefactorID beneficiaryID access
  | .lockup assetID tokenID benefactorID beneficiaryID value access => do
    Engine.lockup X t assetID tokenID benefactorID beneficiaryID (← Engine.newAmount value) access
  | .release assetID tokenID operatorID benefactorID beneficiaryID value access => do
    Engine.release X t assetID tokenID operatorID benefactorID beneficiaryID
      (← Engine.newAmount value) access
  | .setMetaData isStatic assetID participantID key val access =>
    Engine.setMetaData X t isStatic assetID participantID key val access
  | .setTokenMetaData isStatic assetID participantID tokenID key val access =>
    Engine.finish 0
      (Engine.setTokenMetaData X t isStatic assetID participantID tokenID key val access)

/-! ## 5. Four accounts -/

namespace EngineSample

/-- The account of the asset. -/
def assetID : AssetID := ⟨0x10 <<< 248 ||| 1⟩

def manager : Identifier := ⟨2⟩

def operator : Identifier := ⟨3⟩

def ids : AccountIDs where
  sargaAccountID := ⟨0x20 <<< 248 ||| 1⟩
  systemAccountID := ⟨0x20 <<< 248 ||| 2⟩
  sarga_kind := by decide
  system_kind := by decide
  ne := by decide

/-- A committed state, account by account, in which every account is registered. -/
def backend (committed : Identifier → AssetID → Option AssetData) : Backend where
  getContext _ _ := .ok .zero
  cachedContext _ := none
  getAccountKeys _ _ := .ok []
  getDeeds _ _ := .ok ∅
  assetTree id _ := .ok fun assetID =>
    match committed id assetID with
    | some d => .ok d
    | none => .error (.sentinel .errKeyNotFound)
  logicTree _ _ := .ok fun _ => .error (.sentinel .errKeyNotFound)
  metaStorageTree _ _ := .ok fun _ => .ok ⟨1⟩
  storageTree _ _ _ := .ok [1]
  poloHash _ := .ok nilHash
  logicManifestKey _ _ := []

def env (committed : Identifier → AssetID → Option AssetData) : EngineEnv where
  backend := backend committed
  ids := ids
  sargaLogicID := ⟨5⟩
  idBytes _ := []
  idString _ := ""
  genesisInfo _ := .ok [1]

/-- An account as committed. -/
def object (id : Identifier) : Object := newStateObject id
  { accType := .regularAccount, assetDeeds := nilHash, contextHash := nilHash, storageRoot := ⟨1⟩
    assetRoot := nilHash, logicRoot := nilHash, fileRoot := nilHash, keysHash := nilHash } false

def memory : Memory where
  objects := ⟨[object assetID, object manager, object operator, object ids.sargaAccountID]⟩
  heap := ⟨⟨[]⟩, ⟨[]⟩, ⟨[]⟩⟩

def transition : Transition where
  objects := AList.insert assetID ⟨0⟩ (AList.insert manager ⟨1⟩
    (AList.insert operator ⟨2⟩ (AList.insert ids.sargaAccountID ⟨3⟩ ∅)))
  systemObject := none
  auxiliaryObjects := ∅
  receipts := ∅

/-- All accounts may be changed. -/
def access : Access := AList.insert assetID 0 (AList.insert manager 0 (AList.insert operator 0 ∅))

end EngineSample

end GoMoi
