/-
  File:      GoMoi/State/Balance.lean
  Subject:   The methods of a state object on its assets (`state/object.go`): balances, lockups,
             mandates, metadata and supply.

  A method fetches the asset object by `getAssetObject`: the one in the transaction if there is one,
  else a new one decoded from the committed tree. It then changes the asset object, its amounts or
  its metadata IN PLACE and puts the pointer into the transaction. Nothing is copied on the way: who
  else holds one of these pointers sees the change.

  * `balanceOf`, `hasSufficientFuel`, `deductFuel` -- the first reads the committed tree alone, the
    last drops its error.
-/
import GoMoi.State.Object

namespace GoMoi

open Proc

/-! ## 1. Memory -/

namespace Receiver

/-- A new big integer in memory. -/
def newAmount (s : Receiver) (n : Int) : Receiver :=
  { s with heap := { s.heap with amounts := (s.heap.amounts.alloc n).2 } }

/-- The big integer behind a pointer changed in place. -/
def setAmount (s : Receiver) (p : Ptr Int) (n : Int) : Receiver :=
  { s with heap := { s.heap with amounts := s.heap.amounts.modify p fun _ => n } }

/-- New metadata in memory. -/
def newMetaData (s : Receiver) (m : MetaData) : Receiver :=
  { s with heap := { s.heap with metas := (s.heap.metas.alloc m).2 } }

/-- The metadata behind a pointer changed in place. -/
def setMetaData (s : Receiver) (p : Ptr MetaData) (m : MetaData) : Receiver :=
  { s with heap := { s.heap with metas := s.heap.metas.modify p fun _ => m } }

/-- A new asset object in memory. -/
def newAsset (s : Receiver) (ao : AssetObject) : Receiver :=
  { s with heap := { s.heap with assets := (s.heap.assets.alloc ao).2 } }

/-- Fields of the asset object behind a pointer assigned. -/
def setAsset (s : Receiver) (p : Ptr AssetObject) (f : AssetObject → AssetObject) : Receiver :=
  { s with heap := { s.heap with assets := s.heap.assets.modify p f } }

/-- A committed asset object decoded. -/
def loadAsset (s : Receiver) (d : AssetData) : Receiver :=
  { s with heap := (s.heap.loadAsset d).2 }

/-- A pointer put into the asset transaction. -/
def insertAsset (s : Receiver) (assetID : AssetID) (p : Ptr AssetObject) : Receiver :=
  { s with object := { s.object with
      assetTreeTxn := some ((s.object.assetTreeTxn.getD ∅).insert assetID p) } }

end Receiver

namespace Object

/-- A new big integer. -/
def newAmount (n : Int) : Method (Ptr Int) := fun s =>
  (.ok (s.heap.amounts.alloc n).1, s.newAmount n)

/-- The integer behind a pointer. -/
def amount (p : Ptr Int) : Method Int := fun s => (Go.deref (s.heap.amounts.read p), s)

/-- `p.Set(n)`. -/
def setAmount (p : Ptr Int) (n : Int) : Method Unit := Proc.assign (·.setAmount p n)

/-- New metadata. -/
def newMetaData (m : MetaData) : Method (Ptr MetaData) := fun s =>
  (.ok (s.heap.metas.alloc m).1, s.newMetaData m)

/-- The metadata behind a pointer. -/
def metaData (p : Ptr MetaData) : Method MetaData := fun s => (Go.deref (s.heap.metas.read p), s)

/-- `*p = m`. -/
def setMetaData (p : Ptr MetaData) (m : MetaData) : Method Unit := Proc.assign (·.setMetaData p m)

/-- `NewAssetObject`. -/
def newAsset (ao : AssetObject) : Method (Ptr AssetObject) := fun s =>
  (.ok (s.heap.assets.alloc ao).1, s.newAsset ao)

/-- The asset object behind a pointer. -/
def asset (p : Ptr AssetObject) : Method AssetObject :=
  fun s => (Go.deref (s.heap.assets.read p), s)

/-- Fields of an asset object assigned. -/
def setAsset (p : Ptr AssetObject) (f : AssetObject → AssetObject) : Method Unit :=
  Proc.assign (·.setAsset p f)

/-- `FromBytes` of a committed asset object. -/
def loadAsset (d : AssetData) : Method (Ptr AssetObject) := fun s =>
  (.ok (s.heap.loadAsset d).1, s.loadAsset d)

/-! ## 2. The asset object of an asset -/

/-- The entry of the asset transaction. -/
def pendingAsset (object : Object) (assetID : AssetID) : Option (Ptr AssetObject) :=
  object.assetTreeTxn.bind (·.lookup assetID)

variable (B : Backend)

/-- The committed asset object. -/
def committedAsset (object : Object) (assetID : AssetID) : Except Err AssetData :=
  match B.assetTree object.id object.data.assetRoot with
  | .error e => .error (.wrap e "failed to initiate asset tree")
  | .ok tree => tree assetID

/-- `getAssetObject`. -/
def getAssetObject (assetID : AssetID) (checkTxn : Bool) :
    Method (Except Err (Ptr AssetObject)) := do
  let s ← Proc.self
  match if checkTxn then s.object.pendingAsset assetID else none with
  | some p => return .ok p
  | none => match committedAsset B s.object assetID with
    | .error e => return .error e
    | .ok d => return .ok (← loadAsset d)

/-- `updateAssetTree`. -/
def updateAssetTree (assetID : AssetID) (p : Ptr AssetObject) : Method Unit :=
  Proc.assign (·.insertAsset assetID p)

/-- `InsertNewAssetObject`. -/
def insertNewAssetObject (assetID : AssetID) (p : Ptr AssetObject) : Method (Option Err) := do
  match ← getAssetObject B assetID true with
  | .ok _ => return some (.sentinel .errAssetAlreadyRegistered)
  | .error _ => do
    updateAssetTree assetID p
    return none

/-! ## 3. Balances -/

/-- `BalanceOf`. -/
def balanceOf (assetID : AssetID) (tokenID : TokenID) : Method (Except Err Int) := do
  match ← getAssetObject B assetID false with
  | .error _ => return .error (.sentinel .errAssetNotFound)
  | .ok p => do
    match (← asset p).balance.lookup tokenID with
    | none => return .error (.sentinel .errTokenNotFound)
    | some bal => return .ok (← amount bal)

/-- The end of `AddBalance`: the metadata that come with the tokens. -/
def storeMetaData (assetID : AssetID) (tokenID : TokenID) (metadata : Option (Ptr MetaData))
    (p : Ptr AssetObject) : Method (Option Err) := do
  match metadata with
  | none => pure ()
  | some m => setAsset p fun ao => { ao with tokenMetaData := ao.tokenMetaData.insert tokenID m }
  updateAssetTree assetID p
  return none

/-- `AddBalance` from the asset object on. With no balance of the token yet the map is made anew. -/
def addToken (assetID : AssetID) (tokenID : TokenID) (value : Ptr Int)
    (metadata : Option (Ptr MetaData)) (p : Ptr AssetObject) : Method (Option Err) := do
  match (← asset p).balance.lookup tokenID with
  | none => setAsset p fun ao => { ao with balance := AList.singleton tokenID value }
  | some bal => setAmount bal ((← amount bal) + (← amount value))
  storeMetaData assetID tokenID metadata p

/-- `AddBalance`. -/
def addBalance (assetID : AssetID) (tokenID : TokenID) (value : Ptr Int)
    (metadata : Option (Ptr MetaData)) : Method (Option Err) := do
  match ← getAssetObject B assetID true with
  | .ok p => addToken assetID tokenID value metadata p
  | .error _ => do
    let p ← newAsset (.new none)
    match ← insertNewAssetObject B assetID p with
    | some err => return some err
    | none => addToken assetID tokenID value metadata p

/-- An amount of an asset object reduced in place, and what is done to the object when nothing is
    left of it. -/
def takeAmount (p : Ptr AssetObject) (held value : Ptr Int) (atZero : AssetObject → AssetObject) :
    Method Unit := do
  let rest := (← amount held) - (← amount value)
  setAmount held rest
  if rest = 0 then setAsset p atZero

/-- `SubBalance` from the asset object on. -/
def subToken (assetID : AssetID) (tokenID : TokenID) (value : Ptr Int) (p : Ptr AssetObject) :
    Method (Except Err (Option (Ptr MetaData))) := do
  let ao ← asset p
  match ao.balance.lookup tokenID with
  | none => return .error (.sentinel .errTokenNotFound)
  | some bal => do
    takeAmount p bal value fun ao =>
      AssetOf.deleteTokenMetadata { ao with balance := ao.balance.erase tokenID } tokenID
    updateAssetTree assetID p
    return .ok (ao.tokenMetaData.lookup tokenID)

/-- A method on an asset object that has to be there. -/
def withAsset {A : Type} (assetID : AssetID) (body : Ptr AssetObject → Method (Except Err A)) :
    Method (Except Err A) := do
  match ← getAssetObject B assetID true with
  | .error _ => return .error (.sentinel .errAssetNotFound)
  | .ok p => body p

/-- `SubBalance`. -/
def subBalance (assetID : AssetID) (tokenID : TokenID) (value : Ptr Int) :
    Method (Except Err (Option (Ptr MetaData))) :=
  withAsset B assetID (subToken assetID tokenID value)

/-! ## 4. Lockups and mandates -/

/-- The end of `CreateLockup`: the lockup of the beneficiary, new or raised. If the beneficiary has
    lockups of other tokens only, a nil pointer is read. -/
def addLockup (assetID : AssetID) (tokenID : TokenID) (beneficiary : Identifier) (value : Ptr Int)
    (p : Ptr AssetObject) (lockup : Reserved (Ptr Int)) : Method (Except Err Unit) := do
  match lockup.lookup beneficiary with
  | none => setAsset p fun ao => { ao with
    lockup := ao.lockup.insert beneficiary (AList.singleton tokenID ⟨value, 0⟩) }
  | some lockups => match lockups.lookup tokenID with
    | none => ofGo (.error .nilDeref)
    | some lockup => do
      let total ← newAmount ((← amount lockup.amount) + (← amount value))
      setAsset p fun ao => { ao with
        lockup := ao.lockup.modify beneficiary (·.insert tokenID ⟨total, lockup.expiresAt⟩) }
  updateAssetTree assetID p
  return .ok ()

/-- `CreateLockup`. -/
def createLockup (assetID : AssetID) (tokenID : TokenID) (beneficiary : Identifier)
    (value : Ptr Int) : Method (Except Err Unit) :=
  withAsset B assetID fun p => do
    let ao ← asset p
    match ao.balance.lookup tokenID with
    | none => return .error (.sentinel .errTokenNotFound)
    | some bal => do
      takeAmount p bal value fun ao => { ao with balance := ao.balance.erase tokenID }
      addLockup assetID tokenID beneficiary value p ao.lockup

/-- An entry deleted, and the entries of its holder if that was the last one. -/
def dropReserved {A : Type} (m : Reserved A) (id : Identifier) (tokenID : TokenID) : Reserved A :=
  let rest := m.modify id (·.erase tokenID)
  if (rest.lookup id).all (·.keys.length = 0) then rest.erase id else rest

/-- `ReleaseLockup`. -/
def releaseLockup (assetID : AssetID) (tokenID : TokenID) (beneficiary : Identifier)
    (value : Ptr Int) : Method (Except Err (Option (Ptr MetaData))) :=
  withAsset B assetID fun p => do
    let ao ← asset p
    match ao.lockup.at? beneficiary tokenID with
    | none => ofGo (.error .nilDeref)
    | some lockup => do
      takeAmount p lockup.amount value fun ao => AssetOf.deleteTokenMetadata
        { ao with lockup := dropReserved ao.lockup beneficiary tokenID } tokenID
      updateAssetTree assetID p
      return .ok (ao.tokenMetaData.lookup tokenID)

/-- `CreateMandate`. With no mandate of the beneficiary yet the map is made anew. -/
def createMandate (assetID : AssetID) (tokenID : TokenID) (beneficiary : Identifier)
    (value : Ptr Int) (expiresAt : UInt64) : Method (Except Err Unit) :=
  withAsset B assetID fun p => do
    let ao ← asset p
    match ao.mandate.lookup beneficiary with
    | none => setAsset p fun ao => { ao with
      mandate := AList.singleton beneficiary (AList.singleton tokenID ⟨value, expiresAt⟩) }
    | some mandates => do
      let total ← match mandates.lookup tokenID with
        | none => pure value
        | some mandate => newAmount ((← amount mandate.amount) + (← amount value))
      setAsset p fun ao => { ao with
        mandate := ao.mandate.modify beneficiary (·.insert tokenID ⟨total, expiresAt⟩) }
    updateAssetTree assetID p
    return .ok ()

/-- `SubMandateBalance`. -/
def subMandateBalance (assetID : AssetID) (tokenID : TokenID) (operatorID : Identifier)
    (value : Ptr Int) : Method (Except Err Unit) :=
  withAsset B assetID fun p => do
    match (← asset p).mandate.at? operatorID tokenID with
    | none => return .error (.sentinel .errMandateNotFound)
    | some mandate => do
      takeAmount p mandate.amount value fun ao =>
        { ao with mandate := dropReserved ao.mandate operatorID tokenID }
      updateAssetTree assetID p
      return .ok ()

/-- `ConsumeMandate`. -/
def consumeMandate (assetID : AssetID) (tokenID : TokenID) (operatorID : Identifier)
    (value : Ptr Int) : Method (Except Err (Option (Ptr MetaData))) := do
  match ← subMandateBalance B assetID tokenID operatorID value with
  | .error e => return .error e
  | .ok () => subBalance B assetID tokenID value

/-- `DeleteMandate`. -/
def deleteMandate (assetID : AssetID) (tokenID : TokenID) (beneficiary : Identifier) :
    Method (Except Err Unit) :=
  withAsset B assetID fun p => do
    setAsset p fun ao => { ao with mandate := dropReserved ao.mandate beneficiary tokenID }
    updateAssetTree assetID p
    return .ok ()

/-! ## 5. Metadata and supply -/

/-- `ao.Properties.…`, changed in place. -/
def setProperties (p : Ptr AssetObject) (f : AssetDescriptor → AssetDescriptor) : Method Unit := do
  let _ ← ofGo (Go.deref (← asset p).properties)
  setAsset p fun ao => { ao with properties := ao.properties.map f }

/-- `SetAssetMetadata`. -/
def setAssetMetadata (assetID : AssetID) (isStatic : Bool) (key value : Bytes) :
    Method (Except Err Unit) :=
  withAsset B assetID fun p => do
    -- the deferred call puts the object into the transaction on every way out
    updateAssetTree assetID p
    let properties ← ofGo (Go.deref (← asset p).properties)
    if isStatic then
      if key ∈ properties.staticMetaData then return .error (.sentinel .errKeyExists)
      setProperties p fun d => { d with staticMetaData := d.staticMetaData.insert key value }
      return .ok ()
    else
      setProperties p fun d => { d with dynamicMetaData := d.dynamicMetaData.insert key value }
      return .ok ()

/-- `m[key] = value`; a nil map panics. -/
def insertEntry (m : Option (GoMap Bytes Bytes)) (key value : Bytes) : Go (GoMap Bytes Bytes) :=
  match m with
  | none => .error (.explicit "assignment to entry in nil map")
  | some entries => .ok (entries.insert key value)

/-- `updateStaticTokenMetaData`, `updateDynamicTokenMetaData`, on the metadata of the token. -/
def updateTokenMetaData (m : Ptr MetaData) (isStatic : Bool) (key value : Bytes) :
    Method (Except Err Unit) := do
  let metadata ← metaData m
  if isStatic then
    if key ∈ metadata.static.getD ∅ then return .error (.sentinel .errKeyExists)
    let entries ← ofGo (insertEntry metadata.static key value)
    setMetaData m { metadata with static := some entries }
    return .ok ()
  else
    let entries ← ofGo (insertEntry metadata.dynamic key value)
    setMetaData m { metadata with dynamic := some entries }
    return .ok ()

/-- `SetTokenMetadata`. -/
def setTokenMetadata (assetID : AssetID) (tokenID : TokenID) (isStatic : Bool)
    (key value : Bytes) : Method (Except Err Unit) :=
  withAsset B assetID fun p => do
    let ao ← asset p
    if ao.hasTokenID tokenID then
      updateAssetTree assetID p
      match ao.tokenMetaData.lookup tokenID with
      | some m => updateTokenMetaData m isStatic key value
      | none => do
        let m ← newMetaData { static := some ∅, dynamic := some ∅ }
        setAsset p fun ao => { ao with tokenMetaData := ao.tokenMetaData.insert tokenID m }
        updateTokenMetaData m isStatic key value
    else return .error (.sentinel .errTokenNotFound)

/-- `CreateAsset`. -/
def createAsset (descriptor : AssetDescriptor) : Method (Option Err) := do
  let p ← newAsset (.new (some descriptor))
  insertNewAssetObject B descriptor.assetID p

/-- `MintAsset`. The pointer is not put into the transaction. -/
def mintAsset (assetID : AssetID) (value : Ptr Int) : Method (Except Err Unit) :=
  withAsset B assetID fun p => do
    let n ← amount value
    setProperties p fun d => { d with circulatingSupply := d.circulatingSupply + n }
    return .ok ()

/-- `BurnAsset`. -/
def burnAsset (assetID : AssetID) (value : Ptr Int) : Method (Except Err Unit) :=
  withAsset B assetID fun p => do
    let n ← amount value
    setProperties p fun d => { d with circulatingSupply := d.circulatingSupply - n }
    updateAssetTree assetID p
    return .ok ()

/-! ## 6. Fuel -/

variable (kmoiTokenAssetID : AssetID)

/-- `HasSufficientFuel`. -/
def hasSufficientFuel (cost : Int) : Method (Except Err Bool) := do
  if cost < 0 then return .error (.new "invalid transfer amount")
  match ← balanceOf B kmoiTokenAssetID defaultTokenID with
  | .error e => return .error e
  | .ok balance => return .ok (decide (cost ≤ balance))

/-- `DeductFuel`. -/
def deductFuel (fee : Int) : Method Unit := do
  let _ ← subBalance B kmoiTokenAssetID defaultTokenID (← newAmount fee)
  return ()

end Object

end GoMoi
