/-
  File:      GoMoi/Common/Interaction.lean
  Subject:   Interactions: what a sender submits, how it is decoded, and the participants of one
             interaction and of a batch (`common/interaction.go`, `common/ixpayload.go`).

  * `IxData` -- what is submitted; `Interaction` -- the same with decoded operations and the
    participants, those declared and those an operation adds;
  * `newInteraction` -- `NewInteraction`. An operation adds the accounts it creates, Sarga or the
    system account, each only if the sender has not declared it: a declared lock stays;
  * `batchParticipants` -- the participants of a batch; of two locks the lower number wins.

  Payload encodings and hashes are parameters (`IxEnv`). Left out are funds, preferences, perception
  and the trusted nodes of an interaction, which nothing here reads.
-/
import GoMoi.Common.Account
import GoMoi.Common.Receipt

namespace GoMoi

/-! ## 1. What is submitted -/

/-- `type ParticipantInfo struct`; its identifier is the key it is stored under. -/
structure ParticipantInfo where
  isSigner : Bool
  lockType : LockType
  isGenesis : Bool
  deriving DecidableEq, Repr

/-- `type IxParticipant struct`. -/
structure IxParticipant where
  id : Identifier
  lockType : LockType
  notary : Bool
  deriving DecidableEq, Repr

/-- `type Sender struct`. -/
structure Sender where
  id : Identifier
  sequenceID : UInt64
  keyID : UInt64
  deriving DecidableEq, Repr

/-- `type IxOpRaw struct`. -/
structure IxOpRaw where
  type : IxOpType
  payload : Bytes
  deriving DecidableEq, Repr

/-- `type IxData struct`. -/
structure IxData where
  sender : Sender
  payer : Identifier
  fuelPrice : Option Int
  fuelLimit : UInt64
  ixOps : List IxOpRaw
  participants : List IxParticipant
  deriving DecidableEq, Repr

/-- `type Signature struct` of an interaction. -/
structure IxSignature where
  id : Identifier
  keyID : UInt64
  signature : Bytes
  deriving DecidableEq, Repr

/-- `ParticipantsInfo`. Of two entries for one identifier the later one counts. -/
def IxData.participantsInfo (ixData : IxData) : GoMap Identifier ParticipantInfo :=
  ixData.participants.foldl (fun psInfo ps => psInfo.insert ps.id
    { isSigner := decide (ps.id = ixData.sender.id)
      lockType := ps.lockType
      isGenesis := false }) ∅

/-! ## 2. Payloads -/

/-- `type KeyAddPayload struct`. -/
structure KeyAddPayload where
  publicKey : Bytes
  weight : UInt64
  signatureAlgorithm : UInt64
  deriving DecidableEq, Repr

/-- `type AssetActionPayload struct`. -/
structure AssetActionPayload where
  assetID : AssetID
  callsite : Bytes
  calldata : Bytes
  deriving DecidableEq, Repr

/-- `type ParticipantCreatePayload struct`. -/
structure ParticipantCreatePayload where
  id : Identifier
  keysPayload : List KeyAddPayload
  value : Option AssetActionPayload
  deriving DecidableEq, Repr

/-- `type AccountConfigurePayload struct`; of a revoked key its number. -/
structure AccountConfigurePayload where
  add : List KeyAddPayload
  revoke : List UInt64
  deriving DecidableEq, Repr

/-- `type AccountInheritPayload struct`. -/
structure AccountInheritPayload where
  targetAccount : Identifier
  value : Option AssetActionPayload
  subAccountIndex : UInt32
  deriving DecidableEq, Repr

/-- `type LogicPayload struct`; of the interfaces the identifiers, in the order of one iteration. -/
structure LogicPayload where
  manifest : Bytes
  logicID : LogicID
  callsite : Bytes
  calldata : Bytes
  interfaces : List Identifier
  deriving DecidableEq, Repr

/-- `type AssetCreatePayload struct`. -/
structure AssetCreatePayload where
  symbol : Bytes
  dimension : UInt8
  decimals : UInt8
  standard : UInt16
  enableEvents : Bool
  manager : Identifier
  maxSupply : Int
  staticMetadata : GoMap Bytes Bytes
  dynamicMetaData : GoMap Bytes Bytes
  logic : Option LogicPayload

/-- `type GuardianRegisterPayload struct`; `none` is `nil`. -/
structure GuardianRegisterPayload where
  kramaID : KramaID
  walletID : Identifier
  consensusKey : Option Bytes
  kycProof : Option Bytes
  amount : Option Int
  deriving DecidableEq, Repr

/-- `type GuardianActionPayload struct`. -/
structure GuardianActionPayload where
  kramaID : KramaID
  amount : Option Int
  deriving DecidableEq, Repr

/-- `type IxOpPayload struct`: the one field that is set. -/
inductive IxOpPayload where
  | participantCreate (p : ParticipantCreatePayload)
  | accountConfigure (p : AccountConfigurePayload)
  | accountInherit (p : AccountInheritPayload)
  | assetCreate (p : AssetCreatePayload)
  | assetAction (p : AssetActionPayload)
  | logic (p : LogicPayload)
  | guardianRegister (p : GuardianRegisterPayload)
  | guardianAction (p : GuardianActionPayload)

/-- `type IxOp struct`, without the interaction it belongs to. -/
structure IxOp where
  target : Identifier
  type : IxOpType
  payload : IxOpPayload

/-- `type Interaction struct`. -/
structure Interaction where
  inner : IxData
  ops : List IxOp
  ps : GoMap Identifier ParticipantInfo
  leaderCandidateAcc : Identifier
  hash : Hash
  size : Nat
  signatures : List IxSignature

namespace Interaction

/-- `SenderID`. -/
def senderID (ix : Interaction) : Identifier := ix.inner.sender.id

/-- `SenderKeyID`. -/
def senderKeyID (ix : Interaction) : UInt64 := ix.inner.sender.keyID

/-- `FuelPrice`. -/
def fuelPrice (ix : Interaction) : Int := ix.inner.fuelPrice.getD 0

/-- `FuelLimit`. -/
def fuelLimit (ix : Interaction) : UInt64 := ix.inner.fuelLimit

/-- `KMOITokenValue`. -/
def kmoiTokenValue (_ : Interaction) : Int := 0

/-- `Cost`. -/
def cost (ix : Interaction) : Int := ix.fuelPrice * ix.fuelLimit.toNat + ix.kmoiTokenValue

end Interaction

/-! ## 3. Acceptance -/

/-- What decoding and hashing give: the payloads of the operation types, the encodings that are
    hashed and measured, and the accounts with a name of their own. -/
structure IxEnv where
  ids : AccountIDs
  participantCreate : Bytes → Except Err ParticipantCreatePayload
  accountConfigure : Bytes → Except Err AccountConfigurePayload
  accountInherit : Bytes → Except Err AccountInheritPayload
  assetCreate : Bytes → Except Err AssetCreatePayload
  assetAction : Bytes → Except Err AssetActionPayload
  logic : Bytes → Except Err LogicPayload
  guardianRegister : Bytes → Except Err GuardianRegisterPayload
  guardianAction : Bytes → Except Err GuardianActionPayload
  polorize : IxData → Except Err Bytes
  signaturesBytes : List IxSignature → Except Err Bytes
  getHash : Bytes → Hash
  /-- `NewAccountID`: 24 bytes of the hash of a sender. -/
  newAccountID : Sender → BitVec 192

/-- `DeriveVariant` without flags: the last four bytes replaced. -/
def Identifier.deriveVariant (id : Identifier) (variant : UInt32) : Identifier :=
  ⟨id.bits.extractLsb' 32 224 ++ variant.toBitVec⟩

/-- `GenerateAssetIDv0` with variant 0 and the flags of `AssetCreatePayload.Flags`: tag, flags,
    standard, fingerprint, variant. -/
def generateAssetIDv0 (fingerprint : BitVec 192) (standard : UInt16) : AssetID :=
  ⟨0x10#8 ++ 0x03#8 ++ standard.toBitVec ++ fingerprint ++ 0#32⟩

/-- `GenerateLogicIDv0` with variant 0 and no flags. -/
def generateLogicIDv0 (fingerprint : BitVec 192) : LogicID :=
  ⟨0x20#8 ++ 0x00#8 ++ 0#16 ++ fingerprint ++ 0#32⟩

/-- The participants while operations are read. -/
abbrev ParticipantInfos : Type := GoMap Identifier ParticipantInfo

namespace ParticipantInfos

/-- An account that an operation needs: entered with a mutate lock unless it is there already. -/
def ensure (ps : ParticipantInfos) (id : Identifier) (isGenesis : Bool) : ParticipantInfos :=
  if id ∈ ps then ps
  else ps.insert id { isSigner := false, lockType := mutateLock, isGenesis := isGenesis }

/-- The loop over the foreign logics of a call. -/
def foreignLogics : ParticipantInfos → List Identifier → Except Err ParticipantInfos
  | ps, [] => .ok ps
  | ps, id :: rest =>
    if id ∈ ps then foreignLogics (ps.modify id fun info => { info with isSigner := false }) rest
    else .error (.sentinel .errMissingForeignLogicAccount)

end ParticipantInfos

/-- One round of the loop over the operations: the operation decoded, and the participants with the
    accounts it adds. -/
def IxEnv.readOp (E : IxEnv) (sender : Sender) (ps : ParticipantInfos) (op : IxOpRaw) :
    Except Err (IxOp × ParticipantInfos) := do
  if op.type = ixParticipantCreate then
    let p ← E.participantCreate op.payload
    let ps := (ps.ensure E.ids.sargaAccountID false).ensure p.id true
    match p.value with
    | none => throw (.sentinel .errMissingValuePayload)
    | some value =>
      if value.assetID ∈ ps then return (⟨p.id, op.type, .participantCreate p⟩, ps)
      else throw (.sentinel .errMissingAssetAccount)
  else if op.type = ixAccountConfigure then
    let p ← E.accountConfigure op.payload
    return (⟨nilIdentifier, op.type, .accountConfigure p⟩, ps)
  else if op.type = ixAccountInherit then
    let p ← E.accountInherit op.payload
    match p.value with
    | none => throw (.sentinel .errMissingValuePayload)
    | some value =>
      let subAccount := sender.id.deriveVariant p.subAccountIndex
      let ps := (ps.ensure subAccount true).ensure E.ids.sargaAccountID false
      if value.assetID ∈ ps then return (⟨subAccount, op.type, .accountInherit p⟩, ps)
      else throw (.sentinel .errMissingAssetAccount)
  else if op.type = ixAssetCreate then
    let p ← E.assetCreate op.payload
    let assetID := generateAssetIDv0 (E.newAccountID sender) p.standard
    let ps := (ps.ensure E.ids.sargaAccountID false).ensure assetID true
    return (⟨assetID, op.type, .assetCreate p⟩, ps)
  else if op.type = ixAssetAction then
    let p ← E.assetAction op.payload
    if p.assetID ∈ ps then return (⟨p.assetID, op.type, .assetAction p⟩, ps)
    else throw (.sentinel .errMissingAssetAccount)
  else if op.type = ixLogicInvoke then
    let p ← E.logic op.payload
    if p.logicID ∈ ps then
      let ps ← ps.foreignLogics p.interfaces
      return (⟨p.logicID, op.type, .logic p⟩, ps)
    else throw (.sentinel .errMissingLogicAccount)
  else if op.type = ixLogicDeploy then
    let p ← E.logic op.payload
    let logicID := generateLogicIDv0 (E.newAccountID sender)
    let ps := (ps.ensure E.ids.sargaAccountID false).ensure logicID true
    return (⟨logicID, op.type, .logic p⟩, ps)
  else if op.type = ixGuardianRegister then
    let p ← E.guardianRegister op.payload
    return (⟨nilIdentifier, op.type, .guardianRegister p⟩, ps.ensure E.ids.systemAccountID false)
  else if op.type = ixGuardianStake ∨ op.type = ixGuardianUnstake ∨ op.type = ixGuardianWithdraw ∨
      op.type = ixGuardianClaim then
    let p ← E.guardianAction op.payload
    return (⟨nilIdentifier, op.type, .guardianAction p⟩, ps.ensure E.ids.systemAccountID false)
  else throw (.sentinel .errInvalidInteractionType)

/-- The loop over the operations. -/
def IxEnv.readOps (E : IxEnv) (sender : Sender) :
    ParticipantInfos → List IxOpRaw → Except Err (List IxOp × ParticipantInfos)
  | ps, [] => .ok ([], ps)
  | ps, op :: rest => do
    let (ixOp, ps) ← E.readOp sender ps op
    let (ixOps, ps) ← E.readOps sender ps rest
    return (ixOp :: ixOps, ps)

/-- The loop of `UpdateLeaderCandidateID`, in the order of one iteration over the map. Sarga or the
    system account ends it; else the accounts with a mutate lock are collected. -/
def candidates (ids : AccountIDs) (ps : ParticipantInfos) :
    List Identifier → List Identifier × List Identifier →
      Except Err (Identifier ⊕ (List Identifier × List Identifier))
  | [], found => .ok (.inr found)
  | id :: rest, (regular, nonRegular) =>
    match ps.lookup id with
    | none => candidates ids ps rest (regular, nonRegular)
    | some info =>
      if ids.accountTypeFromID id = .invalidAccount then .error (.sentinel .errInvalidIdentifier)
      else if id = ids.sargaAccountID ∨ id = ids.systemAccountID then .ok (.inl id)
      else if info.isGenesis then candidates ids ps rest (regular, nonRegular)
      else if ids.accountTypeFromID id = .regularAccount ∧ info.lockType = mutateLock then
        candidates ids ps rest (regular ++ [id], nonRegular)
      else if info.lockType.val < readLock.val then
        candidates ids ps rest (regular, nonRegular ++ [id])
      else candidates ids ps rest (regular, nonRegular)

/-- `UpdateLeaderCandidateID`: the account, or a panic if no account has a mutate lock. -/
def updateLeaderCandidateID (ids : AccountIDs) (order : List Identifier) (ps : ParticipantInfos) :
    Go (Except Err Identifier) :=
  if ps.keys.length = 0 then .ok (.error (.new "empty ix participants"))
  else match candidates ids ps order ([], []) with
    | .error e => .ok (.error e)
    | .ok (.inl id) => .ok (.ok id)
    | .ok (.inr (regular, nonRegular)) =>
      match nonRegular.mergeSort (· ≤ ·), regular.mergeSort (· ≤ ·) with
      | id :: _, _ => .ok (.ok id)
      | [], id :: _ => .ok (.ok id)
      | [], [] => .error .indexOutOfRange

/-- `NewInteraction`. -/
def newInteraction (E : IxEnv) (order : List Identifier) (ixData : IxData)
    (signatures : List IxSignature) : Go (Except Err Interaction) :=
  match E.polorize ixData with
  | .error e => .ok (.error e)
  | .ok data =>
    let ps := ixData.participantsInfo
    if ixData.sender.id ∉ ps then .ok (.error (.sentinel .errMissingSender))
    else if ixData.payer ≠ nilIdentifier ∧ ixData.payer ∉ ps then
      .ok (.error (.sentinel .errMissingPayer))
    else match E.readOps ixData.sender ps ixData.ixOps with
      | .error e => .ok (.error e)
      | .ok (ops, ps) => match E.signaturesBytes signatures with
        | .error e => .ok (.error e)
        | .ok signaturesBytes => do
          match ← updateLeaderCandidateID E.ids order ps with
          | .error e => return .error e
          | .ok leader =>
            pure (.ok { inner := ixData, ops := ops, ps := ps, leaderCandidateAcc := leader
                        hash := E.getHash data
                        size := data.length + signaturesBytes.length
                        signatures := signatures })

/-! ## 4. A batch -/

/-- One round of the loops of `Interactions.Participants`. -/
def mergeParticipant (ps : ParticipantInfos) (id : Identifier) (info : ParticipantInfo) :
    ParticipantInfos :=
  match ps.lookup id with
  | none => ps.insert id info
  | some oldInfo => if oldInfo.lockType.val < info.lockType.val then ps else ps.insert id info

/-- `Interactions.Participants`. -/
def batchParticipants (ixs : List Interaction) : ParticipantInfos :=
  ixs.foldl (fun ps ix => ix.ps.entries.foldl (fun ps e => mergeParticipant ps e.1 e.2) ps) ∅

end GoMoi
