/-
  File:      GoMoi/Common/Types.lean
  Subject:   The data of package `common` that consensus passes around: hashes, identifiers,
             errors, certificates, and the tesseract with what is attached to it.

  Types over `int` that a peer can send (`ConsensusMsgType`, `LockType`) keep every integer, with
  the named values as constants, because a decoded message need not hold a named one. Pointers
  that a decoded message can leave `nil` are `Option`s.

  A tesseract is split where `SignBytes` splits it: `TesseractBody` is what is encoded, hashed
  and sealed; the seal and the commit information (`CommitInfo`, with the commit certificate)
  travel beside it.
-/
import GoMoi.Lib.GoMap
import GoMoi.Common.ArrayOfBits

namespace GoMoi

/-! ## 1. Hashes, identifiers, errors -/

/-- A Go `[]byte` or `string`. -/
abbrev Bytes : Type := List UInt8

/-- `type Hash [32]byte`. -/
structure Hash where
  bits : BitVec 256
  deriving DecidableEq, Repr

/-- `NilHash`. -/
def nilHash : Hash := ⟨0⟩

def Hash.isNil (h : Hash) : Bool := h = nilHash

/-- `type Identifier [32]byte`. `bytes.Compare` orders identifiers as big-endian numbers. -/
structure Identifier where
  bits : BitVec 256
  deriving DecidableEq, Repr

instance : LinearOrder Identifier :=
  LinearOrder.lift' (fun i : Identifier => i.bits.toNat) fun a b h => by
    cases a
    cases b
    simp only [Identifier.mk.injEq]
    exact BitVec.eq_of_toNat_eq h

/-- `identifiers.Nil`. -/
def nilIdentifier : Identifier := ⟨0⟩

/-- `IsParticipantVariant`: a non-zero variant (the last four bytes) on an identifier whose tag
    (the upper half of the first byte) is `KindParticipant`. -/
def Identifier.isParticipantVariant (id : Identifier) : Bool :=
  decide (id.bits.setWidth 32 ≠ 0) && decide (id.bits >>> 252 = 0)

/-- `identifiers.AssetID`, which converts to an `Identifier` without a check. -/
abbrev AssetID : Type := Identifier

/-- `identifiers.LogicID`. -/
abbrev LogicID : Type := Identifier

abbrev KramaID : Type := Bytes

abbrev ClusterID : Type := Bytes

/-- The fields of `type MetaContextObject struct` that committees are built from. -/
structure MetaContextObject where
  consensusNodes : List KramaID
  consensusNodesHash : Hash
  deriving DecidableEq, Repr

/-- The error variables of packages `common`, `crypto/common` and `ixpool` that the model
    returns. -/
inductive Sentinel where
  | errAlreadyKnown
  | errInvalidSeal
  | errPreviousTesseractNotFound
  | errInvalidHeight
  | errInvalidBlockTime
  | errContextQuorumFailed
  | errRandomQuorumFailed
  | errConflictingVote
  | errSignatureVerificationFailed
  | errPublicKeyNotFound
  | errKramaIDNotFound
  | errInvalidView
  | errInvalidTimestamp
  | errOperatorNotEligible
  | errIxnsNotFound
  | errNotAMember
  | errSlotsFull
  | errKeyNotFound
  | errSyncRequestSent
  | errContextStateNotFound
  | errEmpty
  | errInvalidBLSPublicKeyLength
  | errInsufficientSigLength
  | errUnsupportedSigType
  | errUnsupportedAggSignature
  | errObjectNotFound
  | errKeyExists
  | errAssetNotFound
  | errTokenNotFound
  | errAssetAlreadyRegistered
  | errLogicStorageTreeNotFound
  | errMandateNotFound
  | errLockupNotFound
  | errInvalidKeyID
  | errMissingSender
  | errMissingPayer
  | errMissingValuePayload
  | errMissingAssetAccount
  | errMissingLogicAccount
  | errMissingForeignLogicAccount
  | errInvalidInteractionType
  | errInvalidIdentifier
  | errInvalidIXSignature
  | errInvalidWeight
  | errInvalidSenderSignature
  | errInvalidAmount
  | errInvalidAccess
  | errBeneficiaryNotRegistered
  | errInsufficientFunds
  | errMandateExpired
  | errManagerMismatch
  | errMaxSupplyReached
  | errInvalidBeneficiary
  | errAccountAlreadyRegistered
  | errInvalidKey
  | errInvalidValue
  | errDBCallFailed
  | errAccountNotFound
  | errHashMismatch
  | errEmptyHash
  | errCommitInfoNotFound
  | errTimeOut
  | errOversizedData
  | errUnderpriced
  | errSequenceIDTooLow
  | errInvalidAssetSymbol
  | errInvalidAssetStandard
  | errInvalidLogicPayload
  | errEmptyManifest
  | errInvalidAssetID
  | errInvalidSignatureAlgorithm
  | errInvalidAccountConfigure
  | errSenderAccount
  | errInvalidTargetAccount
  | errInvalidCallSite
  | errInvalidKramaID
  | errMissingLogicID
  | errInvalidLogicID
  deriving DecidableEq, Repr

abbrev Err : Type := GoError Sentinel

/-! ## 2. Message and lock types -/

/-- `type ConsensusMsgType int`. -/
structure ConsensusMsgType where
  val : Int
  deriving DecidableEq, Repr

def PROPOSAL : ConsensusMsgType := ⟨1⟩
def PREVOTE : ConsensusMsgType := ⟨2⟩
def PRECOMMIT : ConsensusMsgType := ⟨3⟩

/-- `type LockType int`. -/
structure LockType where
  val : Int
  deriving DecidableEq, Repr

def mutateLock : LockType := ⟨0⟩
def readLock : LockType := ⟨1⟩
def noLock : LockType := ⟨2⟩

/-- `GenesisView`. -/
def genesisView : UInt64 := 0

/-! ## 3. Certificates and the tesseract -/

/-- `type Qc struct`. -/
structure Qc where
  type : ConsensusMsgType
  view : UInt64
  tsHash : Hash
  signerIndices : Option ArrayOfBits
  signature : Bytes
  deriving DecidableEq, Repr

/-- `type CanonicalVote struct`: what a validator signs. -/
structure CanonicalVote where
  type : ConsensusMsgType
  view : UInt64
  tsHash : Hash
  deriving DecidableEq, Repr

/-- `type DeltaGroup struct`. -/
structure DeltaGroup where
  consensusNodes : List KramaID
  replacedNodes : List KramaID
  deriving DecidableEq, Repr

/-- `type State struct`: what a tesseract records for one participant. -/
structure State where
  height : UInt64
  transitiveLink : Hash
  lockedContext : Hash
  contextDelta : Option DeltaGroup
  stateHash : Hash
  deriving DecidableEq, Repr

abbrev ParticipantsState : Type := GoMap Identifier State

/-- `type PoXtData struct`. -/
structure PoXtData where
  proposer : KramaID
  binaryHash : Hash
  identityHash : Hash
  view : UInt64
  lastCommit : GoMap Identifier Hash
  evidenceHash : GoMap Identifier Hash
  accountLocks : GoMap Identifier LockType
  icsSeed : Hash
  icsProof : Bytes

/-- `type CommitInfo struct`. -/
structure CommitInfo where
  qc : Option Qc
  operator : KramaID
  clusterID : ClusterID
  view : UInt64
  randomSet : List Nat
  randomSetSizeWithoutDelta : UInt32
  deriving DecidableEq, Repr

/-- The part of a tesseract that `SignBytes` encodes. -/
structure TesseractBody where
  participants : ParticipantsState
  interactionsHash : Hash
  receiptsHash : Hash
  epoch : Int
  timestamp : UInt64
  fuelUsed : UInt64
  fuelLimit : UInt64
  consensusInfo : PoXtData

/-- `type Tesseract struct`, without the interactions and receipts loaded beside it. -/
structure Tesseract extends TesseractBody where
  sealBytes : Bytes
  sealBy : KramaID
  commitInfo : Option CommitInfo

namespace Tesseract

/-- `AccountIDs`. -/
def accountIDs (ts : Tesseract) : List Identifier := ts.participants.sortedKeys

/-- `State`. -/
def state (ts : Tesseract) (id : Identifier) : Option State := ts.participants.lookup id

/-- `Height`; zero for an account that does not take part. -/
def height (ts : Tesseract) (id : Identifier) : UInt64 :=
  match ts.participants.lookup id with
  | none => 0
  | some ps => ps.height

/-- `StateHash`. -/
def stateHash (ts : Tesseract) (id : Identifier) : Hash :=
  match ts.participants.lookup id with
  | none => nilHash
  | some ps => ps.stateHash

/-- `TransitiveLink`. -/
def transitiveLink (ts : Tesseract) (id : Identifier) : Hash :=
  match ts.participants.lookup id with
  | none => nilHash
  | some ps => ps.transitiveLink

end Tesseract

/-! ## 4. Encoding and hashing -/

/-- The POLO encoder and the hash function, which are packages of their own. -/
structure Codec where
  polorizeBody : TesseractBody → Except Err Bytes
  polorizeVote : CanonicalVote → Except Err Bytes
  blake2b : Bytes → Hash

/-- `SignBytes`. -/
def Tesseract.signBytes (C : Codec) (ts : Tesseract) : Except Err Bytes :=
  C.polorizeBody ts.toTesseractBody

/-- `Hash`: a tesseract that cannot be encoded has none. -/
def Tesseract.hash (C : Codec) (ts : Tesseract) : Go Hash :=
  match ts.signBytes C with
  | .error _ => .error (.explicit "polorize")
  | .ok raw => pure (C.blake2b raw)

/-- **The hash covers neither the seal nor the commit information.** -/
theorem Tesseract.hash_body {C : Codec} {ts ts' : Tesseract}
    (h : ts.toTesseractBody = ts'.toTesseractBody) : ts.hash C = ts'.hash C := by
  unfold Tesseract.hash Tesseract.signBytes
  rw [h]

/-- `CanonicalVote.Bytes`. -/
def CanonicalVote.bytes (C : Codec) (cv : CanonicalVote) : Except Err Bytes :=
  match C.polorizeVote cv with
  | .error e => .error (.wrap e "failed to polorize canonical vote")
  | .ok raw => .ok raw

end GoMoi
