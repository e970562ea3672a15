/-
  File:      GoMoi/Common/Receipt.lean
  Subject:   Operation types, operation results and receipts (`common/ixtype.go`,
             `common/receipts.go`).

  * `IxOpType` -- a number; an interaction can carry one that has no name;
  * `Receipt` -- what is recorded of one interaction, with `setStatus`, `setFuelUsed`,
    `addIxOpResult`; payloads and logs of the results are left out.
-/
import GoMoi.Common.Types

namespace GoMoi

/-- `type IxOpType int`. -/
structure IxOpType where
  val : Int
  deriving DecidableEq, Repr

def ixInvalid : IxOpType := ⟨0⟩
def ixParticipantCreate : IxOpType := ⟨1⟩
def ixAccountConfigure : IxOpType := ⟨2⟩
def ixAccountInherit : IxOpType := ⟨3⟩
def ixAssetCreate : IxOpType := ⟨4⟩
def ixAssetAction : IxOpType := ⟨5⟩
def ixGuardianRegister : IxOpType := ⟨6⟩
def ixGuardianStake : IxOpType := ⟨7⟩
def ixGuardianUnstake : IxOpType := ⟨8⟩
def ixGuardianWithdraw : IxOpType := ⟨9⟩
def ixGuardianClaim : IxOpType := ⟨10⟩
def ixLogicDeploy : IxOpType := ⟨11⟩
def ixLogicInvoke : IxOpType := ⟨12⟩
def ixLogicEnlist : IxOpType := ⟨13⟩

/-- `type ReceiptStatus uint64`. -/
inductive ReceiptStatus where
  | receiptOk
  | receiptStateReverted
  | receiptInsufficientFuel
  deriving DecidableEq, Repr

/-- `type IxOpStatus uint64`. -/
inductive IxOpStatus where
  | resultOk
  | resultExceptionRaised
  | resultDefectRaised
  deriving DecidableEq, Repr

/-- `type IxOpResult struct`. -/
structure IxOpResult where
  ixType : IxOpType
  status : IxOpStatus
  deriving DecidableEq, Repr

/-- `type Receipt struct`. -/
structure Receipt where
  ixHash : Hash
  status : ReceiptStatus
  fuelUsed : UInt64
  ixOps : List IxOpResult
  deriving DecidableEq, Repr

namespace Receipt

/-- `NewReceipt`. -/
def new (ixHash : Hash) : Receipt where
  ixHash := ixHash
  status := .receiptOk
  fuelUsed := 0
  ixOps := []

/-- `SetStatus`. -/
def setStatus (r : Receipt) (status : ReceiptStatus) : Receipt := { r with status := status }

/-- `SetFuelUsed`. -/
def setFuelUsed (r : Receipt) (fuel : UInt64) : Receipt := { r with fuelUsed := fuel }

/-- `AddIxOpResult`. -/
def addIxOpResult (r : Receipt) (op : IxOpResult) : Receipt := { r with ixOps := r.ixOps ++ [op] }

end Receipt

/-- `type Receipts map[Hash]*Receipt`. -/
abbrev Receipts : Type := GoMap Hash Receipt

end GoMoi
