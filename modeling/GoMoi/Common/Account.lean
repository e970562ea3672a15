/-
  File:      GoMoi/Common/Account.lean
  Subject:   The kind of an identifier and the type of an account (`common/account.go`,
             `common/identifiers/identifier.go`).

  * `Identifier.kind` -- the upper half of the first byte;
  * `AccountIDs` -- the accounts with a name of their own, whose identifiers are hashes of it.
-/
import GoMoi.Common.Types

namespace GoMoi

/-- `Tag().Kind()`. -/
def Identifier.kind (id : Identifier) : Nat := (id.bits >>> 252).toNat

def kindParticipant : Nat := 0
def kindAsset : Nat := 1
def kindLogic : Nat := 2

/-- `SargaAccountID`, `SystemAccountID`: identifiers of logics, made from a name by hashing. -/
structure AccountIDs where
  sargaAccountID : Identifier
  systemAccountID : Identifier
  sarga_kind : sargaAccountID.kind = kindLogic
  system_kind : systemAccountID.kind = kindLogic
  ne : sargaAccountID ≠ systemAccountID

/-- `type AccountType int`. -/
inductive AccountType where
  | systemAccount
  | logicAccount
  | assetAccount
  | regularAccount
  | invalidAccount
  deriving DecidableEq, Repr

/-- `AccountTypeFromID`. -/
def AccountIDs.accountTypeFromID (ids : AccountIDs) (id : Identifier) : AccountType :=
  if id = ids.systemAccountID ∨ id = ids.sargaAccountID then .systemAccount
  else if id.kind = kindParticipant then .regularAccount
  else if id.kind = kindAsset then .assetAccount
  else if id.kind = kindLogic then .logicAccount
  else .invalidAccount

end GoMoi
