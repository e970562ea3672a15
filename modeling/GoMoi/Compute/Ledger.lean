/-
  File:      GoMoi/Compute/Ledger.lean
  Subject:   What the calls of the asset engine do to the books of all accounts.

  A ledger says what every account holds of every asset, in numbers. A call moves amounts between
  places of it. `EngineEffect` lists what a call can do, with what was checked before; it is the
  specification that the engine meets (`Compute/EngineEffects`), and all that the results on supply
  and spending need.

  * `Ledger.tally` -- a sum over all accounts of a measure of what is held, with `tally_set`:
    changing one account changes the sum by the difference.
-/
import Mathlib.Algebra.BigOperators.Ring.Finset
import Mathlib.Data.Finite.Prod
import Mathlib.Data.Finite.Sum
import GoMoi.Compute.AssetEngine
import GoMoi.State.AssetWork

namespace GoMoi

open Finset

/-! ## 1. Books -/

/-- What every account holds of every asset. -/
abbrev Ledger : Type := Identifier → AssetID → Holding

namespace Ledger

/-- One entry replaced. -/
def set (L : Ledger) (id : Identifier) (a : AssetID) (H : Holding) : Ledger :=
  fun id' a' => if id' = id ∧ a' = a then H else L id' a'

/-- Less at a place. -/
def take (L : Ledger) (id : Identifier) (a : AssetID) (pl : Purse) (n : Int) : Ledger :=
  L.set id a ((L id a).take pl n)

/-- More of a token. -/
def credit (L : Ledger) (id : Identifier) (a : AssetID) (t : TokenID) (n : Int) : Ledger :=
  L.set id a ((L id a).credit t n)

/-- More locked up by `id` for `beneficiary`. -/
def lock (L : Ledger) (id : Identifier) (a : AssetID) (beneficiary : Identifier) (t : TokenID)
    (n : Int) : Ledger :=
  L.set id a ((L id a).lock beneficiary t n)

/-- More in circulation, in the record of the asset. -/
def issue (L : Ledger) (a : AssetID) (n : Int) : Ledger := L.set a a ((L a a).issue n)

/-- The balance of a token. -/
def balance (L : Ledger) (id : Identifier) (a : AssetID) (t : TokenID) : Option Int :=
  (L id a).amount (.balance t)

variable {L : Ledger} {id : Identifier} {a : AssetID} {H : Holding}

@[simp] theorem set_same : L.set id a H id a = H := if_pos ⟨rfl, rfl⟩

theorem set_of_ne {id' : Identifier} {a' : AssetID} (h : ¬ (id' = id ∧ a' = a)) :
    L.set id a H id' a' = L id' a' := if_neg h

@[simp] theorem set_self : L.set id a (L id a) = L := by
  funext id' a'
  unfold set
  split
  case isTrue h => rw [h.1, h.2]
  case isFalse => rfl

theorem set_set {H' : Holding} : (L.set id a H).set id a H' = L.set id a H' := by
  funext id' a'
  unfold set
  split
  case isTrue => rfl
  case isFalse => rfl

end Ledger

/-! ## 2. What a call can do -/

/-- What a call can do to the books. `linked` says that the record of an asset is in the transaction
    of its account; only then a mint raises the supply that is seen. -/
inductive EngineEffect (linked : AssetID → Prop) (L : Ledger) : EngineOp → Ledger → Prop where
  /-- refused, or nothing that counts -/
  | same (op : EngineOp) : EngineEffect linked L op L
  | transfer {a : AssetID} {t : TokenID} {operator beneficiary : Identifier} {value n : Int}
      {access : Access} (hpos : 1 ≤ value) (hn : L.balance operator a t = some n)
        (hle : value ≤ n) :
      EngineEffect linked L (.transfer a t operator nilIdentifier beneficiary value access)
        ((L.take operator a (.balance t) value).credit beneficiary a t value)
  | consume {a : AssetID} {t : TokenID} {operator benefactor beneficiary : Identifier}
      {value n k : Int} {access : Access} (hne : benefactor ≠ nilIdentifier)
      (hk : (L benefactor a).amount (.mandate operator t) = some k) (hlek : value ≤ k)
      (hn : L.balance benefactor a t = some n) (hle : value ≤ n) :
      EngineEffect linked L (.transfer a t operator benefactor beneficiary value access)
        (((L.take benefactor a (.mandate operator t) value).take benefactor a (.balance t)
          value).credit beneficiary a t value)
  | mint {a : AssetID} {t : TokenID} {sender beneficiary : Identifier} {value : Int}
      {staticMetadata : List (Bytes × Bytes)} {access : Access} {s : Supply} (hpos : 1 ≤ value)
      (hs : (L a a).supply = some s) (hmax : s.circulating + value ≤ s.max) (hlinked : linked a) :
      EngineEffect linked L (.mint a t sender beneficiary value staticMetadata access)
        ((L.issue a value).credit beneficiary a t value)
  | mintUnseen {a : AssetID} {t : TokenID} {sender beneficiary : Identifier} {value : Int}
      {staticMetadata : List (Bytes × Bytes)} {access : Access} (hpos : 1 ≤ value)
      (hlinked : ¬ linked a) :
      EngineEffect linked L (.mint a t sender beneficiary value staticMetadata access)
        (L.credit beneficiary a t value)
  | burn {a : AssetID} {t : TokenID} {benefactor : Identifier} {value n : Int} {access : Access}
      {s : Supply} (hpos : 1 ≤ value) (hs : (L a a).supply = some s)
      (hn : L.balance benefactor a t = some n) (hle : value ≤ n) :
      EngineEffect linked L (.burn a t benefactor value access)
        ((L.take benefactor a (.balance t) value).issue a (-value))
  | approve {a : AssetID} {t : TokenID} {benefactor beneficiary : Identifier} {value : Int}
      {expiresAt : UInt64} {access : Access} {H : Holding} (hpos : 1 ≤ value)
      (hH : (L benefactor a).Approved beneficiary t value H) :
      EngineEffect linked L (.approve a t benefactor beneficiary value expiresAt access)
        (L.set benefactor a H)
  | revoke {a : AssetID} {t : TokenID} {benefactor beneficiary : Identifier} {access : Access} :
      EngineEffect linked L (.revoke a t benefactor beneficiary access)
        (L.set benefactor a ((L benefactor a).revoke beneficiary t))
  | lockup {a : AssetID} {t : TokenID} {benefactor beneficiary : Identifier} {value n : Int}
      {access : Access} (hpos : 1 ≤ value) (hn : L.balance benefactor a t = some n)
      (hle : value ≤ n) :
      EngineEffect linked L (.lockup a t benefactor beneficiary value access)
        ((L.take benefactor a (.balance t) value).lock benefactor a beneficiary t value)
  | release {a : AssetID} {t : TokenID} {operator benefactor beneficiary : Identifier}
      {value k : Int} {access : Access}
      (hk : (L benefactor a).amount (.lockup operator t) = some k) (hle : value ≤ k) :
      EngineEffect linked L (.release a t operator benefactor beneficiary value access)
        ((L.take benefactor a (.lockup operator t) value).credit beneficiary a t value)
  | create {ixHash : Hash} {descriptor : AssetDescriptor}
      (hnone : L descriptor.assetID descriptor.assetID = .empty) :
      EngineEffect linked L (.createAsset ixHash descriptor)
        (L.set descriptor.assetID descriptor.assetID
          ⟨fun _ => none, some ⟨0, descriptor.maxSupply⟩⟩)

/-! ## 3. Sums over all accounts -/

instance : Finite TokenID :=
  Finite.of_injective UInt64.toFin fun _ _ h => UInt64.toFin_inj.mp h

instance : Finite Identifier :=
  Finite.of_injective (fun id : Identifier => id.bits.toFin) fun a b h => by
    cases a
    cases b
    exact congrArg Identifier.mk (BitVec.eq_of_toFin_eq h)

noncomputable instance : Fintype Identifier := Fintype.ofFinite _

/-- A place as one of three kinds. -/
def Purse.code : Purse → TokenID ⊕ (Identifier × TokenID) ⊕ (Identifier × TokenID)
  | .balance t => .inl t
  | .lockup id t => .inr (.inl (id, t))
  | .mandate id t => .inr (.inr (id, t))

theorem Purse.code_injective : Function.Injective Purse.code := by
  intro a b h
  cases a <;> cases b <;> simp_all [Purse.code]

instance : Finite Purse := Finite.of_injective Purse.code Purse.code_injective

noncomputable instance : Fintype Purse := Fintype.ofFinite _

/-- The sum over all accounts of a measure of what they hold of an asset. -/
noncomputable def Ledger.tally (w : Identifier → Holding → Int) (L : Ledger) (a : AssetID) : Int :=
  ∑ id, w id (L id a)

/-- Two sums that differ in one summand. -/
theorem sum_sub_of_ne {K : Type} [Fintype K] {f g : K → Int} (k : K)
    (h : ∀ k', k' ≠ k → f k' = g k') : ∑ k', f k' = ∑ k', g k' + (f k - g k) := by
  have hdiff : ∑ k', (f k' - g k') = f k - g k :=
    Finset.sum_eq_single k (fun k' _ hne => by rw [h k' hne, Int.sub_self])
      fun hk => absurd (mem_univ k) hk
  rw [← hdiff, sum_sub_distrib]
  omega

section

variable (w : Identifier → Holding → Int) (L : Ledger) (id : Identifier)

/-- **One account changed.** -/
theorem Ledger.tally_set (a : AssetID) (H : Holding) :
    (L.set id a H).tally w a = L.tally w a + (w id H - w id (L id a)) := by
  unfold tally
  rw [sum_sub_of_ne id fun id' hne => by rw [set_of_ne fun h => hne h.1], set_same]

theorem Ledger.tally_set_of_ne {a b : AssetID} (hne : b ≠ a) (H : Holding) :
    (L.set id a H).tally w b = L.tally w b := by
  exact sum_congr rfl fun id' _ => by rw [set_of_ne fun h => hne h.2]

end

end GoMoi
