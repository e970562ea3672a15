/-
  File:      GoMoi/Compute/Supply.lean
  Subject:   The supply of an asset: what all accounts hold of it, and what its record says.

  The calls of the engine move amounts between accounts, and mint and burn change the record along
  with a balance. Two of the methods they call do not do what this needs. `AddBalance` to an account
  that has no balance of the token makes a new map of balances, and what the account had of other
  tokens of the asset is gone. `MintAsset` raises the supply in the object it fetched and does not
  put the object into the transaction; unless it is there already the new supply is lost. And a
  record may be made with a maximum below zero.

  * `EngineOp.Lossless` -- what a call must find so that nothing is lost;
  * `EngineEffect.balanced` -- then it keeps the books right; and so does a run.
-/
import GoMoi.Compute.Bank

namespace GoMoi

open Finset Purse Function Holding Ledger Bank

/-! ## 1. The two sides -/

/-- A mandate is a permission, not an amount held. -/
def Purse.counts : Purse → Bool
  | .mandate _ _ => false
  | _ => true

@[simp] theorem Purse.counts_balance (t : TokenID) : (balance t).counts = true := rfl

@[simp] theorem Purse.counts_lockup (id : Identifier) (t : TokenID) :
    (lockup id t).counts = true := rfl

@[simp] theorem Purse.counts_mandate (id : Identifier) (t : TokenID) :
    (mandate id t).counts = false := rfl

/-- The balances and lockups of an account, of all tokens. -/
noncomputable def Holding.total (H : Holding) : Int :=
  ∑ pl : Purse, if pl.counts then (H.amount pl).getD 0 else 0

/-- What all accounts hold of an asset. -/
noncomputable def Ledger.total (L : Ledger) (a : AssetID) : Int := L.tally (fun _ H => H.total) a

/-- The recorded circulating supply; without a record there is none. -/
def Ledger.circulating (L : Ledger) (a : AssetID) : Int :=
  ((L a a).supply.map Supply.circulating).getD 0

/-- The books are right. -/
structure Ledger.Balanced (L : Ledger) : Prop where
  total : ∀ a, L.total a = L.circulating a
  max : ∀ a s, (L a a).supply = some s → s.circulating ≤ s.max

/-- The books are right, up to `n` of the asset `a` that is held and not recorded. -/
structure Ledger.Off (L : Ledger) (a : AssetID) (n : Int) : Prop where
  total : ∀ b, L.total b = L.circulating b + if b = a then n else 0
  max : ∀ b s, (L b b).supply = some s → s.circulating ≤ s.max

/-! ## 2. What an account holds -/

namespace Holding

variable {H H' : Holding} {pl : Purse} {id : Identifier} {t : TokenID} {n : Int}

/-- One amount changed. -/
theorem total_update (H : Holding) (pl : Purse) (x : Option Int) (s : Option Supply) :
    total ⟨update H.amount pl x, s⟩ =
      H.total + if pl.counts then x.getD 0 - (H.amount pl).getD 0 else 0 := by
  unfold total
  rw [sum_sub_of_ne (g := fun pl => if pl.counts then (H.amount pl).getD 0 else 0) pl
    fun pl' hne => by simp only [update_of_ne hne]]
  simp only [update_self]
  split
  case isTrue => rfl
  case isFalse => rfl

theorem total_take : (H.take pl n).total = H.total - if pl.counts then n else 0 := by
  unfold take
  rw [total_update]
  have hnew : ∀ k : Int, (if k - n = 0 then none else some (k - n)).getD 0 = k - n := by
    intro k
    split
    case isTrue h => exact h.symm
    case isFalse => rfl
  rw [hnew]
  split
  case isTrue => omega
  case isFalse => omega

theorem total_lock : (H.lock id t n).total = H.total + n := by
  unfold lock
  rw [total_update, if_pos (counts_lockup id t), Option.getD_some]
  omega

/-- A credit, if the account has the token or no other. -/
theorem total_credit
    (h : H.amount (.balance t) ≠ none ∨ ∀ t', t' ≠ t → H.amount (.balance t') = none) :
    (H.credit t n).total = H.total + n := by
  unfold credit
  rcases hk : H.amount (.balance t) with _ | k
  swap
  · rw [total_update, if_pos (counts_balance t), hk, Option.getD_some, Option.getD_some]
    omega
  have hsole : soleBalance H.amount t n = update H.amount (.balance t) (some n) := by
    funext pl
    cases pl with
    | balance t' =>
      simp only [soleBalance]
      split
      case isTrue ht => rw [ht, update_self]
      case isFalse ht =>
        rw [update_of_ne (by simpa using ht)]
        exact ((h.resolve_left fun h => h hk) t' ht).symm
    | lockup id' t' => rw [update_of_ne (by simp)]; rfl
    | mandate id' t' => rw [update_of_ne (by simp)]; rfl
  rw [hsole, total_update, if_pos (counts_balance t), hk, Option.getD_some, Option.getD_none]
  omega

/-- Mandates do not count. -/
theorem total_congr (h : ∀ pl, pl.counts = true → H'.amount pl = H.amount pl) :
    H'.total = H.total := by
  refine sum_congr rfl fun pl _ => ?_
  split
  case isTrue hpl => rw [h pl hpl]
  case isFalse => rfl

theorem total_approved (h : H.Approved id t n H') : H'.total = H.total ∧ H'.supply = H.supply := by
  rcases h with rfl | rfl
  · exact ⟨by rw [total_update, if_neg (by simp), Int.add_zero], rfl⟩
  refine ⟨total_congr fun pl hpl => ?_, rfl⟩
  cases pl with
  | balance t' => rfl
  | lockup id' t' => rfl
  | mandate id' t' => cases hpl

theorem total_revoke : (H.revoke id t).total = H.total := by
  unfold revoke
  rw [total_update, if_neg (by simp), Int.add_zero]

theorem total_of_none (h : ∀ pl, H.amount pl = none) : H.total = 0 := by
  refine sum_eq_zero fun pl _ => ?_
  rw [h pl]
  split
  case isTrue => rfl
  case isFalse => rfl

theorem supply_credit : (H.credit t n).supply = H.supply := by
  unfold credit
  cases H.amount (.balance t) <;> rfl

end Holding

/-! ## 3. The books -/

namespace Ledger

variable {L : Ledger} {a : AssetID} {id : Identifier} {t : TokenID} {n k : Int} {H : Holding}
  {pl : Purse}

theorem Balanced.off (h : L.Balanced) (a : AssetID) : L.Off a 0 :=
  ⟨fun b => by rw [h.total b, ite_self, Int.add_zero], h.max⟩

theorem Off.balanced (h : L.Off a n) (hn : n = 0) : L.Balanced :=
  ⟨fun b => by rw [h.total b, hn, ite_self, Int.add_zero], h.max⟩

theorem total_set (L : Ledger) (id : Identifier) (a : AssetID) (H : Holding) :
    (L.set id a H).total a = L.total a + (H.total - (L id a).total) := tally_set _ L id a H

theorem total_set_of_ne (L : Ledger) (id : Identifier) {a b : AssetID} (hb : b ≠ a) (H : Holding) :
    (L.set id a H).total b = L.total b := tally_set_of_ne _ L id hb H

/-- An entry with the same record. -/
theorem Off.set (h : L.Off a k) (id : Identifier) (hs : H.supply = (L id a).supply)
    (hk : H.total = (L id a).total + n) : (L.set id a H).Off a (k + n) := by
  have hsupply : ∀ b, (L.set id a H b b).supply = (L b b).supply := by
    intro b
    unfold Ledger.set
    split
    case isTrue hb => rw [hs, ← hb.1, hb.2]
    case isFalse => rfl
  refine ⟨fun b => ?_, fun b s hb => h.max b s ((hsupply b).symm.trans hb)⟩
  have hcirc : (L.set id a H).circulating b = L.circulating b := by
    unfold circulating
    rw [hsupply]
  rw [hcirc]
  by_cases hb : b = a
  · subst hb
    rw [total_set, h.total b, hk, if_pos rfl, if_pos rfl]
    omega
  · rw [total_set_of_ne _ _ hb, h.total b, if_neg hb, if_neg hb]

theorem Off.take (h : L.Off a k) (id : Identifier) (n : Int) (hpl : pl.counts = true) :
    (L.take id a pl n).Off a (k - n) := by
  have hset := h.set (H := (L id a).take pl n) (n := -n) id rfl (by
    rw [total_take, if_pos hpl]; omega)
  exact hset

theorem Off.takeMandate (h : L.Off a k) (id operator : Identifier) (t : TokenID) (n : Int) :
    (L.take id a (.mandate operator t) n).Off a k := by
  have hset := h.set (H := (L id a).take (.mandate operator t) n) (n := 0) id rfl (by
    rw [total_take, if_neg (by simp)]; omega)
  rwa [Int.add_zero] at hset

/-- The account has the token, or no other of the asset. -/
def Fits (L : Ledger) (id : Identifier) (a : AssetID) (t : TokenID) : Prop :=
  L.balance id a t ≠ none ∨ ∀ t', t' ≠ t → L.balance id a t' = none

theorem Off.credit (h : L.Off a k) (hfit : L.Fits id a t) : (L.credit id a t n).Off a (k + n) :=
  h.set id supply_credit (total_credit hfit)

theorem Off.lock (h : L.Off a k) (id beneficiary : Identifier) (t : TokenID) (n : Int) :
    (L.lock id a beneficiary t n).Off a (k + n) := h.set id rfl total_lock

/-- The record changed. -/
theorem Off.issue {s : Supply} (h : L.Off a k) (hs : (L a a).supply = some s)
    (hmax : s.circulating + n ≤ s.max) : (L.issue a n).Off a (k - n) := by
  have hrecord : ((L a a).issue n).supply = some ⟨s.circulating + n, s.max⟩ := by
    unfold Holding.issue
    rw [hs]
    rfl
  refine ⟨fun b => ?_, fun b u hu => ?_⟩
  · by_cases hb : b = a
    · subst hb
      have hcirc : (L.issue b n).circulating b = L.circulating b + n := by
        unfold circulating issue
        rw [set_same, hrecord, hs]
        rfl
      have hsame : ((L b b).issue n).total = (L b b).total := total_congr fun _ _ => rfl
      unfold issue at hcirc ⊢
      rw [total_set, h.total b, hcirc, hsame, if_pos rfl, if_pos rfl]
      omega
    · have hcirc : (L.issue a n).circulating b = L.circulating b := by
        unfold circulating Ledger.issue
        rw [set_of_ne fun h => hb h.1]
      unfold Ledger.issue at hcirc ⊢
      rw [total_set_of_ne _ _ hb, h.total b, hcirc, if_neg hb, if_neg hb]
  · unfold Ledger.issue at hu
    by_cases hb : b = a
    · subst hb
      rw [set_same, hrecord] at hu
      cases hu
      exact hmax
    · rw [set_of_ne fun h => hb h.1] at hu
      exact h.max b u hu

/-- A new record. -/
theorem Balanced.create {max : Int} (h : L.Balanced) (hnone : L a a = .empty) (hmax : 0 ≤ max) :
    (L.set a a ⟨fun _ => none, some ⟨0, max⟩⟩).Balanced := by
  have hzero : (Holding.mk (fun _ => none) (some ⟨0, max⟩)).total = 0 :=
    Holding.total_of_none fun _ => rfl
  have hempty : (L a a).total = 0 := total_of_none fun _ => by rw [hnone]; rfl
  refine ⟨fun b => ?_, fun b s hs => ?_⟩
  · by_cases hb : b = a
    · subst hb
      rw [total_set, h.total b, hzero, hempty]
      unfold circulating
      rw [set_same, hnone]
      rfl
    · rw [total_set_of_ne _ _ hb, h.total b]
      unfold circulating
      rw [set_of_ne fun h => hb h.1]
  · by_cases hb : b = a
    · subst hb
      rw [set_same] at hs
      cases hs
      exact hmax
    · rw [set_of_ne fun h => hb h.1] at hs
      exact h.max b s hs

end Ledger

/-! ## 4. Calls that lose nothing -/

/-- The account will have the token, or no other of the asset, once `payer` has paid `n` of it. -/
def Ledger.FitsPaid (L : Ledger) (payer id : Identifier) (a : AssetID) (t : TokenID)
    (n : Int) : Prop :=
  (L.balance id a t ≠ none ∧ ¬ (payer = id ∧ L.balance payer a t = some n)) ∨
    ∀ t', t' ≠ t → L.balance id a t' = none

/-- What a call must find: an account that is credited has the token or no other of the asset, a
    record that is raised is in the transaction, and a new maximum is not below zero. -/
def EngineOp.Lossless (linked : AssetID → Prop) (L : Ledger) : EngineOp → Prop
  | .createAsset _ descriptor => 0 ≤ descriptor.maxSupply
  | .transfer a t operator benefactor beneficiary value _ =>
    L.FitsPaid (if benefactor = nilIdentifier then operator else benefactor) beneficiary a t value
  | .mint a t _ beneficiary _ _ _ => linked a ∧ L.Fits beneficiary a t
  | .release a t _ _ beneficiary _ _ => L.Fits beneficiary a t
  | _ => True

section

variable {L L' : Ledger} {a : AssetID} {id payer : Identifier} {t : TokenID} {n k : Int}
  {pl : Purse}

/-- The amount at another place. -/
theorem Ledger.amount_take_of_ne {pl' : Purse} (h : ¬ (id = payer ∧ pl' = pl)) :
    ((L.take payer a pl n) id a).amount pl' = (L id a).amount pl' := by
  unfold take
  by_cases hid : id = payer
  · subst hid
    rw [set_same]
    exact update_of_ne (fun hpl => h ⟨rfl, hpl⟩) _ _
  · rw [set_of_ne fun h => hid h.1]

theorem Ledger.Fits.congr (h : L.Fits id a t)
    (hsame : ∀ t', L'.balance id a t' = L.balance id a t') : L'.Fits id a t := by
  unfold Fits
  simp only [hsame]
  exact h

/-- The balance of the payer after a payment. -/
theorem Ledger.balance_take_self (hk : L.balance payer a t = some k) :
    (L.take payer a (.balance t) n).balance payer a t =
      if k - n = 0 then none else some (k - n) := by
  unfold balance take
  rw [set_same]
  show update _ _ _ _ = _
  rw [update_self, show (L payer a).amount (.balance t) = some k from hk, Option.getD_some]

theorem Ledger.FitsPaid.fits (h : L.FitsPaid payer id a t n) (hk : L.balance payer a t = some k) :
    (L.take payer a (.balance t) n).Fits id a t := by
  rcases h with ⟨hsome, hne⟩ | hsole
  · refine .inl ?_
    by_cases hid : payer = id
    · subst hid
      rw [balance_take_self hk, if_neg]
      · exact nofun
      · intro hz
        refine hne ⟨rfl, ?_⟩
        rw [hk, show k = n by omega]
    · rw [show (L.take payer a (.balance t) n).balance id a t = L.balance id a t from
        amount_take_of_ne fun h => hid h.1.symm]
      exact hsome
  · refine .inr fun t' ht' => ?_
    rw [show (L.take payer a (.balance t) n).balance id a t' = L.balance id a t' from
      amount_take_of_ne fun h => ht' (by cases h.2; rfl)]
    exact hsole t' ht'

/-- **A call that loses nothing keeps the books right.** -/
theorem EngineEffect.balanced {linked : AssetID → Prop} {op : EngineOp} (hL : L.Balanced)
    (hop : op.Lossless linked L) (he : EngineEffect linked L op L') : L'.Balanced := by
  cases he with
  | same => exact hL
  | @transfer a t operator beneficiary value n access hpos hn hle =>
    have hoff := ((hL.off a).take operator value (counts_balance t)).credit
      (n := value) (Ledger.FitsPaid.fits (by simpa [EngineOp.Lossless] using hop) hn)
    exact hoff.balanced (by omega)
  | @consume a t operator benefactor beneficiary value n k access hne hk hlek hn hle =>
    have hpaid : L.FitsPaid benefactor beneficiary a t value := by
      simpa [EngineOp.Lossless, hne] using hop
    -- the mandate is not a balance: the books say the same of what is paid
    have hsame : ∀ id t', (L.take benefactor a (.mandate operator t) value).balance id a t' =
        L.balance id a t' := fun id t' => amount_take_of_ne fun h => by cases h.2
    have hpaid' : (L.take benefactor a (.mandate operator t) value).FitsPaid
      benefactor beneficiary a
        t value := by
      unfold Ledger.FitsPaid
      simp only [hsame]
      exact hpaid
    have hoff := (((hL.off a).takeMandate benefactor operator t value).take benefactor value
      (counts_balance t)).credit
      (n := value) (hpaid'.fits ((hsame benefactor t).trans hn))
    exact hoff.balanced (by omega)
  | @mint a t sender beneficiary value entries access s hpos hs hmax hlinked =>
    have hfit : (L.issue a value).Fits beneficiary a t := by
      refine hop.2.congr fun t' => ?_
      unfold Ledger.balance Ledger.issue Ledger.set
      split
      case isTrue h => rw [h.1]; rfl
      case isFalse => rfl
    have hoff := ((hL.off a).issue hs hmax).credit (n := value) hfit
    exact hoff.balanced (by omega)
  | mintUnseen hpos hlinked => exact absurd hop.1 hlinked
  | @burn a t benefactor value n access s hpos hs hn hle =>
    have htake := (hL.off a).take benefactor value (counts_balance t)
    have hoff := htake.issue (n := -value) (s := s) (by rw [supply_take, hs]) (by
      have := hL.max a s hs
      omega)
    exact hoff.balanced (by omega)
  | @approve a t benefactor beneficiary value expiresAt access H hpos hH =>
    obtain ⟨htotal, hsupply⟩ := total_approved hH
    have hoff := (hL.off a).set (n := 0) benefactor hsupply (by rw [htotal, Int.add_zero])
    exact Ledger.Off.balanced hoff rfl
  | @revoke a t benefactor beneficiary access =>
    have hoff := (hL.off a).set (n := 0) benefactor
      (H := (L benefactor a).revoke beneficiary t) rfl (by rw [total_revoke, Int.add_zero])
    exact Ledger.Off.balanced hoff rfl
  | @lockup a t benefactor beneficiary value n access hpos hn hle =>
    have hoff := ((hL.off a).take benefactor value (counts_balance t)).lock benefactor
      beneficiary t value
    exact hoff.balanced (by omega)
  | @release a t operator benefactor beneficiary value k access hk hle =>
    have hfit : (L.take benefactor a (.lockup operator t) value).Fits beneficiary a t :=
      Ledger.Fits.congr hop fun _ => amount_take_of_ne fun h => by cases h.2
    have hoff := ((hL.off a).take benefactor value
      (counts_lockup operator t)).credit (n := value) hfit
    exact hoff.balanced (by omega)
  | create hnone => exact hL.create hnone hop

end

/-! ## 5. The supply along a run -/

/-- A step that loses nothing. -/
def BankEvent.Lossless (X : EngineEnv) (b : Bank) : BankEvent → Prop
  | .call _ op => op.Lossless (b.memory.Linked b.transition) (b.ledger X)
  | _ => True

theorem Ledger.balanced_empty : Ledger.Balanced fun _ _ => .empty := by
  refine ⟨fun a => ?_, nofun⟩
  exact sum_eq_zero fun _ _ => total_of_none fun _ => rfl

/-- **The supply.** In a run whose calls lose nothing, all accounts together hold what the record of
    the asset says, and it says no more than the maximum; in the books at work and in the committed
    ones. -/
theorem Bank.supply_balanced (X : EngineEnv) {b b' : Bank} {es : List BankEvent} (hb : b.Start)
    (h : Run (Guarded (BankEvent.Lossless X) (step X)) b es b') (a : AssetID) :
    ((b'.ledger X).total a = (b'.ledger X).circulating a ∧
      ∀ s, (b'.ledger X a a).supply = some s → s.circulating ≤ s.max) ∧
    (b'.committed.ledger.total a = b'.committed.ledger.circulating a ∧
      ∀ s, (b'.committed.ledger a a).supply = some s → s.circulating ≤ s.max) := by
  obtain ⟨-, hL, hC⟩ := run_books balanced_empty
    (fun _ _ _ _ _ hL hok he => he.balanced hL hok) hb h
  exact ⟨⟨hL.total a, hL.max a⟩, hC.total a, hC.max a⟩

namespace SupplySample

open EngineSample BankSample

def minting : EngineOp := .mint assetID defaultTokenID manager manager 5 [] access

/-- The asset is made and minted in one batch, which is then committed. -/
theorem minted_run : Run (Guarded (BankEvent.Lossless X) (step X)) start
    [.call 0 creating, .call 0 minting, .commit transition memory]
    ⟨(call (call start creating) minting).commitAssets, transition, memory⟩ := by
  have hcreate : Guarded (BankEvent.Lossless X) (step X) start (.call 0 creating)
      (call start creating) := ⟨show (0 : Int) ≤ 100 by decide, step_call (by decide +kernel)⟩
  have hmint : Guarded (BankEvent.Lossless X) (step X) (call start creating) (.call 0 minting)
      (call (call start creating) minting) := by
    refine ⟨⟨?_, .inr fun t' _ => ?_⟩, step_call (by decide +kernel)⟩
    · refine ⟨⟨0⟩, ((call start creating).memory.objects.read ⟨0⟩).get (by decide +kernel),
        ⟨0⟩, ?_, ?_, ?_⟩
      · decide +kernel
      · exact (Option.some_get _).symm
      · decide +kernel
    · rfl
  exact .snoc (.snoc (.snoc .start _ hcreate) _ hmint) _ ⟨trivial, unworked, rfl⟩

/-- Five are minted, held and recorded. -/
theorem minted_supply :
    (ledger X ⟨(call (call start creating) minting).commitAssets, transition, memory⟩).total
      assetID = 5 := by
  exact (supply_balanced X start_start minted_run assetID).1.1

/-- The asset is made in one batch and minted in the next. -/
def reloaded : Bank := ⟨(call start creating).commitAssets, transition, memory⟩

/-- **A mint that is not recorded.** The record was committed with the batch before, so that it is
    not in the transaction; five tokens are held, and the supply says none. -/
theorem mint_unrecorded : ∃ es b, Run (step X) start es b ∧
    (b.ledger X).total assetID ≠ (b.ledger X).circulating assetID := by
  have hrun : Run (Guarded (BankEvent.Lossless X) (step X)) start
      [.call 0 creating, .commit transition memory] reloaded :=
    .snoc (.snoc .start _ ⟨show (0 : Int) ≤ 100 by decide, step_call (by decide +kernel)⟩) _
      ⟨trivial, unworked, rfl⟩
  have hstep : reloaded.step X (.call 0 minting) (call reloaded minting) :=
    step_call (by decide +kernel)
  refine ⟨_, _, .snoc (hrun.mono fun _ _ _ h => h.2) _ hstep, ?_⟩
  obtain ⟨hw, hL, -⟩ := run_books balanced_empty
    (fun _ _ _ _ _ hL hok he => he.balanced hL hok) start_start hrun
  obtain ⟨-, -, he⟩ := call_books hw hstep
  have hafter : ((call reloaded minting).ledger X).balance manager assetID defaultTokenID =
    some 5 := by
    decide +kernel
  have hfit : (reloaded.ledger X).Fits manager assetID defaultTokenID := .inr fun _ _ => rfl
  generalize (call reloaded minting).ledger X = L' at he hafter ⊢
  cases he with
  | same =>
    cases hafter
  | mint hpos hs hmax hlinked =>
    obtain ⟨p, o, q, hp, ho, hq⟩ := hlinked
    obtain ⟨o', ho', -, htxn⟩ := unworked.objects assetID p hp
    obtain rfl := Option.mem_unique ho' ho
    rw [pendingAsset_of_none htxn] at hq
    cases hq
  | mintUnseen hpos hlinked =>
    have hoff := ((hL.off assetID).credit (n := 5) hfit).total assetID
    rw [if_pos rfl] at hoff
    omega

end SupplySample

end GoMoi
