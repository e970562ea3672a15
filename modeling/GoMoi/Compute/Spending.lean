/-
  File:      GoMoi/Compute/Spending.lean
  Subject:   Amounts stay at zero or above, and nobody gains by a call but by a mint.

  A transfer, a mint, a burn, an approval and a lockup refuse an amount below one. A transfer by
  mandate and a release do not look at the sign: they ask whether the balance, the mandate or the
  lockup is less than the amount. An amount below zero passes, is subtracted from the benefactor,
  who so gains, and is added to the beneficiary, who pays.

  * `Ledger.spendable G` -- what the accounts in `G` can spend together of a token: their balances,
    what other accounts have locked up for them or given them a mandate for;
  * `EngineOp.Signed` -- transfers by mandate and releases of no amount below zero;
  * `EngineEffect.nonNeg`, `EngineEffect.spendable_le` -- one case for each effect; then runs.
-/
import GoMoi.Compute.Bank

namespace GoMoi

open Function Ledger EngineOp Purse

/-! ## 1. Signs -/

/-- Every amount is zero or above. -/
def Holding.NonNeg (H : Holding) : Prop := ∀ pl k, H.amount pl = some k → 0 ≤ k

/-- Every amount of every account is zero or above. -/
def Ledger.NonNeg (L : Ledger) : Prop := ∀ id a, (L id a).NonNeg

/-- Transfers by mandate and releases of no amount below zero. -/
def EngineOp.Signed : EngineOp → Prop
  | .transfer _ _ _ benefactor _ value _ => benefactor ≠ nilIdentifier → 0 ≤ value
  | .release _ _ _ _ _ value _ => 0 ≤ value
  | _ => True

namespace Holding

variable {H H' : Holding} {pl : Purse} {id : Identifier} {t : TokenID} {n k : Int}

section

variable (hH : H.NonNeg)
include hH

/-- One amount changed to one that is zero or above. -/
theorem NonNeg.update {x : Option Int} {s : Option Supply} (hx : ∀ k, x = some k → 0 ≤ k) :
    NonNeg ⟨Function.update H.amount pl x, s⟩ := by
  intro pl' k hk
  have hk' : Function.update H.amount pl x pl' = some k := hk
  by_cases hpl : pl' = pl
  · subst hpl
    rw [update_self] at hk'
    exact hx k hk'
  · rw [update_of_ne hpl] at hk'
    exact hH pl' k hk'

theorem NonNeg.take (hk : H.amount pl = some k) (hle : n ≤ k) : (H.take pl n).NonNeg := by
  refine hH.update fun k' hk' => ?_
  rw [hk, Option.getD_some] at hk'
  split at hk'
  case isTrue => cases hk'
  case isFalse =>
    cases hk'
    omega

theorem NonNeg.getD (pl : Purse) : 0 ≤ (H.amount pl).getD 0 := by
  cases hk : H.amount pl with
  | none => exact le_rfl
  | some k => exact hH pl k hk

theorem NonNeg.credit (hn : 0 ≤ n) : (H.credit t n).NonNeg := by
  unfold Holding.credit
  rcases hk : H.amount (.balance t) with _ | k
  swap
  · have := hH _ k hk
    refine hH.update fun k' hk' => ?_
    cases hk'
    omega
  intro pl k hk'
  cases pl with
  | balance t' =>
    simp only [soleBalance] at hk'
    split at hk'
    case isTrue =>
      cases hk'
      exact hn
    case isFalse => cases hk'
  | lockup id' t' => exact hH _ k hk'
  | mandate id' t' => exact hH _ k hk'

theorem NonNeg.lock (hn : 0 ≤ n) : (H.lock id t n).NonNeg := by
  refine hH.update fun k hk => ?_
  have := hH.getD (.lockup id t)
  cases hk
  omega

theorem NonNeg.approved (hn : 0 ≤ n) (h : H.Approved id t n H') : H'.NonNeg := by
  rcases h with rfl | rfl
  · refine hH.update fun k hk => ?_
    have := hH.getD (.mandate id t)
    cases hk
    omega
  intro pl k hk
  cases pl with
  | balance t' => exact hH _ k hk
  | lockup id' t' => exact hH _ k hk
  | mandate id' t' =>
    simp only [soleMandate] at hk
    split at hk
    case isTrue =>
      cases hk
      exact hn
    case isFalse => cases hk

end

end Holding

variable {id : Identifier} {linked : AssetID → Prop} {op : EngineOp}

theorem Ledger.NonNeg.set {L : Ledger} (hL : L.NonNeg) {a : AssetID} {H : Holding} (hH : H.NonNeg) :
    (L.set id a H).NonNeg := by
  intro id' a'
  unfold Ledger.set
  split
  case isTrue => exact hH
  case isFalse => exact hL id' a'

section

variable {L : Ledger} {a : AssetID} {t : TokenID} {pl : Purse} {n k : Int}

theorem Ledger.NonNeg.take (hL : L.NonNeg) (hk : (L id a).amount pl = some k) (hle : n ≤ k) :
    (L.take id a pl n).NonNeg :=
  hL.set ((hL _ _).take hk hle)

theorem Ledger.NonNeg.credit (hL : L.NonNeg) (hn : 0 ≤ n) : (L.credit id a t n).NonNeg :=
  hL.set ((hL _ _).credit hn)

theorem Ledger.NonNeg.issue (hL : L.NonNeg) : (L.issue a n).NonNeg :=
  hL.set fun pl k hk => hL a a pl k hk

/-- The mandate and the balance are taken together. -/
theorem Ledger.NonNeg.consume {operator : Identifier} {b : Int} (hL : L.NonNeg)
    (hk : (L id a).amount (.mandate operator t) = some k) (hlek : n ≤ k)
    (hb : L.balance id a t = some b) (hle : n ≤ b) :
    ((L.take id a (.mandate operator t) n).take id a (.balance t) n).NonNeg :=
  (hL.take hk hlek).take (balance_takeMandate.trans hb) hle

end

/-- **A call of no amount below zero keeps all amounts at zero or above.** -/
theorem EngineEffect.nonNeg {L L' : Ledger} (hL : L.NonNeg) (hop : op.Signed)
    (he : EngineEffect linked L op L') : L'.NonNeg := by
  cases he with
  | same => exact hL
  | transfer hpos hn hle => exact (hL.take hn hle).credit (by omega)
  | consume hne hk hlek hn hle => exact (hL.consume hk hlek hn hle).credit (hop hne)
  | mint hpos => exact hL.issue.credit (by omega)
  | mintUnseen hpos => exact hL.credit (by omega)
  | burn hpos hs hn hle => exact (hL.take hn hle).issue
  | approve hpos hH => exact hL.set ((hL _ _).approved (by omega) hH)
  | revoke => exact hL.set ((hL _ _).update nofun)
  | lockup hpos hn hle =>
    have htake := hL.take hn hle
    exact htake.set ((htake _ _).lock (by omega))
  | release hk hle => exact (hL.take hk hle).credit hop
  | create hnone => exact hL.set nofun

/-! ## 2. What can be spent -/

/-- Of a token that an account holds, what the accounts in `G` can spend: all of the balance if it
    is one of them, else as much of it as they have mandates for; and what is locked up for them. -/
def Holding.spendable (G : Finset Identifier) (t : TokenID) (id : Identifier) (H : Holding) : Int :=
  (if id ∈ G then (H.amount (.balance t)).getD 0
    else min ((H.amount (.balance t)).getD 0) (∑ g ∈ G, (H.amount (.mandate g t)).getD 0)) +
  ∑ g ∈ G, (H.amount (.lockup g t)).getD 0

/-- What the accounts in `G` can spend together of a token. -/
noncomputable def Ledger.spendable (G : Finset Identifier) (L : Ledger) (a : AssetID)
    (t : TokenID) : Int :=
  L.tally (Holding.spendable G t) a

/-- The operator and the benefactor of a call. -/
def EngineOp.parties : EngineOp → Finset Identifier
  | .transfer _ _ operator benefactor _ _ _ =>
    if benefactor = nilIdentifier then {operator} else {operator, benefactor}
  | .burn _ _ benefactor _ _ => {benefactor}
  | .approve _ _ benefactor _ _ _ _ => {benefactor}
  | .revoke _ _ benefactor _ _ => {benefactor}
  | .lockup _ _ benefactor _ _ _ => {benefactor}
  | .release _ _ operator benefactor _ _ _ => {operator, benefactor}
  | _ => ∅

def EngineOp.isMint : EngineOp → Bool
  | .mint .. => true
  | _ => false

namespace Holding

variable {H H' : Holding} {G : Finset Identifier} {id : Identifier} {t t' : TokenID} {n : Int}

/-- For one of them mandates do not count. -/
theorem spendable_of_mem (hid : id ∈ G) (hb : H'.amount (.balance t) = H.amount (.balance t))
    (hl : ∀ g, H'.amount (.lockup g t) = H.amount (.lockup g t)) :
    H'.spendable G t id = H.spendable G t id := by
  unfold spendable
  simp [if_pos hid, hb, hl]

theorem getD_take (k : Option Int) :
    (if k.getD 0 - n = 0 then none else some (k.getD 0 - n)).getD 0 = k.getD 0 - n := by
  split
  case isTrue h => exact h.symm
  case isFalse => rfl

/-- One of them pays. -/
theorem spendable_takeBalance (hid : id ∈ G) : (H.take (.balance t) n).spendable G t' id =
    H.spendable G t' id - if t' = t then n else 0 := by
  by_cases ht : t' = t
  · subst ht
    unfold spendable take
    simp only [if_pos hid, update_self, getD_take, ne_eq, reduceCtorEq, not_false_eq_true,
      update_of_ne, if_true]
    omega
  rw [if_neg ht, Int.sub_zero]
  refine spendable_of_mem hid ?_ fun g => ?_
  · exact amount_update_of_ne (show balance t' ≠ .balance t by simpa using ht) _ _
  · exact amount_update_of_ne (show Purse.lockup g t' ≠ .balance t by simp) _ _

variable {g : Identifier}

/-- Another amount locked up for an account. -/
theorem spendable_update_lockup (x : Option Int) (s : Option Supply) :
    spendable G t' id ⟨Function.update H.amount (.lockup g t) x, s⟩ = H.spendable G t' id +
      if g ∈ G then if t' = t then x.getD 0 - (H.amount (.lockup g t)).getD 0 else 0 else 0 := by
  have hone : ∀ g', (Function.update H.amount (.lockup g t) x (.lockup g' t')).getD 0 =
      (H.amount (.lockup g' t')).getD 0 +
        if g' = g then if t' = t then x.getD 0 - (H.amount (.lockup g t)).getD 0 else 0 else 0 := by
    intro g'
    by_cases h : g' = g ∧ t' = t
    · rw [h.1, h.2, update_self, if_pos rfl, if_pos rfl]
      omega
    · rw [update_of_ne (by simpa using h), ← ite_and, if_neg h, Int.add_zero]
  unfold spendable
  simp only [hone, Finset.sum_add_distrib, Finset.sum_ite_eq', ne_eq, reduceCtorEq,
    not_false_eq_true, update_of_ne]
  omega

/-- A lockup for one of them is used, whoever holds it. -/
theorem spendable_takeLockup (hg : g ∈ G) :
    (H.take (.lockup g t) n).spendable G t' id = H.spendable G t' id - if t' = t then n else 0 := by
  rw [take, spendable_update_lockup, getD_take, if_pos hg]
  split
  case isTrue => omega
  case isFalse => omega

/-- A balance that is raised by at most `n`. -/
theorem spendable_le_of_balance (hn : 0 ≤ n)
    (hb : (H'.amount (.balance t)).getD 0 ≤ (H.amount (.balance t)).getD 0 + n)
    (hm : ∀ g, H'.amount (.mandate g t) = H.amount (.mandate g t))
    (hl : ∀ g, H'.amount (.lockup g t) = H.amount (.lockup g t)) :
    H'.spendable G t id ≤ H.spendable G t id + n := by
  unfold spendable
  simp only [hm, hl]
  split
  case isTrue => omega
  case isFalse => omega

/-- A credit, to anyone. -/
theorem spendable_credit (hH : H.NonNeg) (hn : 0 ≤ n) :
    (H.credit t n).spendable G t' id ≤ H.spendable G t' id + if t' = t then n else 0 := by
  have hpos : (0 : Int) ≤ if t' = t then n else 0 := by
    split
    case isTrue => exact hn
    case isFalse => exact le_rfl
  unfold credit
  rcases hk : H.amount (.balance t) with _ | k
  swap
  · refine spendable_le_of_balance hpos ?_
      (fun g => amount_update_of_ne (show mandate g t' ≠ .balance t by simp) _ _)
      fun g => amount_update_of_ne (show Purse.lockup g t' ≠ .balance t by simp) _ _
    by_cases ht : t' = t
    · subst ht
      simp [hk]
    · rw [amount_update_of_ne (show balance t' ≠ .balance t by simpa using ht), if_neg ht,
        Int.add_zero]
  refine spendable_le_of_balance hpos ?_ (fun g => rfl) fun g => rfl
  by_cases ht : t' = t
  · subst ht
    simp only [soleBalance, if_true, hk, Option.getD_some, Option.getD_none]
    omega
  · have := hH.getD (.balance t')
    simp only [soleBalance, if_neg ht, Option.getD_none]
    omega

/-- A lockup, for anyone. -/
theorem spendable_lock (hn : 0 ≤ n) :
    (H.lock g t n).spendable G t' id ≤ H.spendable G t' id + if t' = t then n else 0 := by
  rw [lock, spendable_update_lockup, Option.getD_some]
  by_cases ht : t' = t
  · rw [if_pos ht, if_pos ht]
    split
    case isTrue => omega
    case isFalse => omega
  · rw [if_neg ht, if_neg ht, ite_self]

end Holding

namespace Ledger

variable {L : Ledger} {G : Finset Identifier} {id : Identifier} {a b : AssetID} {t t' : TokenID}
  {n : Int} {H : Holding}

theorem spendable_set : (L.set id a H).spendable G b t' = L.spendable G b t' +
    if b = a then H.spendable G t' id - (L id a).spendable G t' id else 0 := by
  unfold spendable
  by_cases hb : b = a
  · subst hb
    rw [tally_set, if_pos rfl]
  · rw [tally_set_of_ne _ _ _ hb, if_neg hb, Int.add_zero]

/-- One entry changed: what it shows more of the token `t` is at most `n`. -/
theorem spendable_set_le
    (h : H.spendable G t' id ≤ (L id a).spendable G t' id + if t' = t then n else 0) :
    (L.set id a H).spendable G b t' ≤ L.spendable G b t' + if b = a ∧ t' = t then n else 0 := by
  rw [spendable_set, ite_and]
  split
  case isTrue => omega
  case isFalse => omega

/-- One entry changed: it shows `n` less of the token `t`. -/
theorem spendable_set_sub
    (h : H.spendable G t' id = (L id a).spendable G t' id - if t' = t then n else 0) :
    (L.set id a H).spendable G b t' = L.spendable G b t' - if b = a ∧ t' = t then n else 0 := by
  rw [spendable_set, h, ite_and]
  split
  case isTrue => omega
  case isFalse => omega

theorem spendable_pay (hid : id ∈ G) (a : AssetID) (t : TokenID) (n : Int) (b : AssetID)
    (t' : TokenID) : (L.take id a (.balance t) n).spendable G b t' =
      L.spendable G b t' - if b = a ∧ t' = t then n else 0 :=
  spendable_set_sub (Holding.spendable_takeBalance hid)

theorem spendable_credit (hL : L.NonNeg) (hn : 0 ≤ n) (id : Identifier) (a : AssetID) (t : TokenID)
    (b : AssetID) (t' : TokenID) : (L.credit id a t n).spendable G b t' ≤
      L.spendable G b t' + if b = a ∧ t' = t then n else 0 :=
  spendable_set_le (Holding.spendable_credit (hL id a) hn)

theorem spendable_lock (hn : 0 ≤ n) (id : Identifier) (a : AssetID) (g : Identifier) (t : TokenID)
    (b : AssetID) (t' : TokenID) : (L.lock id a g t n).spendable G b t' ≤
      L.spendable G b t' + if b = a ∧ t' = t then n else 0 :=
  spendable_set_le (Holding.spendable_lock hn)

/-- An entry that shows the same. -/
theorem spendable_set_same (h : ∀ t', H.spendable G t' id = (L id a).spendable G t' id)
    (b : AssetID) (t' : TokenID) : (L.set id a H).spendable G b t' = L.spendable G b t' := by
  have hsub := spendable_set_sub (L := L) (H := H) (b := b) (t := t') (n := 0)
    ((h t').trans (by rw [ite_self, Int.sub_zero]))
  rwa [ite_self, Int.sub_zero] at hsub

/-- Mandates of one of them. -/
theorem spendable_setMandates (hid : id ∈ G)
    (h : ∀ pl, (∀ g u, pl ≠ .mandate g u) → H.amount pl = (L id a).amount pl) (b : AssetID)
    (t' : TokenID) : (L.set id a H).spendable G b t' = L.spendable G b t' :=
  spendable_set_same (fun _ => Holding.spendable_of_mem hid (h _ nofun)
    fun _ => h _ nofun) b t'

theorem spendable_issue (a : AssetID) (n : Int) (b : AssetID) (t' : TokenID) :
    (L.issue a n).spendable G b t' = L.spendable G b t' := by
  have hsame : ∀ u, ((L a a).issue n).spendable G u a = (L a a).spendable G u a := fun u => by
    rfl
  exact spendable_set_same hsame b t'

end Ledger

theorem Holding.Approved.amount {H H' : Holding} {t : TokenID} {n : Int} (h : H.Approved id t n H')
    {pl : Purse} (hpl : ∀ g u, pl ≠ .mandate g u) : H'.amount pl = H.amount pl := by
  rcases h with rfl | rfl
  · exact amount_update_of_ne (hpl id t) _ _
  cases pl with
  | balance t' => rfl
  | lockup id' t' => rfl
  | mandate id' t' => exact absurd rfl (hpl id' t')

/-- **A call that is not a mint does not raise what its operator and its benefactor can spend.** -/
theorem EngineEffect.spendable_le {L L' : Ledger} (hL : L.NonNeg) (hop : op.Signed)
    (hmint : op.isMint = false) (he : EngineEffect linked L op L') (b : AssetID) (t' : TokenID) :
    L'.spendable op.parties b t' ≤ L.spendable op.parties b t' := by
  cases he with
  | same => exact le_rfl
  | @transfer a t operator beneficiary value n access hpos hn hle =>
    refine le_trans (spendable_credit (hL.take hn hle) (by omega) beneficiary a t b t') ?_
    rw [spendable_pay (by simp [parties])]
    omega
  | @consume a t operator benefactor beneficiary value n k access hne hk hlek hn hle =>
    have hmem : benefactor ∈ (EngineOp.transfer a t operator benefactor beneficiary value
        access).parties := by simp [parties, hne]
    refine le_trans
      (spendable_credit (hL.consume hk hlek hn hle) (hop hne) beneficiary a t b t') ?_
    have hsame : (L.take benefactor a (.mandate operator t) value).spendable _ b t' = _ :=
      spendable_setMandates hmem (fun _ hpl => Holding.amount_update_of_ne (hpl _ _) _ _) b t'
    rw [spendable_pay hmem, hsame]
    omega
  | mint => cases hmint
  | mintUnseen => cases hmint
  | @burn a t benefactor value n access s hpos hs hn hle =>
    rw [spendable_issue, spendable_pay (by simp [parties])]
    split
    case isTrue => omega
    case isFalse => omega
  | approve hpos hH =>
    rw [spendable_setMandates (by simp [parties]) fun _ hpl => hH.amount hpl]
  | revoke =>
    exact (spendable_setMandates (by simp [parties])
      (fun _ hpl => Holding.amount_update_of_ne (hpl _ _) _ _) b t').le
  | @lockup a t benefactor beneficiary value n access hpos hn hle =>
    refine le_trans (spendable_lock (by omega) benefactor a beneficiary t b t') ?_
    rw [spendable_pay (by simp [parties])]
    omega
  | @release a t operator benefactor beneficiary value k access hk hle =>
    refine le_trans (spendable_credit (hL.take hk hle) hop beneficiary a t b t') ?_
    rw [Ledger.take, spendable_set_sub (Holding.spendable_takeLockup (by simp [parties]))]
    omega
  | create hnone =>
    rw [spendable_set_same fun _ => by rw [hnone]; rfl]

/-! ## 3. Runs -/

/-- A step that is not a transfer by mandate or a release of an amount below zero. -/
def BankEvent.Signed : BankEvent → Prop
  | .call _ op => op.Signed
  | _ => True

/-- **Signs and spending.** In a run without transfers by mandate and releases of amounts below
    zero, every amount of every account is zero or above, at work and committed; and a further call
    that is not a mint does not raise what its operator and its benefactor can spend together. -/
theorem Bank.amounts_signed (X : EngineEnv) {b b' : Bank} {es : List BankEvent} (hb : b.Start)
    (h : Run (Guarded (fun _ e => e.Signed) (Bank.step X)) b es b') :
    (b'.ledger X).NonNeg ∧ b'.committed.ledger.NonNeg ∧
      ∀ now op b'', op.Signed → op.isMint = false → b'.step X (.call now op) b'' → ∀ a t,
        (b''.ledger X).spendable op.parties a t ≤ (b'.ledger X).spendable op.parties a t := by
  obtain ⟨hw, hL, hC⟩ := run_books (I := Ledger.NonNeg) nofun
    (fun _ _ _ _ _ hL hok he => he.nonNeg hL hok) hb h
  refine ⟨hL, hC, fun now op b'' hop hmint hs a t => ?_⟩
  obtain ⟨-, -, he⟩ := call_books hw hs
  exact he.spendable_le hL hop hmint a t

namespace SpendingSample

open EngineSample BankSample

def minting : EngineOp := .mint assetID defaultTokenID manager manager 5 [] access

/-- The operator may take three of the manager's five tokens. -/
def approving : EngineOp := .approve assetID defaultTokenID manager operator 3 100 access

/-- The operator moves tokens of the manager to the account of the asset. -/
def taking (n : Int) : EngineOp :=
  .transfer assetID defaultTokenID operator manager assetID n access

def approved : Bank := call (call (call start creating) minting) approving

theorem approved_run : Run (Guarded (fun _ e => e.Signed) (Bank.step X)) start
    [.call 0 creating, .call 0 minting, .call 0 approving] approved :=
  .snoc (.snoc (.snoc .start _ ⟨trivial, step_call (by decide +kernel)⟩) _
    ⟨trivial, step_call (by decide +kernel)⟩) _ ⟨trivial, step_call (by decide +kernel)⟩

/-- Two tokens taken: nobody gains. -/
theorem taking_two :
    ((call approved (taking 2)).ledger X).spendable {operator, manager} assetID defaultTokenID ≤
      (approved.ledger X).spendable {operator, manager} assetID defaultTokenID :=
  (Bank.amounts_signed X start_start approved_run).2.2 0 (taking 2) _ (fun _ => by decide) rfl
    (step_call (by decide +kernel)) assetID defaultTokenID

/-- **Minus two tokens taken.** The manager had five tokens and has seven, and the account of the
    asset has minus two. -/
theorem taking_minus_two : ∃ es b, Run (Bank.step X) start es b ∧ ¬ (b.ledger X).NonNeg ∧
    (approved.ledger X).balance manager assetID defaultTokenID = some 5 ∧
    (b.ledger X).balance manager assetID defaultTokenID = some 7 := by
  refine ⟨_, call approved (taking (-2)), .snoc (approved_run.mono fun _ _ _ h => h.2) _
    (step_call (by decide +kernel)), fun h => ?_, by decide +kernel, by decide +kernel⟩
  have hdebt : ((call approved (taking (-2))).ledger X assetID assetID).amount
      (.balance defaultTokenID) = some (-2) := by decide +kernel
  exact absurd (h assetID assetID _ _ hdebt) (by decide)

end SpendingSample

end GoMoi
