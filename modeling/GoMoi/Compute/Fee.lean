/-
  File:      GoMoi/Compute/Fee.lean
  Subject:   The fee of an interaction and the fuel balance of its sender (`compute/executor.go`,
             `compute/fueltank.go`, `state/object.go`).

  Before an interaction its sender has to own the whole cost, in the COMMITTED tree; the fee is
  taken afterwards, from the PENDING balance, which earlier interactions and the operations of this
  one may have spent. `DeductFuel` does not compare and drops the error of a missing entry.

  * `Charged` -- the fee was taken in full, nothing is owed, and a success was paid for;
  * `Covers` -- the condition: the balance before, with what the operations add and take if they are
    not undone, covers the fuel that they use;
  * `charged_iff` -- in every batch: an interaction is charged exactly if it is covered.
-/
import GoMoi.Compute.Rollback
import GoMoi.Compute.Rounds

namespace GoMoi

open Option

/-! ## 1. The property -/

/-- The fuel balance of the sender, pending or committed. -/
def fuelBalance (X : ExecEnv) (ix : Interaction) (s : ExecState) : Int :=
  ((s.transition.observe X.backend s.memory (.account ix.senderID)).map
    (·.balance X.kmoiTokenAssetID defaultTokenID)).getD 0

/-- Fuel used times fuel price. -/
def Interaction.fee (ix : Interaction) (r : Receipt) : Int := ix.fuelPrice * r.fuelUsed.toNat

/-- **The fee was paid.** `s` is what the operations leave, `s'` the state after the round. -/
structure Charged (X : ExecEnv) (ix : Interaction) (r : Receipt) (s s' : ExecState) : Prop where
  reduced : fuelBalance X ix s' = fuelBalance X ix s - ix.fee r
  nonneg : 0 ≤ fuelBalance X ix s'
  covered : r.status = .receiptOk → ix.fee r ≤ fuelBalance X ix s

/-! ## 2. The condition -/

/-- The tank after events. -/
def FuelTank.drain (tank : FuelTank) (es : List OpEvent) : FuelTank :=
  es.foldl (fun tank e => match e with
    | .exhaust compute storage => (tank.exhaust compute storage).2
    | _ => tank) tank

/-- The fuel that operations use: what the last one leaves consumed, or the whole limit. -/
def usedBy (limit : UInt64) : List OpOutcome → FuelTank → UInt64 → UInt64
  | [], _, used => used
  | o :: rest, tank, _ => usedBy limit rest (tank.drain o.events)
      (if o.status = some .resultDefectRaised then limit else (tank.drain o.events).computeConsumed)

namespace IxRound

variable (X : ExecEnv) (e : IxRound)

/-- The operations that are run. -/
def ran : List OpOutcome := ranOutcomes e.ix e.outcomes

/-- The fuel that they use times its price. -/
def fee : Int :=
  e.ix.fuelPrice * (usedBy e.ix.fuelLimit e.ran (.new e.ix.fuelLimit X.storageLimit) 0).toNat

/-- The last one fails. -/
def Fails : Prop := ∃ st, (e.ran.map (·.status)).getLast? = some st ∧ st ≠ some .resultOk

/-- What they add to the fuel balance of the sender. -/
def gain (s : ExecState) : Int :=
  fuelBalance X e.ix (play X (e.ran.flatMap (·.events)) s) - fuelBalance X e.ix s

end IxRound

/-- **The condition** on the state before and the operations: there is no debt; where they are run,
    the balance covers the fee, with what they add and take if they are not undone. -/
structure Covers (X : ExecEnv) (e : IxRound) (s : ExecState) : Prop where
  poor : ¬ FuelCovered X e.ix s.transition s.memory → 0 ≤ fuelBalance X e.ix s
  undone : FuelCovered X e.ix s.transition s.memory → e.Fails → e.fee X ≤ fuelBalance X e.ix s
  kept : ∀ s₁, StartsOps X e.ix s s₁ → ¬ e.Fails → e.fee X ≤ fuelBalance X e.ix s + e.gain X s₁

/-! ## 3. Fuel used -/

/-- No more is consumed than the limit. -/
structure FuelTank.Holds (limit : UInt64) (tank : FuelTank) : Prop where
  capacity : tank.computeCapacity = limit
  consumed : tank.computeConsumed ≤ tank.computeCapacity

theorem FuelTank.Holds.exhaust {limit compute storage : UInt64} {tank : FuelTank}
    (h : tank.Holds limit) : (tank.exhaust compute storage).2.Holds limit := by
  unfold FuelTank.exhaust
  split
  case isTrue => exact ⟨h.capacity, UInt64.le_refl _⟩
  case isFalse hlevel =>
    refine ⟨h.capacity, ?_⟩
    have hle : compute ≤ tank.computeCapacity - tank.computeConsumed :=
      UInt64.not_lt.mp fun hlt => hlevel (.inl hlt)
    have hsub := UInt64.toNat_sub_of_le _ _ h.consumed
    rw [UInt64.le_iff_toNat_le] at hle ⊢
    have hcap := tank.computeCapacity.toNat_lt
    have hcons := UInt64.le_iff_toNat_le.mp h.consumed
    show (tank.computeConsumed + compute).toNat ≤ tank.computeCapacity.toNat
    rw [UInt64.toNat_add, Nat.mod_eq_of_lt (by omega)]
    omega

theorem FuelTank.Holds.drain {limit : UInt64} {tank : FuelTank} (h : tank.Holds limit)
    (es : List OpEvent) : (tank.drain es).Holds limit := by
  induction es generalizing tank with
  | nil => exact h
  | cons e es ih =>
    cases e with
    | exhaust compute storage => exact ih h.exhaust
    | _ => exact ih h

theorem usedBy_le {limit used : UInt64} {tank : FuelTank} (h : tank.Holds limit)
    (hused : used ≤ limit) (os : List OpOutcome) : usedBy limit os tank used ≤ limit := by
  induction os generalizing tank used with
  | nil => exact hused
  | cons o os ih =>
    have hdrain := h.drain o.events
    refine ih hdrain ?_
    split
    · exact UInt64.le_refl _
    · exact hdrain.capacity ▸ hdrain.consumed

section

variable {X : ExecEnv} {ix : Interaction} {limit : UInt64} {s s' : ExecState}

/-- Events take fuel from the tank and from nowhere else. -/
theorem play_tank (es : List OpEvent) : (play X es s).tank = s.tank.drain es := by
  induction es generalizing s with
  | nil => rfl
  | cons e es ih =>
    refine (ih (s := e.apply X s)).trans ?_
    cases e with
    | call place op =>
      have htank : (OpEvent.apply X s (.call place op)).tank = s.tank := by
        simp only [OpEvent.apply]
        rcases s.place? place with _ | p
        · rfl
        · simp only
          split <;> rfl
      rw [htank]
      rfl
    | spawn id =>
      have htank : (OpEvent.apply X s (.spawn id)).tank = s.tank := by
        simp only [OpEvent.apply]
        cases s.transition.objects.lookup id <;> rfl
      rw [htank]
      rfl
    | exhaust compute storage => rfl

variable {r : Receipt} {rec : Receiver}

/-- **The loop** enters the fuel that the operations use. -/
theorem runOps_fuelUsed {outcomes : List OpOutcome} {idx : Nat} {ops : List IxOp} {r' : Receipt}
    (h : runOps (playing X outcomes) ix idx ops r s = (.ok r', s')) :
    r'.fuelUsed = usedBy ix.fuelLimit ((outcomes.drop idx).take ops.length) s.tank r.fuelUsed := by
  induction ops generalizing idx r s with
  | nil =>
    obtain ⟨rfl, rfl⟩ := Proc.pure_eq_ok h
    rfl
  | cons op ops ih =>
    obtain ⟨o, status, ho, hstatus, hrest⟩ := runOps_cons h
    obtain ⟨hlt, rfl⟩ := List.getElem?_eq_some_iff.mp ho
    rw [List.drop_eq_getElem_cons hlt, List.length_cons, List.take_succ_cons, usedBy, ih hrest,
      play_tank, hstatus]
    cases status <;> rfl

theorem hasSufficientFuel_tank : Proc.Fixes (·.tank) (hasSufficientFuel X ix) := by
  refine .bind (Exec.onAccount_fixes (fun _ _ => rfl) _ _) fun r => ?_
  cases r with
  | error e => exact .pure _
  | ok b => cases b <;> exact .pure _

/-- With a cost that is not negative, the price is not negative or nothing can be used. -/
theorem fee_nonneg (hcost : 0 ≤ ix.cost) (hused : r.fuelUsed.toNat ≤ ix.fuelLimit.toNat) :
    0 ≤ ix.fee r := by
  unfold Interaction.cost Interaction.kmoiTokenValue at hcost
  unfold Interaction.fee
  by_cases hprice : 0 ≤ ix.fuelPrice
  · exact Int.mul_nonneg hprice (Int.natCast_nonneg _)
  have hlimit : ix.fuelLimit.toNat = 0 := by
    refine Decidable.byContradiction fun hne => ?_
    have hpos : (0 : Int) < ix.fuelLimit.toNat := by omega
    have := Int.mul_neg_of_neg_of_pos (Int.not_le.mp hprice) hpos
    omega
  have hzero : r.fuelUsed.toNat = 0 := by omega
  rw [hzero]
  simp

theorem fee_of_ops {e : IxRound} {s1 : ExecState}
    (hfuel : hasSufficientFuel X e.ix
      { s with tank := FuelTank.new e.ix.fuelLimit X.storageLimit } = (.ok true, s1))
    (hcost : 0 ≤ e.ix.cost)
    (hops : runOps (playing X e.outcomes) e.ix 0 e.ix.ops (Receipt.new e.ix.hash) s1 =
      (.ok r, s')) :
    0 ≤ e.ix.fee r ∧ e.ix.fee r = e.fee X := by
  have htank : s1.tank = .new e.ix.fuelLimit X.storageLimit := hasSufficientFuel_tank.of_eq hfuel
  have hused := runOps_fuelUsed hops
  rw [htank] at hused
  have hle : r.fuelUsed ≤ e.ix.fuelLimit := by
    have hfull : (FuelTank.new e.ix.fuelLimit X.storageLimit).Holds e.ix.fuelLimit :=
      ⟨rfl, UInt64.zero_le⟩
    rw [hused]
    exact usedBy_le hfull UInt64.zero_le _
  refine ⟨fee_nonneg hcost (UInt64.le_iff_toNat_le.mp hle), ?_⟩
  rw [Interaction.fee, hused]
  rfl

/-! ## 4. The deduction -/

theorem fuelBalance_eq (h : s.receiver? ix.senderID = some rec) :
    fuelBalance X ix s =
      (Object.pendingBalance X.backend rec X.kmoiTokenAssetID defaultTokenID).getD 0 := by
  have hobs : s.transition.observe X.backend s.memory (.account ix.senderID) =
      some (rec.observe X.backend) := by
    obtain ⟨p, hp, hrec⟩ := bind_eq_some_iff.mp h
    obtain ⟨_, ho, rfl⟩ := map_eq_some_iff.mp hrec
    unfold Transition.observe
    simp [Transition.object?, hp, ho]
  rw [fuelBalance, hobs, map_some, getD_some, observe_balance]

theorem ExecState.Sound.receiver {id : Identifier} (hs : s.Sound) (h : s.receiver? id = some rec) :
    rec.heap.Closed ∧ rec.object.In rec.heap := by
  obtain ⟨p, -, hrec⟩ := bind_eq_some_iff.mp h
  obtain ⟨object, ho, rfl⟩ := map_eq_some_iff.mp hrec
  exact ⟨hs.closed.closed, hs.closed.objects p object ho⟩

/-- Before the operations nothing is spent. -/
theorem StartsOps.balance (hs : s.Sound) (h : StartsOps X ix s s') :
    fuelBalance X ix s' = fuelBalance X ix s := by
  obtain ⟨s0, hactors, hfuel⟩ := h
  have hmem := (addActorsToRuntime_memory (X := X) ix.ps.entries).of_eq hactors
  have htransition : s0.transition = s.transition :=
    (Proc.wp_of_eq hactors hs.within.addActorsToRuntime).transition
  obtain ⟨b, s1, hcall, hreturn⟩ := Proc.bind_eq_ok hfuel
  obtain ⟨rec, rec', hrec, hrun, hrec'⟩ := Exec.onAccount_eq_ok hcall
  obtain rfl : s' = s1 := by
    rcases b with _ | _ | _
    all_goals exact (Proc.pure_eq_ok hreturn).2.symm
  have hrec0 : s.receiver? ix.senderID = some rec := by
    obtain ⟨p, hp, hread⟩ := bind_eq_some_iff.mp hrec
    have hp : s.transition.objects.lookup ix.senderID = some p := htransition ▸ hp
    have hsame := (snapshot_kept s.transition s.memory).read_eq (hs.in (.account ix.senderID) p hp)
    rw [ExecState.receiver?, hp, bind_some, ← hsame]
    rw [show s0.memory = _ from hmem] at hread
    exact hread
  obtain ⟨hclosed, hin⟩ := hs.receiver hrec0
  have hdecoded := (Proc.wp_of_eq hrun Object.hasSufficientFuel_spec).1
  have hkept : rec.heap.Kept rec'.heap := by
    rcases hdecoded with rfl | ⟨d, rfl⟩
    · exact .refl _
    · exact (rec.heap.loadAsset_spec d).1
  rw [fuelBalance_eq hrec', fuelBalance_eq hrec0,
    Object.pendingBalance_kept hclosed hin hkept hdecoded.object]

/-- **What is deducted**: the fee, or nothing if there is no entry. -/
theorem settle_balance (hs : s.Sound) (h : settle X ix r s = (.ok (), s')) :
    ∃ b : Option Int, fuelBalance X ix s = b.getD 0 ∧
      fuelBalance X ix s' = (b.map (· - ix.fee r)).getD 0 := by
  obtain ⟨-, _, hs1, hinc, hded⟩ := hs.settle h
  obtain ⟨rec, _, hrec, hrun, hrec'⟩ := Exec.onAccount_eq_ok hded
  obtain ⟨hclosed, hin⟩ := hs1.withReceipt.receiver hrec
  have hspec := Proc.wp_of_eq hrun (Object.deductFuel_spec hclosed hin)
  refine ⟨Object.pendingBalance X.backend rec X.kmoiTokenAssetID defaultTokenID, ?_, ?_⟩
  · rcases hinc with ⟨-, rfl⟩ | ⟨e, hinc⟩
    · exact fuelBalance_eq hrec
    obtain ⟨_, rec1, hrec0, hcall, hrec1⟩ := Exec.onAccount_eq_ok hinc
    have hsame : rec = rec1 := mem_unique hrec hrec1
    rw [fuelBalance_eq hrec0, hsame]
    have hfix := Object.fixes_incrementSequenceID (B := X.backend)
      (g := (Object.pendingBalance X.backend · X.kmoiTokenAssetID defaultTokenID))
      (fun _ _ => rfl) ix.senderKeyID
    exact congrArg (Option.getD · 0) (hfix.of_eq hcall).symm
  · rw [fuelBalance_eq hrec']
    exact hspec

/-- A fee that is not negative is paid exactly if it is covered. -/
theorem charged_iff_covered (hs : s.Sound) (h : settle X ix r s = (.ok (), s'))
    (hfee : 0 ≤ ix.fee r) : Charged X ix r s s' ↔ ix.fee r ≤ fuelBalance X ix s := by
  obtain ⟨b, hb, hb'⟩ := settle_balance hs h
  constructor
  · intro hcharged
    have h1 := hcharged.reduced
    have h2 := hcharged.nonneg
    omega
  · intro hcovered
    have hafter : fuelBalance X ix s' = fuelBalance X ix s - ix.fee r := by
      cases b with
      | none =>
        -- no entry: the fee is zero
        rw [getD_none] at hb
        rw [hb', map_none, getD_none]
        omega
      | some n => rw [hb', hb, map_some, getD_some, getD_some]
    exact ⟨hafter, by omega, fun _ => hcovered⟩

/-! ## 5. Batches -/

/-- The round is undone: the sender cannot pay, or the last operation fails. -/
def Reverted (X : ExecEnv) (e : IxRound) (s : ExecState) : Prop :=
  FuelCovered X e.ix s.transition s.memory → e.Fails

theorem undone_balance {s1 : ExecState} (hs : s.Sound)
    (hs1 : s1.Within (s.checkpoint s.memory.heap))
    (hreload : s.transition.Reloads X.backend s.memory) (hr : r.status ≠ .receiptOk) :
    fuelBalance X ix (s1.closeRun (s.transition.snapshot s.memory).1 r) = fuelBalance X ix s := by
  rw [ExecState.closeRun, if_neg hr, fuelBalance, fuelBalance, hs1.observe hs hreload]

/-- **What is left before the fee**: the balance from before, with what the operations add and take
    if they are not undone; and the fee. -/
theorem beforeSettle_balance {e : IxRound} {s2 : ExecState} (hs : s.Sound)
    (h : beforeSettle X e s = some (s2, r))
    (hrestores : Reverted X e s →
      s.transition.Reloads X.backend s.memory ∧ UnsharedOps X e.ix e.outcomes s) :
    0 ≤ e.ix.fee r ∧ (e.ix.fee r ≤ fuelBalance X e.ix s2 ↔ Covers X e s) := by
  obtain ⟨s0, s1, hactors, hrun, rfl⟩ := beforeSettle_eq_some h
  rcases runInteraction_cases hrun with ⟨hfuel, rfl⟩ | ⟨s3, hfuel, hops⟩
  · obtain ⟨hs1, hcovered⟩ := checked_within hs hactors hfuel
    have hpoor : ¬ FuelCovered X e.ix s.transition s.memory :=
      fun h => Bool.false_ne_true (hcovered.mpr h)
    have hreload := (hrestores fun h => absurd h hpoor).1
    have hfee : e.ix.fee ((Receipt.new e.ix.hash).setStatus .receiptInsufficientFuel) = 0 :=
      mul_zero _
    have hstatus : ((Receipt.new e.ix.hash).setStatus .receiptInsufficientFuel).status ≠
      .receiptOk := nofun
    rw [hfee, undone_balance hs hs1 hreload hstatus]
    refine ⟨le_rfl, fun h => ⟨fun _ => h, fun h => absurd h hpoor, ?_⟩, fun h => h.poor hpoor⟩
    rintro s4 ⟨s5, hactors', hfuel'⟩
    cases hactors.symm.trans hactors'
    cases hfuel.symm.trans hfuel'
  obtain ⟨hs3, hcovered⟩ := checked_within hs hactors hfuel
  have hcov := hcovered.mp rfl
  have hstart : StartsOps X e.ix s s3 := ⟨s0, hactors, hfuel⟩
  obtain ⟨hnonneg, hfee⟩ := fee_of_ops hfuel hcov.1 hops
  obtain ⟨-, statuses, hran⟩ := runOps_playing hops
  have hfails : e.Fails ↔ r.status ≠ .receiptOk := by
    rw [Ne, status_ok_iff hran.status, IxRound.Fails, IxRound.ran,
      show (ranOutcomes e.ix e.outcomes).map (·.status) = statuses.map some from hran.ended]
    rcases hlast : statuses.getLast? with _ | st
    · simp [List.getLast?_eq_none_iff.mp hlast]
    have hne : statuses ≠ [] := by
      rintro rfl
      cases hlast
    simp [hlast, hne]
  rw [hfee] at hnonneg ⊢
  refine ⟨hnonneg, ?_⟩
  by_cases hok : r.status = .receiptOk
  · have hkept : ¬ e.Fails := fun h => hfails.mp h hok
    have hbalance : fuelBalance X e.ix (s1.closeRun (s.transition.snapshot s.memory).1 r) =
        fuelBalance X e.ix s + e.gain X s3 := by
      rw [ExecState.closeRun, if_pos hok, hran.state, ← hstart.balance hs]
      exact (add_sub_cancel _ _).symm
    rw [hbalance]
    refine ⟨fun h => ⟨fun h => absurd hcov h, fun _ h => absurd h hkept, ?_⟩,
      fun h => h.kept s3 hstart hkept⟩
    rintro s4 ⟨s5, hactors', hfuel'⟩ -
    cases hactors.symm.trans hactors'
    cases hfuel.symm.trans hfuel'
    exact h
  · obtain ⟨hreload, hunshared⟩ := hrestores fun _ => hfails.mpr hok
    have hs1 := hunshared.within hstart hs3 hran.state
    rw [undone_balance hs hs1 hreload hok]
    exact ⟨fun h => ⟨fun h => absurd hcov h, fun _ _ => h, fun _ _ h => absurd (hfails.mpr hok) h⟩,
      fun h => h.undone hcov (hfails.mpr hok)⟩

/-- **The fee in every batch.** After any interactions, the next one is charged exactly if it is
    covered, provided that the checkpoint restores where the interaction is undone. -/
theorem charged_iff {s₀ : ExecState} {batch : List IxRound} {e : IxRound} (hs : s₀.Sound)
    (hrun : Run (roundStep X) s₀ batch s) (hround : roundStep X s e s') :
    ∃ s₂ r, beforeSettle X e s = some (s₂, r) ∧
      s'.transition.receipts.lookup e.ix.hash = some r ∧
      ((Reverted X e s →
          s.transition.Reloads X.backend s.memory ∧ UnsharedOps X e.ix e.outcomes s) →
        (Charged X e.ix r s₂ s' ↔ Covers X e s)) := by
  have hs' := sound_run hs hrun
  obtain ⟨s₂, r, hbefore, hs2, hsettle⟩ := roundStep_cases hs' hround
  refine ⟨s₂, r, hbefore, ?_, fun hrestores => ?_⟩
  · rw [settle_transition hsettle]
    exact AList.lookup_insert _
  obtain ⟨hnonneg, hiff⟩ := beforeSettle_balance hs' hbefore hrestores
  exact (charged_iff_covered hs2 hsettle hnonneg).trans hiff

end

/-! ## 6. An overdraft -/

namespace FeeSample

open SnapshotSample (assetID accountID)
open RollbackSample (env ix start entering)

/-- An operation that uses all the fuel and spends all but five tokens. -/
def spending : OpOutcome where
  events := [.exhaust 10 0, .call (.object (.account accountID))
    (.subBalance assetID defaultTokenID 95)]
  status := some .resultOk

/-- Status of the receipt, balance left by the operations and balance in the end. -/
def charged (s : ExecState) (outcomes : List OpOutcome) : Option (ReceiptStatus × Int × Int) :=
  match beforeSettle env ⟨ix, outcomes⟩ s, executeOne env (playing env outcomes) ix s with
  | some (s₂, r), (.ok none, s') => some (r.status, fuelBalance env ix s₂, fuelBalance env ix s')
  | _, _ => none

/-- The state after a round. -/
def after (s : ExecState) (outcomes : List OpOutcome) : ExecState :=
  (executeOne env (playing env outcomes) ix s).2

theorem charged_eq_some {s : ExecState} {outcomes : List OpOutcome}
    {seen : ReceiptStatus × Int × Int} (h : charged s outcomes = some seen) :
    ∃ s2 r, beforeSettle env ⟨ix, outcomes⟩ s = some (s2, r) ∧
      roundStep env s ⟨ix, outcomes⟩ (after s outcomes) ∧
      seen = (r.status, fuelBalance env ix s2, fuelBalance env ix (after s outcomes)) := by
  unfold charged at h
  split at h
  case h_1 s2 r s' hbefore hexec =>
    cases h
    have hafter : after s outcomes = s' := congrArg Prod.snd hexec
    rw [hafter]
    exact ⟨s2, r, hbefore, hexec, rfl⟩
  case h_2 => cases h

/-- **An interaction** is charged the four tokens that its operations use. -/
theorem fee_paid :
    ∃ s₂ r, beforeSettle env ⟨ix, [entering, entering]⟩ start = some (s₂, r) ∧
      Charged env ix r s₂ (after start [entering, entering]) := by
  have hseen : charged start [entering, entering] = some (.receiptOk, 100, 96) := by decide +kernel
  obtain ⟨-, -, -, hround, -⟩ := charged_eq_some hseen
  obtain ⟨s₂, r, hbefore, -, hcharged⟩ :=
    charged_iff RollbackSample.start_sound .start hround
  have hkept : ¬ IxRound.Fails ⟨ix, [entering, entering]⟩ := by
    rintro ⟨_, hlast, hst⟩
    cases hlast
    exact hst rfl
  have hcovered : FuelCovered env ix start.transition start.memory :=
    ⟨by decide, _, RollbackSample.sender, 100, rfl, rfl, by decide +kernel, by decide⟩
  refine ⟨s₂, r, hbefore, (hcharged fun h => absurd (h hcovered) hkept).mpr
    ⟨fun h => absurd hcovered h, fun _ h => absurd h hkept, ?_⟩⟩
  rintro s₁ ⟨s₃, hactors, hfuel⟩ -
  obtain rfl := congrArg Prod.snd hactors
  obtain rfl := congrArg Prod.snd hfuel
  decide +kernel

/-- **A success that is not paid for**: the committed hundred tokens cover a cost of ten, but the
    operations spend ninety-five of them. -/
theorem fee_overdrawn :
    ∃ s₂ r, beforeSettle env ⟨ix, [spending, entering]⟩ start = some (s₂, r) ∧
      roundStep env start ⟨ix, [spending, entering]⟩ (after start [spending, entering]) ∧
      r.status = .receiptOk ∧ fuelBalance env ix (after start [spending, entering]) = -5 ∧
      ¬ Charged env ix r s₂ (after start [spending, entering]) := by
  have hrun : charged start [spending, entering] = some (.receiptOk, 5, -5) := by decide +kernel
  obtain ⟨s₂, r, hbefore, hround, hseen⟩ := charged_eq_some hrun
  obtain ⟨hstatus, -, hend⟩ : .receiptOk = r.status ∧ _ ∧
      -5 = fuelBalance env ix (after start [spending, entering]) := by simpa using hseen
  refine ⟨s₂, r, hbefore, hround, hstatus.symm, hend.symm, fun hcharged => ?_⟩
  have := hcharged.nonneg
  exact absurd this (by decide)

end FeeSample

end GoMoi
