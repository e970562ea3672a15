/-
  File:      GoMoi/Compute/FuelBounds.lean
  Subject:   The fuel of whole interactions: the bounds on what is consumed and reported, and the
             bound on what the runtime may spend (`runInteraction` of `compute/executor.go`).

  * **`fuelUsed_within`** -- no tank is overdrawn, no level underflows, and the fuel used is within
    the limit that the tank was made with. That is the limit of the interaction where it is
    executed, and the limit of the node where it is only called;
  * **`gauges_spec`** -- an operation's gauges fit for all honest answers exactly if `StepFits`
    holds before it; in a run of such operations the total effort is within the limit.
-/
import GoMoi.Compute.FuelRunners

namespace GoMoi

open Fueled Proc

/-! ## 1. Statuses -/

/-- No runner raises a defect. -/
def NoDefect (status : IxOpStatus) : Prop := status ≠ .resultDefectRaised

theorem noDefect_opStatus (ok : Bool) : NoDefect (opStatus ok) := by
  cases ok <;> exact nofun

theorem noDefect_exception : NoDefect .resultExceptionRaised := nofun

variable {x : Fueled Bool} {ix : Interaction} {receipt : Receipt}

/-- A check or a charge, and what follows if it passes. -/
theorem noDefect_guard {y : Fueled IxOpStatus} (hy : Proc.Returns NoDefect y) :
    Proc.Returns NoDefect (x >>= fun b => if b = true then y else pure .resultExceptionRaised) := by
  refine .bind fun b => ?_
  cases b with
  | true => exact hy
  | false => exact .pure noDefect_exception

theorem noDefect_last (x : Fueled Bool) :
    Proc.Returns NoDefect (x >>= fun ok => pure (opStatus ok)) :=
  .bind fun ok => .pure (noDefect_opStatus ok)

theorem runOp_noDefect (a : OpAnswers) (type : IxOpType) :
    Proc.Returns NoDefect (runOp a type) := by
  unfold runOp
  cases hrun : lookupOpRunner type with
  | none =>
    intro s b s' h
    cases h
  | some run =>
  obtain ⟨-, rfl⟩ | ⟨-, rfl⟩ | ⟨-, rfl⟩ | ⟨-, rfl⟩ | ⟨-, rfl⟩ | ⟨-, rfl⟩ :=
    lookupOpRunner_cases hrun
  · exact noDefect_guard (noDefect_guard (noDefect_guard (noDefect_guard (noDefect_guard
      (noDefect_last _)))))
  · exact noDefect_guard (noDefect_last _)
  · exact noDefect_guard (noDefect_guard (noDefect_guard (noDefect_guard (noDefect_last _))))
  · exact noDefect_guard (noDefect_guard (noDefect_guard (noDefect_guard (noDefect_guard
      (noDefect_last _)))))
  · exact noDefect_guard (noDefect_last _)
  · exact noDefect_guard (noDefect_last _)

variable {tank : FuelTank} {s : FuelState} {f : Bool → Fueled IxOpStatus}

theorem recordResult_fuelUsed_of_noDefect {type : IxOpType} {status : IxOpStatus}
    (h : NoDefect status) :
    (recordResult ix tank type status receipt).fuelUsed = tank.computeConsumed := by
  cases status with
  | resultOk => rfl
  | resultExceptionRaised => rfl
  | resultDefectRaised => exact absurd rfl h

/-! ## 2. The loop -/

/-- Every operation that is reached finds a tank in which its gauge fits. -/
def FitsAlong (answers : Nat → OpAnswers) : Nat → List IxOp → FuelState → Prop
  | _, [], _ => True
  | idx, op :: rest, s => StepFits op.type s.tank ∧
      ∀ status s', runOp (answers idx) op.type s = (.ok status, s') →
        FitsAlong answers (idx + 1) rest s'

/-- **The loop over the operations keeps the books**, and the fuel used is what the tank has
    consumed. -/
theorem runOpsFueled_books {H : Prop} {capacity : FuelGauge} {answers : Nat → OpAnswers}
    {ops : List IxOp} {idx : Nat} (h : InBooks H capacity s)
    (hr : receipt.fuelUsed ≤ capacity.compute)
    (hH : H → (∀ idx, (answers idx).Honest) ∧ FitsAlong answers idx ops s) :
    wp (runOpsFueled ix answers idx ops receipt)
      (fun r s' => InBooks H capacity s' ∧ r.fuelUsed ≤ capacity.compute)
        (Broken H capacity) s := by
  induction ops generalizing idx receipt s with
  | nil => exact ⟨h, hr⟩
  | cons op rest ih =>
    rw [runOpsFueled, wp_bind]
    have hop : wp (runOp (answers idx) op.type) _ _ s :=
      runOp_books h fun hh => ⟨(hH hh).1 idx, (hH hh).2.1⟩
    unfold wp at hop ⊢
    cases hrun : runOp (answers idx) op.type s with
    | mk r s' =>
      rw [hrun] at hop
      rcases r with p | status
      · exact hop
      have hst : NoDefect status := runOp_noDefect _ _ s status s' hrun
      refine ih (s := s') hop ?_ fun hh => ⟨(hH hh).1, (hH hh).2.2 status s' hrun⟩
      rw [recordResult_fuelUsed_of_noDefect hst,
        ← FuelTank.computeCapacity_of_capacity hop.account.capacity]
      exact hop.account.sound.compute

/-- The state in which an interaction starts. -/
def FuelState.start (tank : FuelTank) : FuelState := ⟨tank, [], []⟩

theorem inBooks_start (H : Prop) (cfg : FuelLimits) (useIxFuelLimit : Bool) (ix : Interaction) :
    InBooks H (cfg.newTank useIxFuelLimit ix).capacity
      (.start (cfg.newTank useIxFuelLimit ix)) := by
  refine ⟨⟨rfl, ?_, by simp [FuelState.start]⟩, fun _ => ⟨by simp [FuelState.start], Nat.zero_le _⟩⟩
  cases useIxFuelLimit <;> exact FuelTank.sound_new _ _

theorem wp_checkBalance {useIxFuelLimit : Bool} {enough : Go Bool} {R : FuelState → Prop}
    (hR : R s) : wp (checkBalance useIxFuelLimit enough) (fun _ s' => s' = s) R s := by
  rcases useIxFuelLimit with _ | _
  · rfl
  show wp (check enough) _ _ _
  rw [check, wp_ofGo]
  exact ⟨fun _ _ => rfl, fun _ _ => hR⟩

/-- **A whole interaction keeps the books.** -/
theorem runFueled_books {H : Prop} {cfg : FuelLimits} {useIxFuelLimit : Bool} {enough : Go Bool}
    {answers : Nat → OpAnswers} {ix : Interaction} (tank : FuelTank)
    (hH : H → (∀ idx, (answers idx).Honest) ∧
      FitsAlong answers 0 ix.ops (.start (cfg.newTank useIxFuelLimit ix))) :
    wp (runFueled cfg useIxFuelLimit enough answers ix)
      (fun r s' => Broken H (cfg.newTank useIxFuelLimit ix).capacity s' ∧
        ∀ receipt, r = .ok receipt →
          receipt.fuelUsed ≤ (cfg.newTank useIxFuelLimit ix).computeCapacity)
      (Broken H (cfg.newTank useIxFuelLimit ix).capacity) (.start tank) := by
  have hstart := inBooks_start H cfg useIxFuelLimit ix
  have hzero : (Receipt.new ix.hash).fuelUsed ≤ (cfg.newTank useIxFuelLimit ix).capacity.compute :=
    UInt64.zero_le
  unfold runFueled
  rw [wp_bind, wp_assign]
  refine wp_seq (wp_checkBalance hstart.broken) fun b s' hs' => ?_
  subst hs'
  cases b with
  | true =>
    simp only [if_true, wp_bind]
    refine wp_recovered (wp_mono (runOpsFueled_books hstart hzero hH)
      (fun receipt s' hr => ?_) fun s' hb => ?_)
    · refine ⟨hr.1.broken, fun receipt' heq => ?_⟩
      cases heq
      exact hr.2
    · refine ⟨hb, fun receipt heq => ?_⟩
      cases heq
  | false =>
    refine ⟨hstart.broken, fun receipt heq => ?_⟩
    cases heq
    exact UInt64.zero_le

/-! ## 3. What is consumed -/

/-- **Fuel bounds.** For all answers of state, runtime and compiler: every tank whose level is
    taken, and every tank of a deployment after each charge, has consumed no more than its capacity,
    so that no level underflows. The same holds of the tank at the end, and the fuel used in the
    receipt is within the limit that the tank was made with. -/
theorem fuelUsed_within (cfg : FuelLimits) (useIxFuelLimit : Bool) (enough : Go Bool)
    (answers : Nat → OpAnswers) (ix : Interaction) (tank : FuelTank) :
    let r := runFueled cfg useIxFuelLimit enough answers ix (.start tank)
    (∀ t ∈ r.2.levels, t.computeConsumed ≤ t.computeCapacity ∧
      t.storageConsumed ≤ t.storageCapacity) ∧
    r.2.tank.computeConsumed ≤ r.2.tank.computeCapacity ∧
    r.2.tank.storageConsumed ≤ r.2.tank.storageCapacity ∧
    ∀ receipt, r.1 = .ok (.ok receipt) →
      receipt.fuelUsed ≤ if useIxFuelLimit then ix.fuelLimit else cfg.computeLimit := by
  have hbooks := @runFueled_books False cfg useIxFuelLimit enough answers ix tank fun h => h.elim
  have hlimit : (cfg.newTank useIxFuelLimit ix).computeCapacity =
      if useIxFuelLimit then ix.fuelLimit else cfg.computeLimit := by
    cases useIxFuelLimit <;> rfl
  have hsound : ∀ {s' : FuelState}, TankAccount (cfg.newTank useIxFuelLimit ix).capacity s' →
      (∀ t ∈ s'.levels, t.computeConsumed ≤ t.computeCapacity ∧
        t.storageConsumed ≤ t.storageCapacity) ∧
      s'.tank.computeConsumed ≤ s'.tank.computeCapacity ∧
      s'.tank.storageConsumed ≤ s'.tank.storageCapacity := fun hacc =>
    ⟨fun t ht => ⟨(hacc.levels t ht).compute, (hacc.levels t ht).storage⟩, hacc.sound.compute,
      hacc.sound.storage⟩
  unfold wp at hbooks
  cases hrun : runFueled cfg useIxFuelLimit enough answers ix (.start tank) with
  | mk res s' =>
    rw [hrun] at hbooks
    rcases res with p | _
    · obtain ⟨h1, h2, h3⟩ := hsound hbooks.account
      exact ⟨h1, h2, h3, nofun⟩
    obtain ⟨h1, h2, h3⟩ := hsound hbooks.1.account
    refine ⟨h1, h2, h3, fun receipt heq => ?_⟩
    cases heq
    rw [← hlimit]
    exact hbooks.2 receipt rfl

/-- An interaction with operations of the given types. -/
def ixnWithOps (fuelLimit : UInt64) (types : List IxOpType) : Interaction where
  inner := ⟨⟨⟨7⟩, 0, 0⟩, nilIdentifier, none, fuelLimit, [], []⟩
  ops := types.map fun type => ⟨nilIdentifier, type, .accountConfigure ⟨[], []⟩⟩
  ps := ∅
  leaderCandidateAcc := ⟨7⟩
  hash := nilHash
  size := 0
  signatures := []

/-- Every check passes, and the runtime spends a given part of its gauge. -/
def passing (effort : FuelGauge → FuelGauge) : OpAnswers where
  getObjects := .ok true
  validate := .ok true
  createAsset := .ok true
  getManifest := .ok true
  addNewAccountsToSargaAccount := .ok true
  call gauge := ⟨effort gauge, .ok false⟩
  update := .ok true
  deploy := ⟨.ok true, .ok true, true, fun gauge => ⟨effort gauge, .ok false⟩, .ok true,
    .ok true, false, true, false, .ok true, fun gauge => ⟨effort gauge, .ok false⟩⟩

/-- **A call that is not executed may use more fuel than the interaction's limit**: the limit is
    that of the node. -/
theorem call_exceeds_fuelLimit :
    let ix := ixnWithOps 0 [ixAccountConfigure]
    ix.fuelLimit = 0 ∧
    ((runFueled ⟨1000, 1000⟩ false (.ok true) (fun _ => passing id) ix (.start (.new 0 0))).1.map
      fun r => r.map (·.fuelUsed)) = .ok (.ok 100) := by
  decide

/-! ## 4. What the runtime may spend -/

theorem calls_bind (hf : ∀ b s', (f b s').2.calls = s'.calls) :
    ((x >>= f) s).2.calls = (x s).2.calls := by
  simp only [bind]
  cases x s with
  | mk r s' =>
    cases r with
    | ok b => exact hf b s'
    | error p => rfl

/-- The call is recorded with the capacity as its gauge. -/
theorem runtimeCall_calls (s : FuelState) (effort : FuelGauge → FuelGauge) :
    (runtimeCall (passing effort).call s).2.calls =
      s.calls ++ [⟨s.tank.capacity, s.tank.gauge, effort s.tank.capacity⟩] := by
  show ((if (s.tank.exhaust _ _).1 = true then (pure true : Fueled Bool)
    else pure false) _).2.calls = _
  split <;> rfl

theorem runLogicInvoke_calls (s : FuelState) (effort : FuelGauge → FuelGauge) :
    (runLogicInvoke (passing effort) s).2.calls =
      s.calls ++ [⟨s.tank.capacity, s.tank.gauge, effort s.tank.capacity⟩] := by
  rw [← runtimeCall_calls s effort]
  show ((runtimeCall (passing effort).call >>= fun ok => pure (opStatus ok)) s).2.calls = _
  exact calls_bind fun _ _ => rfl

/-- After a charge that goes through, the call has the capacity as its gauge, but not that much
    left. -/
theorem afterCharge_unfit (hs : tank.Sound) (hle : FuelGauge.le ⟨100, 0⟩ tank.gauge)
    (hs' : s.tank = (tank.exhaust 100 0).2) : ¬ s.tank.capacity.le s.tank.gauge := by
  intro hfit
  obtain ⟨-, t, heq, hc, -, hcap, hsound⟩ | ⟨hnot, -⟩ := hs.exhaust_cases ⟨100, 0⟩
  · have heq' : tank.exhaust 100 0 = (true, t) := heq
    rw [hs', heq'] at hfit
    have h1 : t.capacity.compute.toNat ≤ t.gauge.compute.toNat := UInt64.le_iff_toNat_le.mp hfit.1
    have h2 := hsound.toNat_gauge.1
    have h3 : t.computeConsumed.toNat = tank.computeConsumed.toNat + 100 := hc
    have h4 : t.capacity.compute.toNat = t.computeCapacity.toNat := rfl
    omega
  · exact hnot hle

/-- What two runners do after their charge, with every check passed. -/
theorem afterCharge_calls (s : FuelState) (effort : FuelGauge → FuelGauge) :
    ((runtimeCall (passing effort).call >>= fun b =>
      if b = true then (check (.ok true) >>= fun ok => pure (opStatus ok))
      else pure .resultExceptionRaised) s).2.calls =
      s.calls ++ [⟨s.tank.capacity, s.tank.gauge, effort s.tank.capacity⟩] := by
  rw [← runtimeCall_calls s effort]
  refine calls_bind fun b s' => ?_
  cases b <;> rfl

/-- A charge that goes through, and what follows. -/
theorem exhaust_bind_true {effort : FuelGauge}
    (h : (s.tank.exhaust effort.compute effort.storage).1 = true) :
    (exhaust effort >>= f) s = f true
      { s with tank := (s.tank.exhaust effort.compute effort.storage).2
               levels := s.levels ++ [s.tank] } := by
  show f (s.tank.exhaust effort.compute effort.storage).1 _ = _
  rw [h]

theorem runAccountInherit_calls {s : FuelState} (effort : FuelGauge → FuelGauge)
    (h : (s.tank.exhaust 100 0).1 = true) :
    ∃ s' : FuelState, s'.tank = (s.tank.exhaust 100 0).2 ∧
      (runAccountInherit (passing effort) s).2.calls =
        s.calls ++ [⟨s'.tank.capacity, s'.tank.gauge, effort s'.tank.capacity⟩] := by
  refine ⟨{ s with tank := (s.tank.exhaust 100 0).2, levels := s.levels ++ [s.tank] }, rfl, ?_⟩
  unfold runAccountInherit
  rw [exhaust_bind_true h]
  exact afterCharge_calls _ effort

theorem passing_honest : (passing id).Honest := by
  have h : HonestAnswer fun gauge => ⟨gauge, .ok false⟩ :=
    fun _ => ⟨UInt64.le_refl _, UInt64.le_refl _⟩
  exact ⟨h, h, h⟩

/-- The gauges of an operation fit for all honest answers. -/
def GaugesFit (type : IxOpType) (tank : FuelTank) : Prop :=
  ∀ a : OpAnswers, a.Honest → ∀ c ∈ (runOp a type (.start tank)).2.calls, c.Fits

/-- **One operation**: its gauges fit exactly under the condition on the tank before it. -/
theorem gaugesFit_iff (hs : tank.Sound) (type : IxOpType) :
    GaugesFit type tank ↔ StepFits type tank := by
  constructor
  · intro h
    have hfit := h _ passing_honest
    refine ⟨fun hty => ?_, fun hty => ?_⟩
    · have hrun : runOp (passing id) type = runLogicInvoke (passing id) := by
        obtain rfl | rfl := hty <;> rfl
      rw [hrun, runLogicInvoke_calls] at hfit
      have hle : tank.capacity.le tank.gauge :=
        hfit ⟨tank.capacity, tank.gauge, tank.capacity⟩ (List.mem_append_right _ List.mem_cons_self)
      obtain ⟨h1, h2⟩ := hs.toNat_gauge
      have h3 : tank.computeCapacity.toNat ≤ tank.gauge.compute.toNat :=
        UInt64.le_iff_toNat_le.mp hle.1
      have h4 : tank.storageCapacity.toNat ≤ tank.gauge.storage.toNat :=
        UInt64.le_iff_toNat_le.mp hle.2
      exact ⟨UInt64.toNat_inj.mp (by show _ = 0; omega), UInt64.toNat_inj.mp (by show _ = 0; omega)⟩
    · by_contra hlevel
      have hle : FuelGauge.le ⟨100, 0⟩ tank.gauge := ⟨UInt64.not_lt.mp hlevel, UInt64.zero_le⟩
      have htrue : (tank.exhaust 100 0).1 = true := by
        obtain ⟨-, t, heq, -⟩ | ⟨hnot, -⟩ := hs.exhaust_cases ⟨100, 0⟩
        · exact congrArg Prod.fst heq
        · exact absurd hle hnot
      obtain ⟨s', hs', hcalls⟩ : ∃ s' : FuelState, s'.tank = (tank.exhaust 100 0).2 ∧
          (runOp (passing id) type (.start tank)).2.calls =
            [] ++ [⟨s'.tank.capacity, s'.tank.gauge, id s'.tank.capacity⟩] := by
        -- with every check passed, a creation does what an inheritance does
        obtain rfl | rfl := hty <;> exact @runAccountInherit_calls (.start tank) id htrue
      rw [hcalls] at hfit
      exact afterCharge_unfit hs hle hs'
        (hfit ⟨s'.tank.capacity, s'.tank.gauge, s'.tank.capacity⟩ List.mem_cons_self)
  · intro hstep a ha c hc
    have hstart : InBooks True tank.capacity (.start tank) :=
      ⟨⟨rfl, hs, by simp [FuelState.start]⟩, fun _ => ⟨by simp [FuelState.start], Nat.zero_le _⟩⟩
    have hop : wp (runOp a type) _ _ (.start tank) := runOp_books hstart fun _ => ⟨ha, hstep⟩
    have hcov := wp_state.mp (wp_mono hop (fun _ _ h => h.broken) fun _ h => h)
    exact (hcov.covered trivial).fits c hc

/-- **The gauges of an interaction.** Before each operation, for a tank that is not overdrawn, the
    gauges of the operation fit for all honest answers exactly under `StepFits`. In every run, of
    any interaction, whose operations all meet it, every gauge is within the fuel left, and the
    total effort within the limit. -/
theorem gauges_spec (tank : FuelTank) :
    (∀ type, tank.Sound → (GaugesFit type tank ↔ StepFits type tank)) ∧
    ∀ cfg useIxFuelLimit enough answers ix, (∀ idx, (answers idx).Honest) →
      FitsAlong answers 0 ix.ops (.start (cfg.newTank useIxFuelLimit ix)) →
      let s' := (runFueled cfg useIxFuelLimit enough answers ix (.start tank)).2
      (∀ c ∈ s'.calls, c.Fits) ∧
      spent s'.calls ≤ (if useIxFuelLimit then ix.fuelLimit else cfg.computeLimit).toNat := by
  refine ⟨fun type hs => gaugesFit_iff hs type, ?_⟩
  intro cfg useIxFuelLimit enough answers ix hhon hfits s'
  have hbooks := @runFueled_books True cfg useIxFuelLimit enough answers ix tank
    fun _ => ⟨hhon, hfits⟩
  have hbroken := wp_state.mp (wp_mono hbooks (fun _ _ h => h.1) fun _ h => h)
  obtain ⟨hfit, hspent⟩ := hbroken.covered trivial
  refine ⟨hfit, ?_⟩
  cases useIxFuelLimit <;> exact hspent

/-- The calls of an interaction, with a runtime that spends its whole gauge. -/
def callsOf (fuelLimit : UInt64) (types : List IxOpType) : List EngineCall :=
  (runFueled ⟨0, 5⟩ true (.ok true) (fun _ => passing id) (ixnWithOps fuelLimit types)
    (.start (.new 0 0))).2.calls

/-- A logic call that spends the limit, and a configuration that finds nothing left. -/
theorem first_call_within :
    callsOf 1000 [ixLogicInvoke, ixAccountConfigure] = [⟨⟨1000, 5⟩, ⟨1000, 5⟩, ⟨1000, 5⟩⟩] ∧
    (∀ c ∈ callsOf 1000 [ixLogicInvoke, ixAccountConfigure], c.Fits) ∧
    spent (callsOf 1000 [ixLogicInvoke, ixAccountConfigure]) ≤ 1000 := by
  have hconfigure (tank : FuelTank) : StepFits ixAccountConfigure tank :=
    ⟨fun h => absurd h (by decide), fun h => absurd h (by decide)⟩
  have hfits : FitsAlong (fun _ => passing id) 0
      (ixnWithOps 1000 [ixLogicInvoke, ixAccountConfigure]).ops (.start (.new 1000 5)) :=
    ⟨⟨fun _ => ⟨rfl, rfl⟩, by decide⟩, fun _ s' _ => ⟨hconfigure s'.tank, fun _ _ _ => trivial⟩⟩
  exact ⟨by decide, (gauges_spec (.new 0 0)).2 _ _ _ _ _ (fun _ => passing_honest) hfits⟩

/-- **Two calls may spend the limit twice**: with a limit of 10, both get a gauge of 10, though
    nothing is left for the second. A creation gets a gauge of 1000 with 900 left. -/
theorem limit_spent_twice :
    callsOf 10 [ixLogicInvoke, ixLogicInvoke] =
      [⟨⟨10, 5⟩, ⟨10, 5⟩, ⟨10, 5⟩⟩, ⟨⟨10, 5⟩, ⟨0, 0⟩, ⟨10, 5⟩⟩] ∧
    spent (callsOf 10 [ixLogicInvoke, ixLogicInvoke]) = 20 ∧
    callsOf 1000 [ixParticipantCreate] = [⟨⟨1000, 5⟩, ⟨900, 5⟩, ⟨1000, 5⟩⟩] := by
  decide

end GoMoi
