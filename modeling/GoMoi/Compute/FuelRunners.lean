/-
  File:      GoMoi/Compute/FuelRunners.lean
  Subject:   The fuel of an interaction: what its operations take from the tank, and the gauges that
             the runtime and the compiler are given (`compute/fueltank.go`, `compute/executor.go`
             and the runners `compute/ixlogicinvoke.go`, `ixlogicdeploy.go`, `ixparticipant.go`,
             `ixasset.go`).

  Everything of a runner is kept that decides whether it comes to a charge or to a call. What the
  rest of the node answers is a parameter (`OpAnswers`): whether a check passes, what effort the
  runtime or the compiler reports for a gauge, and where the code panics. A deployment works with a
  tank of its own, filled with the level of the interaction's tank, and its consumption is charged
  afterwards.

  * `FuelState` -- the tank; for the statements also every tank whose level has been taken, every
    tank of a deployment after a charge, and every call with its gauge, the fuel that was left and
    the effort;
  * `FuelTank.Sound`, `TankSettled` -- what is invariant about a tank and the calls paid from it;
  * `Nested` -- the invariant of a deployment; `InBooks` -- that of the runners;
  * **`runOp_books`** -- every operation keeps it.
-/
import GoMoi.Compute.Executor

namespace GoMoi

open Proc FuelTank List

/-! ## 1. The state -/

/-- `type FuelGauge struct`. -/
structure FuelGauge where
  compute : UInt64
  storage : UInt64
  deriving DecidableEq, Repr

/-- What a call of the runtime or the compiler comes to: the effort, and how it ends, with a panic
    or else with an error or not. -/
structure EngineAnswer where
  effort : FuelGauge
  isError : Go Bool

/-- A call: the gauge, the fuel that was left in the tank it is paid from, and the effort. -/
structure EngineCall where
  gauge : FuelGauge
  left : FuelGauge
  effort : FuelGauge
  deriving DecidableEq, Repr

/-- The tank of the interaction. The other fields record what has happened; no code reads them. -/
structure FuelState where
  tank : FuelTank
  levels : List FuelTank
  calls : List EngineCall

/-- A part of a runner. -/
abbrev Fueled (A : Type) : Type := Proc FuelState A

namespace FuelTank

/-- The level as a gauge. -/
def gauge (tank : FuelTank) : FuelGauge := ⟨tank.level.1, tank.level.2⟩

/-- `Consumed`. -/
def consumed (tank : FuelTank) : FuelGauge := ⟨tank.computeConsumed, tank.storageConsumed⟩

/-- The capacity as a gauge. -/
def capacity (tank : FuelTank) : FuelGauge := ⟨tank.computeCapacity, tank.storageCapacity⟩

end FuelTank

namespace Fueled

/-- A check outside of the fuel. -/
def check (passes : Go Bool) : Fueled Bool := ofGo passes

/-- `tank.Exhaust`. -/
def exhaust (effort : FuelGauge) : Fueled Bool := fun s =>
  (.ok (s.tank.exhaust effort.compute effort.storage).1,
    { s with
      tank := (s.tank.exhaust effort.compute effort.storage).2
      levels := s.levels ++ [s.tank] })

/-- `deployer.fuel.Exhaust`. -/
def exhaustOf (fuel : FuelTank) (effort : FuelGauge) : Fueled (Bool × FuelTank) := fun s =>
  let charged := fuel.exhaust effort.compute effort.storage
  (.ok charged, { s with levels := s.levels ++ [fuel, charged.2] })

/-- `Level`. -/
def levelOf (fuel : FuelTank) : Fueled FuelGauge := fun s =>
  (.ok fuel.gauge, { s with levels := s.levels ++ [fuel] })

/-- A call of the runtime or the compiler, paid from `fuel`. -/
def callEngine (fuel : FuelTank) (gauge : FuelGauge) (answer : FuelGauge → EngineAnswer) :
    Fueled (FuelGauge × Bool) := fun s =>
  ((answer gauge).isError.map fun isError => ((answer gauge).effort, isError),
    { s with calls := s.calls ++ [⟨gauge, fuel.gauge, (answer gauge).effort⟩] })

end Fueled

/-! ## 2. Deployment -/

def fuelSimpleParticipantCreate : UInt64 := 100
def fuelAssetCreation : UInt64 := 100
def fuelLogicObjectDeployment : UInt64 := 100
def fuelAccountInherit : UInt64 := 100
def fuelAccountConfigure : UInt64 := 100

/-- What the rest of the node says during a deployment. -/
structure DeployAnswers where
  newManifest : Go Bool
  fetchEngine : Go Bool
  isPISA : Bool
  compileManifest : FuelGauge → EngineAnswer
  createLogic : Go Bool
  fetchLogicObject : Go Bool
  hasDeployerCallsite : Bool
  emptyCallsite : Bool
  knowsCallsite : Bool
  spawnLogic : Go Bool
  call : FuelGauge → EngineAnswer

open Fueled

/-- `compileManifest`: whether there is a descriptor, and the tank of the deployment. -/
def compileManifest (d : DeployAnswers) (fuel : FuelTank) : Fueled (Bool × FuelTank) := do
  if ← check d.newManifest then
    if ← check d.fetchEngine then
      if d.isPISA then
        let gauge ← levelOf fuel
        let result ← callEngine fuel gauge d.compileManifest
        let (enough, fuel) ← exhaustOf fuel result.1
        return (enough && !result.2, fuel)
      else return (false, fuel)
    else return (false, fuel)
  else return (false, fuel)

/-- `deployLogicObject`. -/
def deployLogicObject (d : DeployAnswers) (fuel : FuelTank) : Fueled (Bool × FuelTank) := do
  if ← check d.createLogic then
    if ← check d.fetchLogicObject then exhaustOf fuel ⟨fuelLogicObjectDeployment, 0⟩
    else return (false, fuel)
  else return (false, fuel)

/-- The call of the deployer: the tank, and `none` if it fails, else whether the result is an
    error. -/
def callDeployer (d : DeployAnswers) (fuel : FuelTank) : Fueled (FuelTank × Option Bool) := do
  let gauge ← levelOf fuel
  let result ← callEngine fuel gauge d.call
  let (enough, fuel) ← exhaustOf fuel result.1
  if enough then return (fuel, some result.2) else return (fuel, none)

/-- `DeployLogic` on its tank. -/
def deployWith (d : DeployAnswers) (fuel : FuelTank) : Fueled (FuelTank × Option Bool) := do
  let (ok, fuel) ← compileManifest d fuel
  if ok then
    let (ok, fuel) ← deployLogicObject d fuel
    if ok then
      if !d.hasDeployerCallsite && d.emptyCallsite then return (fuel, some false)
      else if d.knowsCallsite then
        if ← check d.spawnLogic then callDeployer d fuel else return (fuel, none)
      else return (fuel, none)
    else return (fuel, none)
  else return (fuel, none)

/-- `DeployLogic`: the consumption, and `none` for an error, else whether the payload has one. -/
def deployLogic (d : DeployAnswers) : Fueled (FuelGauge × Option Bool) := do
  let level ← levelOf (← Proc.self).tank
  let (fuel, result) ← deployWith d (new level.compute level.storage)
  return (fuel.consumed, result)

/-! ## 3. Runners -/

/-- What the rest of the node says during an operation. -/
structure OpAnswers where
  getObjects : Go Bool
  validate : Go Bool
  createAsset : Go Bool
  getManifest : Go Bool
  addNewAccountsToSargaAccount : Go Bool
  call : FuelGauge → EngineAnswer
  update : Go Bool
  deploy : DeployAnswers

/-- The call that three runners make in the same way: the gauge is the CAPACITY of the tank. -/
def runtimeCall (answer : FuelGauge → EngineAnswer) : Fueled Bool := do
  let tank := (← Proc.self).tank
  let result ← callEngine tank tank.capacity answer
  if ← exhaust result.1 then return !result.2 else return false

/-- The status of a runner that has got through, or not. -/
def opStatus (ok : Bool) : IxOpStatus := if ok then .resultOk else .resultExceptionRaised

/-- `RunLogicInvoke`. -/
def runLogicInvoke (a : OpAnswers) : Fueled IxOpStatus := do
  if ← check a.validate then return opStatus (← runtimeCall a.call)
  else return .resultExceptionRaised

/-- `RunParticipantCreate`. -/
def runParticipantCreate (a : OpAnswers) : Fueled IxOpStatus := do
  if ← check a.getObjects then
    if ← exhaust ⟨fuelSimpleParticipantCreate, 0⟩ then
      if ← check a.validate then
        if ← check a.addNewAccountsToSargaAccount then
          if ← runtimeCall a.call then return opStatus (← check a.update)
          else return .resultExceptionRaised
        else return .resultExceptionRaised
      else return .resultExceptionRaised
    else return .resultExceptionRaised
  else return .resultExceptionRaised

/-- `RunAccountConfigure`. -/
def runAccountConfigure (a : OpAnswers) : Fueled IxOpStatus := do
  if ← exhaust ⟨fuelAccountConfigure, 0⟩ then return opStatus (← check a.update)
  else return .resultExceptionRaised

/-- `RunAccountInherit`. -/
def runAccountInherit (a : OpAnswers) : Fueled IxOpStatus := do
  if ← exhaust ⟨fuelAccountInherit, 0⟩ then
    if ← check a.validate then
      if ← check a.addNewAccountsToSargaAccount then
        if ← runtimeCall a.call then return opStatus (← check a.update)
        else return .resultExceptionRaised
      else return .resultExceptionRaised
    else return .resultExceptionRaised
  else return .resultExceptionRaised

/-- A deployment, charged: whether it got through. -/
def chargedDeploy (d : DeployAnswers) : Fueled Bool := do
  let (consumption, result) ← deployLogic d
  if ← exhaust consumption then return result = some false else return false

/-- `RunAssetCreate`. -/
def runAssetCreate (a : OpAnswers) : Fueled IxOpStatus := do
  if ← exhaust ⟨fuelAssetCreation, 0⟩ then
    if ← check a.getObjects then
      if ← check a.validate then
        if ← check a.createAsset then
          if ← check a.getManifest then return opStatus (← chargedDeploy a.deploy)
          else return .resultExceptionRaised
        else return .resultExceptionRaised
      else return .resultExceptionRaised
    else return .resultExceptionRaised
  else return .resultExceptionRaised

/-- `RunLogicDeploy`. -/
def runLogicDeploy (a : OpAnswers) : Fueled IxOpStatus := do
  if ← chargedDeploy a.deploy then return opStatus (← check a.addNewAccountsToSargaAccount)
  else return .resultExceptionRaised

/-- `lookupOpRunner`: other types have no runner, and the call of a nil function panics. -/
def lookupOpRunner (type : IxOpType) : Option (OpAnswers → Fueled IxOpStatus) :=
  if type = ixParticipantCreate then some runParticipantCreate
  else if type = ixAccountConfigure then some runAccountConfigure
  else if type = ixAccountInherit then some runAccountInherit
  else if type = ixAssetCreate then some runAssetCreate
  else if type = ixAssetAction then some runLogicInvoke
  else if type = ixLogicDeploy then some runLogicDeploy
  else if type = ixLogicInvoke then some runLogicInvoke
  else none

theorem lookupOpRunner_cases {type : IxOpType} {run : OpAnswers → Fueled IxOpStatus}
    (h : lookupOpRunner type = some run) :
    (type = ixParticipantCreate ∧ run = runParticipantCreate) ∨
    (type = ixAccountConfigure ∧ run = runAccountConfigure) ∨
    (type = ixAccountInherit ∧ run = runAccountInherit) ∨
    (type = ixAssetCreate ∧ run = runAssetCreate) ∨
    (type = ixLogicDeploy ∧ run = runLogicDeploy) ∨
    ((type = ixAssetAction ∨ type = ixLogicInvoke) ∧ run = runLogicInvoke) := by
  unfold lookupOpRunner at h
  split_ifs at h with h1 h2 h3 h4 h5 h6 h7 <;> cases h
  · exact .inl ⟨h1, rfl⟩
  · exact .inr (.inl ⟨h2, rfl⟩)
  · exact .inr (.inr (.inl ⟨h3, rfl⟩))
  · exact .inr (.inr (.inr (.inl ⟨h4, rfl⟩)))
  · exact .inr (.inr (.inr (.inr (.inr ⟨.inl h5, rfl⟩))))
  · exact .inr (.inr (.inr (.inr (.inl ⟨h6, rfl⟩))))
  · exact .inr (.inr (.inr (.inr (.inr ⟨.inr h7, rfl⟩))))

/-- A round of the loop of `runInteraction`. -/
def runOp (a : OpAnswers) (type : IxOpType) : Fueled IxOpStatus :=
  match lookupOpRunner type with
  | none => ofGo (.error .nilDeref)
  | some run => run a

/-- The loop of `runInteraction`. -/
def runOpsFueled (ix : Interaction) (answers : Nat → OpAnswers) :
    Nat → List IxOp → Receipt → Fueled Receipt
  | _, [], receipt => return receipt
  | idx, op :: rest, receipt => do
    let status ← runOp (answers idx) op.type
    let tank := (← Proc.self).tank
    runOpsFueled ix answers (idx + 1) rest (recordResult ix tank op.type status receipt)

/-- The limits of the node's configuration. -/
structure FuelLimits where
  computeLimit : UInt64
  storageLimit : UInt64

/-- The tank that `runInteraction` makes: with the limit of the interaction, or for a call that is
    not executed with the node's own. -/
def FuelLimits.newTank (cfg : FuelLimits) (useIxFuelLimit : Bool) (ix : Interaction) : FuelTank :=
  if useIxFuelLimit then new ix.fuelLimit cfg.storageLimit
  else new cfg.computeLimit cfg.storageLimit

/-- The check of the sender's balance, which a call that is not executed leaves out. -/
def checkBalance (useIxFuelLimit : Bool) (hasSufficientFuel : Go Bool) : Fueled Bool :=
  if useIxFuelLimit then check hasSufficientFuel else pure true

/-- `runInteraction`; `hasSufficientFuel` is what the check of the sender's balance says. -/
def runFueled (cfg : FuelLimits) (useIxFuelLimit : Bool) (hasSufficientFuel : Go Bool)
    (answers : Nat → OpAnswers) (ix : Interaction) : Fueled (Except Err Receipt) := do
  Proc.assign fun s => { s with tank := cfg.newTank useIxFuelLimit ix }
  if ← checkBalance useIxFuelLimit hasSufficientFuel then
    match ← Proc.recovered (runOpsFueled ix answers 0 ix.ops (Receipt.new ix.hash)) with
    | none => return .error (.new "execution failed: executor panicked!")
    | some receipt => return .ok receipt
  else return .ok ((Receipt.new ix.hash).setStatus .receiptInsufficientFuel)

/-! ## 4. A tank and the calls paid from it -/

/-- Component by component. -/
def FuelGauge.le (g h : FuelGauge) : Prop := g.compute ≤ h.compute ∧ g.storage ≤ h.storage

namespace FuelTank

/-- No more is consumed than the capacity, so that the level does not underflow. -/
structure Sound (tank : FuelTank) : Prop where
  compute : tank.computeConsumed ≤ tank.computeCapacity
  storage : tank.storageConsumed ≤ tank.storageCapacity

variable {tank : FuelTank} {effort : FuelGauge}

theorem sound_new (compute storage : UInt64) : (new compute storage).Sound :=
  ⟨UInt64.zero_le, UInt64.zero_le⟩

theorem Sound.toNat_gauge (h : tank.Sound) :
    tank.gauge.compute.toNat + tank.computeConsumed.toNat = tank.computeCapacity.toNat ∧
      tank.gauge.storage.toNat + tank.storageConsumed.toNat = tank.storageCapacity.toNat := by
  have h1 := UInt64.toNat_sub_of_le _ _ h.compute
  have h2 := UInt64.toNat_sub_of_le _ _ h.storage
  have h3 := UInt64.le_iff_toNat_le.mp h.compute
  have h4 := UInt64.le_iff_toNat_le.mp h.storage
  show (tank.computeCapacity - tank.computeConsumed).toNat + _ = _ ∧
    (tank.storageCapacity - tank.storageConsumed).toNat + _ = _
  omega

/-- **What `Exhaust` does.** Either the effort is within the level, and is added without wrapping
    around, or the tank is emptied. -/
theorem Sound.exhaust_cases (h : tank.Sound) (effort : FuelGauge) :
    (effort.le tank.gauge ∧ ∃ t, tank.exhaust effort.compute effort.storage = (true, t) ∧
      t.computeConsumed.toNat = tank.computeConsumed.toNat + effort.compute.toNat ∧
      t.storageConsumed.toNat = tank.storageConsumed.toNat + effort.storage.toNat ∧
      t.capacity = tank.capacity ∧ t.Sound) ∨
    (¬ effort.le tank.gauge ∧ ∃ t, tank.exhaust effort.compute effort.storage = (false, t) ∧
      t.computeConsumed = tank.computeCapacity ∧ t.storageConsumed = tank.storageCapacity ∧
      t.capacity = tank.capacity ∧ t.Sound) := by
  by_cases hlt : tank.level.1 < effort.compute ∨ tank.level.2 < effort.storage
  · refine .inr ⟨fun hle => ?_, _, if_pos hlt, rfl, rfl, rfl, UInt64.le_refl _, UInt64.le_refl _⟩
    exact hlt.elim (UInt64.not_lt.mpr hle.1) (UInt64.not_lt.mpr hle.2)
  have h1 : effort.compute ≤ tank.gauge.compute := UInt64.not_lt.mp fun h => hlt (.inl h)
  have h2 : effort.storage ≤ tank.gauge.storage := UInt64.not_lt.mp fun h => hlt (.inr h)
  have hn1 := UInt64.le_iff_toNat_le.mp h1
  have hn2 := UInt64.le_iff_toNat_le.mp h2
  obtain ⟨hg1, hg2⟩ := h.toNat_gauge
  have hc1 := tank.computeCapacity.toNat_lt
  have hc2 := tank.storageCapacity.toNat_lt
  have hadd1 : (tank.computeConsumed + effort.compute).toNat =
      tank.computeConsumed.toNat + effort.compute.toNat := by
    rw [UInt64.toNat_add, Nat.mod_eq_of_lt (by omega)]
  have hadd2 : (tank.storageConsumed + effort.storage).toNat =
      tank.storageConsumed.toNat + effort.storage.toNat := by
    rw [UInt64.toNat_add, Nat.mod_eq_of_lt (by omega)]
  refine .inl ⟨⟨h1, h2⟩, _, if_neg hlt, hadd1, hadd2, rfl, ?_, ?_⟩
  · show tank.computeConsumed + effort.compute ≤ tank.computeCapacity
    rw [UInt64.le_iff_toNat_le, hadd1]
    omega
  · show tank.storageConsumed + effort.storage ≤ tank.storageCapacity
    rw [UInt64.le_iff_toNat_le, hadd2]
    omega

/-- The tank after `Exhaust`: as large, sound, and with at least as much consumed. -/
theorem Sound.exhaust (h : tank.Sound) (effort : FuelGauge) :
    (tank.exhaust effort.compute effort.storage).2.Sound ∧
    (tank.exhaust effort.compute effort.storage).2.capacity = tank.capacity ∧
    tank.computeConsumed.toNat ≤
      (tank.exhaust effort.compute effort.storage).2.computeConsumed.toNat := by
  obtain ⟨-, t, heq, hc, -, hcap, hs⟩ | ⟨-, t, heq, hc, -, hcap, hs⟩ := h.exhaust_cases effort
  · rw [heq]
    refine ⟨hs, hcap, ?_⟩
    show _ ≤ t.computeConsumed.toNat
    omega
  rw [heq]
  refine ⟨hs, hcap, ?_⟩
  rw [hc]
  exact UInt64.le_iff_toNat_le.mp h.compute

end FuelTank

/-- The gauge was within the fuel that was left. -/
def EngineCall.Fits (c : EngineCall) : Prop := c.gauge.le c.left

/-- The compute effort of the calls. -/
def spent (cs : List EngineCall) : Nat := (cs.map (·.effort.compute.toNat)).sum

theorem spent_append (cs cs' : List EngineCall) : spent (cs ++ cs') = spent cs + spent cs' := by
  simp [spent]

/-- The gauges of the calls fit, and the tank has paid for them. -/
structure TankSettled (tank : FuelTank) (cs : List EngineCall) : Prop where
  fits : ∀ c ∈ cs, c.Fits
  paid : spent cs ≤ tank.computeConsumed.toNat

/-- The gauges of the calls fit, and the capacity covers them, as it is where a call has
    panicked. -/
structure TankCovers (capacity : UInt64) (cs : List EngineCall) : Prop where
  fits : ∀ c ∈ cs, c.Fits
  within : spent cs ≤ capacity.toNat

section

variable {tank : FuelTank} {cs : List EngineCall}

section

variable (h : TankSettled tank cs) (hs : tank.Sound)
include h hs

theorem TankSettled.covered : TankCovers tank.computeCapacity cs :=
  ⟨h.fits, h.paid.trans (UInt64.le_iff_toNat_le.mp hs.compute)⟩

theorem TankSettled.exhaust (effort : FuelGauge) :
    TankSettled (tank.exhaust effort.compute effort.storage).2 cs :=
  ⟨h.fits, h.paid.trans (hs.exhaust effort).2.2⟩

/-- **A call that fits and is honest is covered**, and the charge for it goes through and settles
    it. -/
theorem TankSettled.call {gauge effort : FuelGauge} (hfit : gauge.le tank.gauge)
    (heff : effort.le gauge) :
    TankCovers tank.computeCapacity (cs ++ [⟨gauge, tank.gauge, effort⟩]) ∧
    TankSettled (tank.exhaust effort.compute effort.storage).2
      (cs ++ [⟨gauge, tank.gauge, effort⟩]) := by
  have hfits : ∀ c ∈ cs ++ [⟨gauge, tank.gauge, effort⟩], c.Fits := by
    rw [forall_mem_append, forall_mem_singleton]
    exact ⟨h.fits, hfit⟩
  have hspent : spent (cs ++ [⟨gauge, tank.gauge, effort⟩]) = spent cs + effort.compute.toNat := by
    simp [spent]
  have hle : effort.le tank.gauge :=
    ⟨UInt64.le_trans heff.1 hfit.1, UInt64.le_trans heff.2 hfit.2⟩
  have hn := UInt64.le_iff_toNat_le.mp hle.1
  have hpaid := h.paid
  refine ⟨⟨hfits, ?_⟩, ⟨hfits, ?_⟩⟩
  · rw [hspent]
    have := hs.toNat_gauge.1
    omega
  obtain ⟨-, t, heq, hc, -⟩ | ⟨hnot, -⟩ := hs.exhaust_cases effort
  · rw [heq, hspent]
    show _ ≤ t.computeConsumed.toNat
    omega
  · exact absurd hle hnot

/-- **What is settled in a tank filled with the level is settled by the charge for it.** -/
theorem TankSettled.nested {fuel : FuelTank} {new : List EngineCall} (hf : TankSettled fuel new)
    (hsf : fuel.Sound) (hcap : fuel.capacity = tank.gauge) :
    TankSettled (tank.exhaust fuel.computeConsumed fuel.storageConsumed).2 (cs ++ new) := by
  have hle : fuel.consumed.le tank.gauge := hcap ▸ ⟨hsf.compute, hsf.storage⟩
  refine ⟨forall_mem_append.mpr ⟨h.fits, hf.fits⟩, ?_⟩
  rw [spent_append]
  obtain ⟨-, t, heq, hc, -⟩ | ⟨hnot, -⟩ := hs.exhaust_cases fuel.consumed
  · calc spent cs + spent new
      _ ≤ tank.computeConsumed.toNat + fuel.computeConsumed.toNat := Nat.add_le_add h.paid hf.paid
      _ = t.computeConsumed.toNat := hc.symm
      _ = _ := congrArg (·.2.computeConsumed.toNat) heq.symm
  · exact absurd hle hnot

end

end

/-! ## 5. Deployment keeps its books -/

/-- The reported effort is within the gauge. -/
def HonestAnswer (answer : FuelGauge → EngineAnswer) : Prop :=
  ∀ gauge, (answer gauge).effort.le gauge

/-- Runtime and compiler never spend more than the gauge they are given. -/
structure DeployAnswers.Honest (d : DeployAnswers) : Prop where
  compileManifest : HonestAnswer d.compileManifest
  call : HonestAnswer d.call

/-- A deployment under way: `s₀` is the state at its start, `fuel` its tank, and the calls since are
    settled in its tank. `H` collects the assumptions. -/
structure Nested (H : Prop) (s₀ : FuelState) (fuel : FuelTank) (s : FuelState) : Prop where
  tank : s.tank = s₀.tank
  levels : ∀ t ∈ s.levels, t.Sound
  sound : fuel.Sound
  capacity : fuel.capacity = s₀.tank.gauge
  calls : ∃ new, s.calls = s₀.calls ++ new ∧ (H → TankSettled fuel new)

/-- A deployment that has panicked. -/
structure NestBroken (H : Prop) (s₀ s : FuelState) : Prop where
  tank : s.tank = s₀.tank
  levels : ∀ t ∈ s.levels, t.Sound
  calls : ∃ new, s.calls = s₀.calls ++ new ∧ (H → TankCovers s₀.tank.gauge.compute new)

section

variable {H : Prop} {s₀ s : FuelState} {fuel : FuelTank} {d : DeployAnswers} {A : Type}
  {Q : A → FuelState → Prop}

theorem FuelTank.computeCapacity_of_capacity {g : FuelGauge} (h : fuel.capacity = g) :
    fuel.computeCapacity = g.compute :=
  congrArg FuelGauge.compute h

section

variable (h : Nested H s₀ fuel s)
include h

theorem Nested.broken : NestBroken H s₀ s := by
  obtain ⟨new, hnew, hset⟩ := h.calls
  refine ⟨h.tank, h.levels, new, hnew, fun hH => ?_⟩
  rw [← computeCapacity_of_capacity h.capacity]
  exact (hset hH).covered h.sound

theorem Nested.wp_check {g : Go Bool} {f : Bool → Fueled A}
    (hfalse : wp (f false) Q (NestBroken H s₀) s)
    (htrue : wp (f true) Q (NestBroken H s₀) s) : wp (check g >>= f) Q (NestBroken H s₀) s := by
  rw [wp_bind, check, wp_ofGo]
  exact ⟨fun b _ => Bool.rec hfalse htrue b, fun _ _ => h.broken⟩

theorem Nested.level : Nested H s₀ fuel { s with levels := s.levels ++ [fuel] } := by
  refine ⟨h.tank, ?_, h.sound, h.capacity, h.calls⟩
  rw [forall_mem_append, forall_mem_singleton]
  exact ⟨h.levels, h.sound⟩

/-- The states of its tank that a charge adds. -/
theorem Nested.charged (effort : FuelGauge) :
    ∀ t ∈ s.levels ++ [fuel, (fuel.exhaust effort.compute effort.storage).2], t.Sound := by
  rw [forall_mem_append, forall_mem_cons, forall_mem_singleton]
  exact ⟨h.levels, h.sound, (h.sound.exhaust effort).1⟩

theorem Nested.exhaust (effort : FuelGauge) :
    Nested H s₀ (fuel.exhaust effort.compute effort.storage).2
      { s with levels := s.levels ++ [fuel, (fuel.exhaust effort.compute effort.storage).2] } := by
  obtain ⟨new, hnew, hset⟩ := h.calls
  obtain ⟨hsound, hcap, -⟩ := h.sound.exhaust effort
  exact ⟨h.tank, h.charged effort, hsound, hcap.trans h.capacity, new, hnew,
    fun hH => (hset hH).exhaust h.sound effort⟩

/-- **A call with the level as its gauge, and the charge for it.** -/
theorem Nested.wp_call {answer : FuelGauge → EngineAnswer} (hhon : H → HonestAnswer answer)
    {f : FuelGauge × Bool → Bool × FuelTank → Fueled A}
    (hf : ∀ result charged s', Nested H s₀ charged.2 s' →
      wp (f result charged) Q (NestBroken H s₀) s') :
    wp (do
      let gauge ← levelOf fuel
      let result ← callEngine fuel gauge answer
      let charged ← exhaustOf fuel result.1
      f result charged) Q (NestBroken H s₀) s := by
  obtain ⟨new, hnew, hset⟩ := h.calls
  have hcalls : ∀ effort, s.calls ++ [⟨fuel.gauge, fuel.gauge, effort⟩] =
      s₀.calls ++ (new ++ [⟨fuel.gauge, fuel.gauge, effort⟩]) := by
    intro effort
    rw [hnew, append_assoc]
  have hle : fuel.gauge.le fuel.gauge := ⟨UInt64.le_refl _, UInt64.le_refl _⟩
  have hcall : ∀ hH : H, _ := fun hH => (hset hH).call h.sound hle (hhon hH fuel.gauge)
  simp only [wp_bind]
  show wp (callEngine fuel fuel.gauge answer) _ _ { s with levels := s.levels ++ [fuel] }
  unfold callEngine wp
  rcases (answer fuel.gauge).isError with p | isError
  · refine ⟨h.tank, h.level.levels, _, hcalls _, fun hH => ?_⟩
    rw [← computeCapacity_of_capacity h.capacity]
    exact (hcall hH).1
  obtain ⟨hsound, hcap, -⟩ := h.sound.exhaust (answer fuel.gauge).effort
  exact hf ((answer fuel.gauge).effort, isError) (fuel.exhaust _ _) _
    ⟨h.tank, h.level.charged _, hsound, hcap.trans h.capacity, _, hcalls _, fun hH => (hcall hH).2⟩

theorem compileManifest_nested (hd : H → d.Honest) :
    wp (compileManifest d fuel) (fun r => Nested H s₀ r.2) (NestBroken H s₀) s := by
  refine h.wp_check h ?_
  refine h.wp_check h ?_
  cases d.isPISA with
  | false => exact h
  | true => exact h.wp_call (fun hH => (hd hH).compileManifest) fun _ _ _ h' => h'

theorem deployLogicObject_nested :
    wp (deployLogicObject d fuel) (fun r => Nested H s₀ r.2) (NestBroken H s₀) s := by
  refine h.wp_check h ?_
  exact h.wp_check h (h.exhaust _)

theorem callDeployer_nested (hd : H → d.Honest) :
    wp (callDeployer d fuel) (fun r => Nested H s₀ r.1) (NestBroken H s₀) s := by
  refine h.wp_call (fun hH => (hd hH).call) fun _ charged _ h' => ?_
  obtain ⟨enough, _⟩ := charged
  cases enough <;> exact h'

theorem deployWith_nested (hd : H → d.Honest) :
    wp (deployWith d fuel) (fun r => Nested H s₀ r.1) (NestBroken H s₀) s := by
  refine wp_seq (compileManifest_nested h hd) fun r s1 h1 => ?_
  obtain ⟨ok, _⟩ := r
  cases ok with
  | false => exact h1
  | true =>
  refine wp_seq (deployLogicObject_nested h1) fun r s2 h2 => ?_
  obtain ⟨ok, _⟩ := r
  cases ok with
  | false => exact h2
  | true =>
  cases !d.hasDeployerCallsite && d.emptyCallsite with
  | true => exact h2
  | false =>
  cases d.knowsCallsite with
  | false => exact h2
  | true =>
  exact h2.wp_check h2 (callDeployer_nested h2 hd)

end

end

/-! ## 6. Runners keep the books -/

/-- Runtime and compiler never spend more than the gauge they are given. -/
structure OpAnswers.Honest (a : OpAnswers) : Prop where
  call : HonestAnswer a.call
  deploy : a.deploy.Honest

/-- The tank is as large as at the start, sound, and every tank on record is sound. -/
structure TankAccount (capacity : FuelGauge) (s : FuelState) : Prop where
  capacity : s.tank.capacity = capacity
  sound : s.tank.Sound
  levels : ∀ t ∈ s.levels, t.Sound

/-- The state between operations and inside of them. `H` collects the assumptions on the calls. -/
structure InBooks (H : Prop) (capacity : FuelGauge) (s : FuelState) : Prop where
  account : TankAccount capacity s
  settled : H → TankSettled s.tank s.calls

/-- The state where an operation has panicked. -/
structure Broken (H : Prop) (capacity : FuelGauge) (s : FuelState) : Prop where
  account : TankAccount capacity s
  covered : H → TankCovers capacity.compute s.calls

/-- `x` keeps the books. -/
abbrev Books (H : Prop) (capacity : FuelGauge) {A : Type} (x : Fueled A) : FuelState → Prop :=
  wp x (fun _ => InBooks H capacity) (Broken H capacity)

section

variable {H : Prop} {capacity : FuelGauge} {s : FuelState} {A : Type} {Q : A → FuelState → Prop}
  {a : OpAnswers} {d : DeployAnswers}

theorem InBooks.broken (h : InBooks H capacity s) : Broken H capacity s := by
  refine ⟨h.account, fun hH => ?_⟩
  rw [← computeCapacity_of_capacity h.account.capacity]
  exact (h.settled hH).covered h.account.sound

theorem InBooks.wp_check (h : InBooks H capacity s) {g : Go Bool} {f : Bool → Fueled A}
    (hfalse : wp (f false) Q (Broken H capacity) s)
    (htrue : wp (f true) Q (Broken H capacity) s) : wp (check g >>= f) Q (Broken H capacity) s := by
  rw [wp_bind, check, wp_ofGo]
  exact ⟨fun b _ => Bool.rec hfalse htrue b, fun _ _ => h.broken⟩

/-- The last check of a runner. -/
theorem InBooks.wp_status (h : InBooks H capacity s) (g : Go Bool) :
    Books H capacity (check g >>= fun ok => pure (opStatus ok)) s :=
  h.wp_check h h

theorem TankAccount.level (h : TankAccount capacity s) : ∀ t ∈ s.levels ++ [s.tank], t.Sound := by
  rw [forall_mem_append, forall_mem_singleton]
  exact ⟨h.levels, h.sound⟩

section

variable (h : InBooks H capacity s)
include h

/-- A charge; if it goes through, the effort was within the level. -/
theorem InBooks.wp_exhaust {effort : FuelGauge} {f : Bool → Fueled A}
    (hfalse : ∀ s', InBooks H capacity s' → wp (f false) Q (Broken H capacity) s')
    (htrue : ∀ s', effort.le s.tank.gauge → InBooks H capacity s' →
      wp (f true) Q (Broken H capacity) s') :
    wp (exhaust effort >>= f) Q (Broken H capacity) s := by
  obtain ⟨hsound, hcap, -⟩ := h.account.sound.exhaust effort
  have hend : InBooks H capacity ⟨(s.tank.exhaust _ _).2, s.levels ++ [s.tank], s.calls⟩ :=
    ⟨⟨hcap.trans h.account.capacity, hsound, h.account.level⟩,
      fun hH => (h.settled hH).exhaust h.account.sound effort⟩
  show wp (f (s.tank.exhaust _ _).1) Q _ _
  obtain ⟨hle, t, heq, -⟩ | ⟨-, t, heq, -⟩ := h.account.sound.exhaust_cases effort
  · rw [heq] at hend ⊢
    exact htrue _ hle hend
  · rw [heq] at hend ⊢
    exact hfalse _ hend

/-- **The call with the capacity as its gauge** keeps the books if the whole capacity is left. -/
theorem runtimeCall_books {answer : FuelGauge → EngineAnswer}
    (hfit : H → s.tank.capacity.le s.tank.gauge ∧ HonestAnswer answer) :
    Books H capacity (runtimeCall answer) s := by
  have hcall : ∀ hH : H, _ := fun hH =>
    (h.settled hH).call h.account.sound (hfit hH).1 ((hfit hH).2 s.tank.capacity)
  unfold runtimeCall
  simp only [wp_bind]
  show wp (callEngine s.tank s.tank.capacity answer) _ _ s
  unfold callEngine wp
  rcases (answer s.tank.capacity).isError with p | _
  · refine ⟨⟨h.account.capacity, h.account.sound, h.account.levels⟩, fun hH => ?_⟩
    rw [← computeCapacity_of_capacity h.account.capacity]
    exact (hcall hH).1
  obtain ⟨hsound, hcap, -⟩ := h.account.sound.exhaust (answer s.tank.capacity).effort
  have hend : InBooks H capacity ⟨(s.tank.exhaust _ _).2, s.levels ++ [s.tank],
      s.calls ++ [⟨s.tank.capacity, s.tank.gauge, (answer s.tank.capacity).effort⟩]⟩ :=
    ⟨⟨hcap.trans h.account.capacity, hsound, h.account.level⟩, fun hH => (hcall hH).2⟩
  show wp (if (s.tank.exhaust _ _).1 = true then _ else _) _ _ _
  rw [wp_ite]
  exact ⟨fun _ => hend, fun _ => hend⟩

/-- **A deployment and its charge**: what the deployment has consumed is within the level, so the
    charge goes through. -/
theorem chargedDeploy_books (hd : H → d.Honest) : Books H capacity (chargedDeploy d) s := by
  have hstart : Nested H s (new s.tank.gauge.compute s.tank.gauge.storage)
      { s with levels := s.levels ++ [s.tank] } :=
    ⟨rfl, h.account.level, sound_new _ _, rfl, [], by simp, fun _ => ⟨by simp, Nat.zero_le _⟩⟩
  unfold chargedDeploy deployLogic
  simp only [wp_bind]
  show wp (deployWith d _) _ _ { s with levels := s.levels ++ [s.tank] }
  refine wp_mono (deployWith_nested hstart hd) (fun r s1 h₁ => ?_) fun s1 h₁ => ?_
  · obtain ⟨fuel, result⟩ := r
    obtain ⟨new, hnew, hset⟩ := h₁.calls
    have hsound : s1.tank.Sound := h₁.tank ▸ h.account.sound
    have hcapacity : s1.tank.capacity = capacity := h₁.tank ▸ h.account.capacity
    obtain ⟨hsound', hcap, -⟩ := hsound.exhaust fuel.consumed
    have hend : InBooks H capacity ⟨(s1.tank.exhaust fuel.computeConsumed fuel.storageConsumed).2,
        s1.levels ++ [s1.tank], s1.calls⟩ := by
      refine ⟨⟨hcap.trans hcapacity, hsound', ?_⟩, fun hH => ?_⟩
      · rw [forall_mem_append, forall_mem_singleton]
        exact ⟨h₁.levels, hsound⟩
      have hbase : TankSettled s1.tank s.calls := h₁.tank ▸ h.settled hH
      show TankSettled _ s1.calls
      rw [hnew]
      exact hbase.nested hsound (hset hH) h₁.sound (h₁.tank ▸ h₁.capacity)
    show wp (if (s1.tank.exhaust fuel.computeConsumed fuel.storageConsumed).1 = true
      then _ else _) _ _ _
    rw [wp_ite]
    exact ⟨fun _ => hend, fun _ => hend⟩
  · obtain ⟨new, hnew, hcov⟩ := h₁.calls
    have hcapacity : s1.tank.capacity = capacity := h₁.tank ▸ h.account.capacity
    refine ⟨⟨hcapacity, h₁.tank ▸ h.account.sound, h₁.levels⟩, fun hH => ⟨?_, ?_⟩⟩
    · rw [hnew, forall_mem_append]
      exact ⟨(h.settled hH).fits, (hcov hH).fits⟩
    rw [hnew, spent_append, ← computeCapacity_of_capacity h.account.capacity]
    have h1 := (h.settled hH).paid
    have h2 := (hcov hH).within
    have h3 := h.account.sound.toNat_gauge.1
    omega

theorem runLogicInvoke_books (hH : H → s.tank.capacity.le s.tank.gauge ∧ a.Honest) :
    Books H capacity (runLogicInvoke a) s := by
  refine h.wp_check h ?_
  exact wp_seq (runtimeCall_books h fun hh => ⟨(hH hh).1, (hH hh).2.call⟩)
    fun _ _ h' => h'

/-- What two runners do after their charge of 100: checks, the call, and the rest. It never fits,
    since the charge has gone through. -/
theorem afterCharge_books (hno : ¬ H) :
    Books H capacity (do
      if ← check a.validate then
        if ← check a.addNewAccountsToSargaAccount then
          if ← runtimeCall a.call then return opStatus (← check a.update)
          else return .resultExceptionRaised
        else return .resultExceptionRaised
      else return .resultExceptionRaised) s := by
  refine h.wp_check h ?_
  refine h.wp_check h ?_
  refine wp_seq (runtimeCall_books h fun hh => absurd hh hno) fun b s' h' => ?_
  cases b with
  | false => exact h'
  | true => exact h'.wp_status a.update

end

theorem FuelGauge.not_le_of_lt {g : FuelGauge} (h : g.compute < 100) : ¬ FuelGauge.le ⟨100, 0⟩ g :=
  fun hle => absurd hle.1 (UInt64.not_le.mpr h)

section

variable (h : InBooks H capacity s)
include h

theorem runParticipantCreate_books (hH : H → s.tank.gauge.compute < 100) :
    Books H capacity (runParticipantCreate a) s := by
  refine h.wp_check h ?_
  refine h.wp_exhaust (fun _ h' => h') fun s' hle h' => ?_
  exact afterCharge_books h' fun hh => FuelGauge.not_le_of_lt (hH hh) hle

theorem runAccountInherit_books (hH : H → s.tank.gauge.compute < 100) :
    Books H capacity (runAccountInherit a) s := by
  refine h.wp_exhaust (fun _ h' => h') fun s' hle h' => ?_
  exact afterCharge_books h' fun hh => FuelGauge.not_le_of_lt (hH hh) hle

theorem runAccountConfigure_books : Books H capacity (runAccountConfigure a) s :=
  h.wp_exhaust (fun _ h' => h') fun _ _ h' => h'.wp_status a.update

theorem runAssetCreate_books (hH : H → a.Honest) : Books H capacity (runAssetCreate a) s := by
  refine h.wp_exhaust (fun _ h' => h') fun s' _ h' => ?_
  refine h'.wp_check h' ?_
  refine h'.wp_check h' ?_
  refine h'.wp_check h' ?_
  refine h'.wp_check h' ?_
  exact wp_seq (chargedDeploy_books h' fun hh => (hH hh).deploy) fun _ _ h => h

theorem runLogicDeploy_books (hH : H → a.Honest) : Books H capacity (runLogicDeploy a) s := by
  refine wp_seq (chargedDeploy_books h fun hh => (hH hh).deploy) fun b s' h' => ?_
  cases b with
  | false => exact h'
  | true => exact h'.wp_status _

end

/-- **Where the gauge of an operation fits**: a call by its gauge if nothing has been consumed yet,
    a creation or an inheritance only if its charge fails, so that there is no call. -/
def StepFits (type : IxOpType) (tank : FuelTank) : Prop :=
  (type = ixAssetAction ∨ type = ixLogicInvoke →
    tank.computeConsumed = 0 ∧ tank.storageConsumed = 0) ∧
  (type = ixParticipantCreate ∨ type = ixAccountInherit → tank.gauge.compute < 100)

/-- **Every operation keeps the books.** -/
theorem runOp_books (h : InBooks H capacity s) {type : IxOpType}
    (hH : H → a.Honest ∧ StepFits type s.tank) : Books H capacity (runOp a type) s := by
  have hcap : H → (type = ixAssetAction ∨ type = ixLogicInvoke) →
      s.tank.capacity.le s.tank.gauge ∧ a.Honest := by
    intro hh hty
    obtain ⟨h1, h2⟩ := (hH hh).2.1 hty
    refine ⟨⟨?_, ?_⟩, (hH hh).1⟩
    · show s.tank.computeCapacity ≤ s.tank.computeCapacity - s.tank.computeConsumed
      rw [h1, UInt64.sub_zero]
      exact UInt64.le_refl _
    · show s.tank.storageCapacity ≤ s.tank.storageCapacity - s.tank.storageConsumed
      rw [h2, UInt64.sub_zero]
      exact UInt64.le_refl _
  unfold runOp
  cases hrun : lookupOpRunner type with
  | none => exact h.broken
  | some run =>
  obtain ⟨hty, rfl⟩ | ⟨hty, rfl⟩ | ⟨hty, rfl⟩ | ⟨hty, rfl⟩ | ⟨hty, rfl⟩ | ⟨hty, rfl⟩ :=
    lookupOpRunner_cases hrun
  · exact runParticipantCreate_books h fun hh => (hH hh).2.2 (.inl hty)
  · exact runAccountConfigure_books h
  · exact runAccountInherit_books h fun hh => (hH hh).2.2 (.inr hty)
  · exact runAssetCreate_books h fun hh => (hH hh).1
  · exact runLogicDeploy_books h fun hh => (hH hh).1
  · exact runLogicInvoke_books h fun hh => hcap hh hty

end

end GoMoi
