/-
  File:      GoMoi/Compute/Executor.lean
  Subject:   The execution of interactions on a transition (`compute/executor.go`,
             `compute/manager.go`, `compute/fueltank.go`).

  * `ExecState` -- objects and assets in memory, the transition, the actors of the runtime and the
    tank of the interaction. An actor is bound to the object that the transition held when the actor
    was made, and stays bound to it;
  * `addActorsToRuntime`, `runInteraction`, `settle`, `executeInteraction`, `executeOne` (one round
    of the loop of `Execute`, which takes the checkpoint), `executeAll` (the loop).

  The runners of the operations are a parameter, called by the position and the operation; `none` is
  a type without one, whose call panics. A panic inside the operations is recovered and becomes an
  error; one outside of them is not.
-/
import GoMoi.Common.Interaction
import GoMoi.State.Transition

namespace GoMoi

open Proc

/-! ## 1. Fuel -/

/-- `type FuelTank struct`. -/
structure FuelTank where
  computeConsumed : UInt64
  computeCapacity : UInt64
  storageConsumed : UInt64
  storageCapacity : UInt64
  deriving DecidableEq, Repr

namespace FuelTank

/-- `NewFuelTank`. -/
def new (compute storage : UInt64) : FuelTank where
  computeConsumed := 0
  computeCapacity := compute
  storageConsumed := 0
  storageCapacity := storage

/-- `Level`. -/
def level (tank : FuelTank) : UInt64 × UInt64 :=
  (tank.computeCapacity - tank.computeConsumed, tank.storageCapacity - tank.storageConsumed)

/-- `Exhaust`. What cannot be taken empties the tank. -/
def exhaust (tank : FuelTank) (compute storage : UInt64) : Bool × FuelTank :=
  if tank.level.1 < compute ∨ tank.level.2 < storage then
    (false, { tank with computeConsumed := tank.computeCapacity
                        storageConsumed := tank.storageCapacity })
  else
    (true, { tank with computeConsumed := tank.computeConsumed + compute
                       storageConsumed := tank.storageConsumed + storage })

end FuelTank

/-! ## 2. The state of an execution -/

/-- What the executor works with. `newBytecodeArtifact` says whether an artifact can be read;
    `spawn` and `createActor` are the errors of the runtime. -/
structure ExecEnv where
  backend : Backend
  ids : AccountIDs
  kmoiTokenAssetID : AssetID
  storageLimit : UInt64
  newBytecodeArtifact : Bytes → Bool
  spawn : Identifier → Option Err
  createActor : Identifier → Option Err

/-- Memory, transition, runtime and tank. -/
structure ExecState where
  memory : Memory
  transition : Transition
  actors : GoMap Identifier (Ptr Object)
  tank : FuelTank

/-- A call of the executor. -/
abbrev Exec (A : Type) : Type := Proc ExecState A

namespace Exec

/-- A method called on the object behind a pointer. -/
def call {A : Type} (p : Ptr Object) (x : Method A) : Exec A := fun s =>
  ((Memory.call p x s.memory).1, { s with memory := (Memory.call p x s.memory).2 })

/-- A method called on `t.objects[id]`. -/
def onAccount {A : Type} (id : Identifier) (x : Method A) : Exec A := do
  match (← Proc.self).transition.objects.lookup id with
  | none => ofGo (.error .nilDeref)
  | some p => call p x

/-- `Snapshot`. -/
def snapshot : Exec Transition := fun s =>
  (.ok (s.transition.snapshot s.memory).1, { s with memory := (s.transition.snapshot s.memory).2 })

/-- `UpdateSnapshot`. -/
def updateSnapshot (snap : Transition) : Exec Unit :=
  Proc.assign fun s => { s with transition := s.transition.updateSnapshot snap }

/-- `SetReceipt`. -/
def setReceipt (ixHash : Hash) (receipt : Receipt) : Exec Unit :=
  Proc.assign fun s => { s with transition := { s.transition with
    receipts := s.transition.receipts.insert ixHash receipt } }

/-- An actor of the runtime bound to an object. -/
def bind (id : Identifier) (p : Ptr Object) : Exec Unit :=
  Proc.assign fun s => { s with actors := s.actors.insert id p }

end Exec

/-- The runner of an operation. -/
abbrev OpRunner : Type := Exec IxOpStatus

/-- The runners of an interaction, by position and operation. -/
abbrev Runners : Type := Nat → IxOp → Option OpRunner

/-! ## 3. The executor -/

section

variable (X : ExecEnv)

/-- `SpawnLogic`. An artifact that cannot be read is passed over without an error. -/
def spawnLogic (id : Identifier) (artifact : Bytes) (p : Ptr Object) : Exec (Option Err) := do
  if X.newBytecodeArtifact artifact then
    match X.spawn id with
    | some err => return some err
    | none => do
      Exec.bind id p
      return none
  else return none

/-- `CreateActor`. -/
def createActor (id : Identifier) (p : Ptr Object) : Exec (Option Err) := do
  match X.createActor id with
  | some err => return some err
  | none => do
    Exec.bind id p
    return none

/-- One round of the loop of `AddActorsToRuntime`. -/
def addActor (id : Identifier) (info : ParticipantInfo) : Exec (Option Err) := do
  let s ← Proc.self
  if id = X.ids.sargaAccountID ∨ id = X.ids.systemAccountID then return none
  else if info.isGenesis ∨ id ∈ s.actors then return none
  else match s.transition.objects.lookup id with
    | none => return some (.wrap (.sentinel .errObjectNotFound)
        (if id.kind = kindLogic ∨ id.kind = kindAsset then "failed to fetch logic object"
          else "failed to fetch logic storage object"))
    | some p =>
      if id.kind = kindLogic ∨ id.kind = kindAsset then do
        let object ← ofGo (Go.deref (s.memory.objects.read p))
        match Object.getLogicObject X.backend object id with
        | .error e => return some (.wrap e "failed to fetch logic object")
        | .ok logicObject =>
          return GoError.wrapErr (← spawnLogic X id logicObject.artifact p)
            "failed to create logic actor"
      else return GoError.wrapErr (← createActor X id p) "failed to create actor"

/-- `AddActorsToRuntime`, over the entries of the map in the order of one iteration. -/
def addActorsToRuntime : List (Σ _ : Identifier, ParticipantInfo) → Exec (Option Err)
  | [] => return none
  | e :: rest => do
    match ← addActor X e.1 e.2 with
    | some err => return some err
    | none => addActorsToRuntime rest

/-- The receipt after a result. A later result overwrites the status that an earlier one has set. -/
def recordResult (ix : Interaction) (tank : FuelTank) (type : IxOpType) (status : IxOpStatus)
    (receipt : Receipt) : Receipt :=
  let receipt := receipt.addIxOpResult ⟨type, status⟩
  match status with
  | .resultExceptionRaised =>
    (receipt.setStatus .receiptStateReverted).setFuelUsed tank.computeConsumed
  | .resultDefectRaised => (receipt.setStatus .receiptStateReverted).setFuelUsed ix.fuelLimit
  | .resultOk => (receipt.setStatus .receiptOk).setFuelUsed tank.computeConsumed

variable (runner : Runners) (ix : Interaction)

/-- The loop of `runInteraction` over the operations. -/
def runOps : Nat → List IxOp → Receipt → Exec Receipt
  | _, [], receipt => return receipt
  | idx, op :: rest, receipt => do
    match runner idx op with
    | none => ofGo (.error .nilDeref)
    | some run => do
      let status ← run
      runOps (idx + 1) rest (recordResult ix (← Proc.self).tank op.type status receipt)

/-- The check that the sender can pay: a negative cost or a balance that cannot be read is no. -/
def hasSufficientFuel : Exec Bool := do
  match ← Exec.onAccount ix.senderID
      (Object.hasSufficientFuel X.backend X.kmoiTokenAssetID ix.cost) with
  | .ok true => return true
  | _ => return false

/-- `runInteraction`, with the limit of the interaction. -/
def runInteraction : Exec (Except Err Receipt) := do
  Proc.assign fun s => { s with tank := FuelTank.new ix.fuelLimit X.storageLimit }
  if ← hasSufficientFuel X ix then
    match ← Proc.recovered (runOps runner ix 0 ix.ops (Receipt.new ix.hash)) with
    | none => return .error (.new "execution failed: executor panicked!")
    | some receipt => return .ok receipt
  else return .ok ((Receipt.new ix.hash).setStatus .receiptInsufficientFuel)

/-- What follows every run that gives a receipt: sequence id, receipt and fee. Errors of the first
    and the last are dropped. -/
def settle (receipt : Receipt) : Exec Unit := do
  if ix.senderID ≠ nilIdentifier then
    let _ ← Exec.onAccount ix.senderID (Object.incrementSequenceID X.backend ix.senderKeyID)
  Exec.setReceipt ix.hash receipt
  Exec.onAccount ix.senderID (Object.deductFuel X.backend X.kmoiTokenAssetID
    (ix.fuelPrice * receipt.fuelUsed.toNat))

/-- `executeInteraction`. -/
def executeInteraction (snapshot : Transition) : Exec (Option Err) := do
  match ← addActorsToRuntime X ix.ps.entries with
  | some err => return some err
  | none => do
    match ← runInteraction X runner ix with
    | .error e => do
      Exec.updateSnapshot snapshot
      return some e
    | .ok receipt => do
      if receipt.status ≠ .receiptOk then Exec.updateSnapshot snapshot
      settle X ix receipt
      return none

/-- One round of the loop of `Execute`. -/
def executeOne : Exec (Option Err) := do
  executeInteraction X runner ix (← Exec.snapshot)

/-- The loop of `Execute`: the first error ends it. -/
def executeAll : List (Runners × Interaction) → Exec (Option Err)
  | [] => return none
  | (runner, ix) :: rest => do
    match ← executeOne X runner ix with
    | some err => return some (.wrap err "execution failed")
    | none => executeAll rest

end

end GoMoi
