/-
  File:      GoMoi/Compute/Outcome.lean
  Subject:   What the operations of an interaction can do, as data, and what an execution keeps.

  * `OpEvent` -- a call on an object that an operation can reach (of the transition, auxiliary, or
    behind an actor), a logic spawned, fuel taken; `OpOutcome` -- the events of one operation and
    its result, `none` for a panic; `playing` -- the runners with given outcomes. Every run of every
    runner has such an outcome, so what holds for all outcomes holds for all runners;
  * `ExecState.Sound` -- no pointer leads nowhere;
  * `ExecState.Within` -- the checkpoint of a round is untouched while unshared events happen.
-/
import GoMoi.Compute.Executor
import GoMoi.State.Fuel

namespace GoMoi

open Proc Exec List

/-! ## 1. Outcomes -/

/-- How an operation gets to an object. -/
inductive Place where
  | object (target : Target)
  | auxiliary (id : Identifier)
  | actor (id : Identifier)

/-- The object in a place. -/
def ExecState.place? (s : ExecState) : Place → Option (Ptr Object)
  | .object target => s.transition.object? target
  | .auxiliary id => s.transition.auxiliaryObjects.lookup id
  | .actor id => s.actors.lookup id

/-- What an operation can do. -/
inductive OpEvent where
  | call (place : Place) (op : ObjectOp)
  | spawn (id : Identifier)
  | exhaust (compute storage : UInt64)

/-- Metadata that are passed on exist. -/
def ObjectOp.metaIn (op : ObjectOp) (h : Heap) : Bool :=
  op.metadata?.all fun p => decide (h.metas.Has p)

/-- An event happens. -/
def OpEvent.apply (X : ExecEnv) (s : ExecState) : OpEvent → ExecState
  | .call place op => match s.place? place with
    | none => s
    | some p =>
      if op.metaIn s.memory.heap then
        { s with memory := (Memory.call p (Object.run X.backend op) s.memory).2 }
      else s
  | .spawn id => match s.transition.objects.lookup id with
    | none => s
    | some p => { s with actors := s.actors.insert id p }
  | .exhaust compute storage => { s with tank := (s.tank.exhaust compute storage).2 }

/-- Events happen one after the other. -/
def play (X : ExecEnv) (es : List OpEvent) (s : ExecState) : ExecState :=
  es.foldl (OpEvent.apply X) s

/-- What an operation did, and how it ended; `none` is a panic. -/
structure OpOutcome where
  events : List OpEvent
  status : Option IxOpStatus

/-- The runner with a given outcome. -/
def OpOutcome.runner (X : ExecEnv) (o : OpOutcome) : OpRunner := fun s =>
  (match o.status with
    | some status => .ok status
    | none => .error (.explicit "operation panicked"), play X o.events s)

/-- The runners with given outcomes. -/
def playing (X : ExecEnv) (outcomes : List OpOutcome) : Runners := fun idx _ =>
  outcomes[idx]?.map (OpOutcome.runner X)

/-! ## 2. Sound states -/

/-- No pointer leads nowhere. -/
structure ExecState.Sound (s : ExecState) : Prop where
  closed : s.memory.Closed
  places : ∀ place p, s.place? place = some p → s.memory.objects.Has p

/-- What stays while an interaction runs: the cells of `heap`, the transition, and the objects of
    `all` that are not among those of `old`. -/
structure Checkpoint where
  heap : Heap
  old : Cells Object
  all : Cells Object
  transition : Transition
  old_all : ∀ p, old.Has p → all.Has p

/-- The checkpoint that a round of `Execute` starts with. -/
def ExecState.checkpoint (s : ExecState) (heap : Heap) : Checkpoint where
  heap := heap
  old := s.memory.objects
  all := (s.transition.snapshot s.memory).2.objects
  transition := s.transition
  old_all := fun _ => (snapshot_kept s.transition s.memory).has

/-- **While an interaction runs**, only the objects from before the checkpoint can be reached. -/
structure ExecState.Within (C : Checkpoint) (s : ExecState) : Prop where
  good : s.memory.Good C.heap
  places : ∀ place p, s.place? place = some p → C.old.Has p
  has : ∀ p, s.memory.objects.Has p ↔ C.all.Has p
  others : ∀ q, ¬ C.old.Has q → s.memory.objects.read q = C.all.read q
  transition : s.transition = C.transition

/-- The assets that an event works on are not shared with `h₀`. -/
def OpEvent.Unshared (h₀ : Heap) (s : ExecState) : OpEvent → Prop
  | .call place op => ∀ assetID p object, op.asset? = some assetID → s.place? place = some p →
      s.memory.objects.read p = some object → Object.Free h₀ ⟨object, s.memory.heap⟩ assetID
  | _ => True

namespace ExecState.Within

variable {X : ExecEnv} {C : Checkpoint} {s : ExecState} {p : Ptr Object} {id : Identifier}

section

variable (hs : s.Within C)
include hs

theorem call {A : Type} {x : Method A} (hp : C.old.Has p)
    (hx : ∀ object, s.memory.objects.read p = some object →
      (⟨object, s.memory.heap⟩ : Receiver).Good C.heap s.memory.heap →
        Object.KeepsGood C.heap s.memory.heap x ⟨object, s.memory.heap⟩) :
    ({ s with memory := (Memory.call p x s.memory).2 } : ExecState).Within C := by
  obtain ⟨hgood, hread⟩ := Memory.call_good hs.good hx
  refine ⟨hgood, hs.places, fun q => Memory.call_has.trans (hs.has q), fun q hq => ?_,
    hs.transition⟩
  exact (hread q fun h => hq (h ▸ hp)).trans (hs.others q hq)

theorem bind (hp : C.old.Has p) :
    ({ s with actors := s.actors.insert id p } : ExecState).Within C := by
  refine ⟨hs.good, fun place q hq => ?_, hs.has, hs.others, hs.transition⟩
  cases place with
  | object target => exact hs.places (.object target) q hq
  | auxiliary id => exact hs.places (.auxiliary id) q hq
  | actor id' =>
    rcases GoMap.of_lookup_insert hq with ⟨-, rfl⟩ | hold
    · exact hp
    · exact hs.places (.actor id') q hold

theorem tank (tank : FuelTank) : ({ s with tank := tank } : ExecState).Within C :=
  ⟨hs.good, fun place q hq => hs.places place q (by cases place <;> exact hq), hs.has, hs.others,
    hs.transition⟩

/-- **The step**: an unshared event. -/
theorem apply {e : OpEvent} (he : e.Unshared C.heap s) : (e.apply X s).Within C := by
  cases e with
  | call place op =>
    simp only [OpEvent.apply]
    rcases hp : s.place? place with _ | p
    · exact hs
    simp only
    split
    case isTrue hmeta =>
      refine hs.call (hs.places place p hp) fun object ho hgood => Object.run_good hgood
        (fun assetID ha => he assetID p object ha hp ho) fun x hx => ?_
      rwa [ObjectOp.metaIn, hx, Option.all_some, decide_eq_true_eq] at hmeta
    case isFalse => exact hs
  | spawn id =>
    simp only [OpEvent.apply]
    cases hp : s.transition.objects.lookup id with
    | none => exact hs
    | some p => exact hs.bind (hs.places (.object (.account id)) p hp)
  | exhaust compute storage => exact hs.tank _

theorem spawnLogic {artifact : Bytes} (hp : C.old.Has p) :
    leaves (spawnLogic X id artifact p) (Within C) s := by
  refine (wp_ite _ _).mpr ⟨fun _ => ?_, fun _ => hs⟩
  cases X.spawn id with
  | some err => exact hs
  | none => exact hs.bind hp

theorem createActor (hp : C.old.Has p) : leaves (createActor X id p) (Within C) s := by
  unfold GoMoi.createActor
  cases X.createActor id with
  | some err => exact hs
  | none => exact hs.bind hp

theorem addActor {info : ParticipantInfo} : leaves (addActor X id info) (Within C) s := by
  unfold GoMoi.addActor
  simp only [wp_bind, wp_self, wp_ite]
  refine ⟨fun _ => hs, fun _ => ⟨fun _ => hs, fun _ => ?_⟩⟩
  rcases hp : s.transition.objects.lookup id with _ | p
  · exact hs
  have hold : C.old.Has p := hs.places (.object (.account id)) p hp
  simp only [wp_ite, wp_bind, wp_ofGo]
  refine ⟨fun _ => ⟨fun object _ => ?_, fun _ _ => hs⟩, fun _ => hs.createActor hold⟩
  rcases Object.getLogicObject X.backend object id with e | _
  · exact hs
  simp only [wp_bind]
  exact hs.spawnLogic hold

/-- The loop over the participants. -/
theorem addActorsToRuntime {es : List (Σ _ : Identifier, ParticipantInfo)} :
    leaves (addActorsToRuntime X es) (Within C) s := by
  induction es generalizing s with
  | nil => exact hs
  | cons e rest ih =>
    refine wp_seq hs.addActor fun r s' hs' => ?_
    cases r with
    | some err => exact hs'
    | none => exact ih hs'

end

end ExecState.Within

/-! ## 3. The stages of a round -/

/-- What a method called on an account works on. -/
def ExecState.receiver? (s : ExecState) (id : Identifier) : Option Receiver :=
  (s.transition.objects.lookup id).bind fun p =>
    (s.memory.objects.read p).map fun object => ⟨object, s.memory.heap⟩

section

variable {X : ExecEnv} {C : Checkpoint} {ix : Interaction} {s : ExecState}

namespace Exec

variable {A : Type} {id : Identifier} {x : Method A} {Q : A → ExecState → Prop}
  {R : ExecState → Prop} {p : Ptr Object}

theorem wp_call {object : Object} (ho : s.memory.objects.read p = some object) :
    wp (call p x) Q R s ↔
      wp x
        (fun a r => Q a { s with memory := ⟨s.memory.objects.modify p fun _ => r.object, r.heap⟩ })
        (fun r => R { s with memory := ⟨s.memory.objects.modify p fun _ => r.object, r.heap⟩ })
        ⟨object, s.memory.heap⟩ := by
  rw [← Memory.wp_call (Q := fun a m => Q a { s with memory := m })
    (R := fun m => R { s with memory := m }) ho]
  unfold wp call
  cases Memory.call p x s.memory with
  | mk r m => cases r <;> rfl

theorem wp_onAccount (hp : s.transition.objects.lookup id = some p) :
    wp (onAccount id x) Q R s ↔ wp (call p x) Q R s := by
  unfold onAccount
  rw [wp_bind, wp_self, hp]

theorem wp_onAccount_none (hp : s.transition.objects.lookup id = none) :
    wp (onAccount id x) Q R s ↔ R s := by
  unfold onAccount
  rw [wp_bind, wp_self, hp]
  exact Iff.rfl

/-- A call on an account touches the memory alone. -/
theorem onAccount_fixes {G : Type} {g : ExecState → G} (hg : ∀ s m, g { s with memory := m } = g s)
    (id : Identifier) (x : Method A) : Fixes g (onAccount id x) := by
  refine .bind .self fun s => ?_
  cases s.transition.objects.lookup id with
  | none => exact .ofGo _
  | some p => exact fun s => hg s _

theorem onAccount_transition (id : Identifier) (x : Method A) :
    Fixes (·.transition) (onAccount id x) :=
  onAccount_fixes (fun _ _ => rfl) id x

/-- A call that has returned. -/
theorem onAccount_eq_ok {a : A} {s' : ExecState} (h : onAccount id x s = (.ok a, s')) :
    ∃ r r', s.receiver? id = some r ∧ x r = (.ok a, r') ∧ s'.receiver? id = some r' := by
  have htransition := (onAccount_transition id x).of_eq h
  obtain ⟨_, _, hself, h⟩ := bind_eq_ok h
  cases hself
  unfold ExecState.receiver?
  rw [htransition]
  rcases hp : s.transition.objects.lookup id with _ | p
  · rw [hp] at h
    cases h
  simp only [hp, call, Memory.call] at h
  rcases ho : s.memory.objects.read p with _ | object
  · simp only [ho] at h
    cases h
  simp only [ho] at h
  obtain ⟨hr, rfl⟩ := Prod.mk.inj h
  refine ⟨⟨object, s.memory.heap⟩, (x ⟨object, s.memory.heap⟩).2, ?_, Prod.ext hr rfl, ?_⟩
  · rw [Option.bind_some, ho]
    rfl
  · rw [Option.bind_some, Cells.read_modify, if_pos rfl, ho]
    rfl

end Exec

/-- Binding actors does not touch the memory. -/
theorem addActorsToRuntime_memory (es : List (Σ _ : Identifier, ParticipantInfo)) :
    Fixes (·.memory) (addActorsToRuntime X es) := by
  have hbind : ∀ id p, Fixes (·.memory) (Exec.bind id p) := fun _ _ => .assign fun _ => rfl
  have hspawn : ∀ id artifact p, Fixes (·.memory) (spawnLogic X id artifact p) := by
    intro id artifact p
    refine .ite ?_ (.pure _)
    cases X.spawn id with
    | some err => exact .pure _
    | none => exact .bind (hbind id p) .pure
  have hcreate : ∀ id p, Fixes (·.memory) (createActor X id p) := by
    intro id p
    unfold createActor
    cases X.createActor id with
    | some err => exact .pure _
    | none => exact .bind (hbind id p) .pure
  have hactor : ∀ id info, Fixes (·.memory) (addActor X id info) := by
    intro id info
    refine .bind .self fun s => .ite (.pure _) (.ite (.pure _) ?_)
    rcases s.transition.objects.lookup id with _ | p
    · exact .pure _
    refine .ite (.bind (.ofGo _) fun object => ?_) (.bind (hcreate id p) .pure)
    cases Object.getLogicObject X.backend object id with
    | error e => exact .pure _
    | ok logicObject => exact .bind (hspawn id _ p) .pure
  induction es with
  | nil => exact .pure _
  | cons e rest ih =>
    refine .bind (hactor e.1 e.2) fun r => ?_
    cases r with
    | some err => exact .pure _
    | none => exact ih

/-- A method called on an account of the transition. -/
theorem ExecState.Within.onAccount {A : Type} {id : Identifier} {x : Method A} (hs : s.Within C)
    (hx : ∀ p object, s.transition.objects.lookup id = some p →
      s.memory.objects.read p = some object →
      (⟨object, s.memory.heap⟩ : Receiver).Good C.heap s.memory.heap →
        Object.KeepsGood C.heap s.memory.heap x ⟨object, s.memory.heap⟩) :
    leaves (onAccount id x) (Within C) s := by
  rcases hp : s.transition.objects.lookup id with _ | p
  · exact (wp_onAccount_none hp).mpr hs
  exact (wp_onAccount hp).mpr (wp_state.mpr
    (hs.call (hs.places (.object (.account id)) p hp) fun object => hx p object hp))

/-- The committed fuel balance of the sender covers a cost that is not negative. -/
def FuelCovered (X : ExecEnv) (ix : Interaction) (t : Transition) (m : Memory) : Prop :=
  0 ≤ ix.cost ∧ ∃ p object n, t.objects.lookup ix.senderID = some p ∧
    m.objects.read p = some object ∧
    Object.committedBalance X.backend object X.kmoiTokenAssetID defaultTokenID = some n ∧
    ix.cost ≤ n

/-- Taking a snapshot does not change it. -/
theorem fuelCovered_snapshot {t : Transition} {m : Memory} (hin : t.In m) :
    FuelCovered X ix t (t.snapshot m).2 ↔ FuelCovered X ix t m := by
  have hread : ∀ p, t.objects.lookup ix.senderID = some p →
      (t.snapshot m).2.objects.read p = m.objects.read p := fun p hp =>
    (snapshot_kept t m).read_eq (hin (.account ix.senderID) p hp)
  constructor
  · rintro ⟨hcost, p, object, n, hp, ho, hrest⟩
    exact ⟨hcost, p, object, n, hp, (hread p hp).symm.trans ho, hrest⟩
  · rintro ⟨hcost, p, object, n, hp, ho, hrest⟩
    exact ⟨hcost, p, object, n, hp, (hread p hp).trans ho, hrest⟩

/-- **The fuel check.** -/
theorem hasSufficientFuel_within (hs : s.Within C) :
    wp (hasSufficientFuel X ix)
      (fun b s' => s'.Within C ∧ (b = true ↔ FuelCovered X ix s.transition s.memory))
      (ExecState.Within C) s := by
  have hwithin : leaves (onAccount ix.senderID
      (Object.hasSufficientFuel X.backend X.kmoiTokenAssetID ix.cost)) (ExecState.Within C) s :=
    hs.onAccount fun p object _ _ hgood => wp_total Object.hasSufficientFuel_spec
      fun _ _ h => h.1.good hgood
  have hvalue : wp (onAccount ix.senderID
      (Object.hasSufficientFuel X.backend X.kmoiTokenAssetID ix.cost))
      (fun r _ => r = .ok true ↔ FuelCovered X ix s.transition s.memory) (fun _ => True) s := by
    rcases hp : s.transition.objects.lookup ix.senderID with _ | p
    · rw [wp_onAccount_none hp]
      trivial
    obtain ⟨object, ho⟩ := Cells.has_iff_read.mp
      ((hs.has p).mpr (C.old_all p (hs.places (.object (.account ix.senderID)) p hp)))
    rw [wp_onAccount hp, wp_call ho]
    refine wp_weak Object.hasSufficientFuel_spec fun r _ hr => hr.2.trans ?_
    constructor
    · rintro ⟨hcost, n, hn, hle⟩
      exact ⟨hcost, p, object, n, hp, ho, hn, hle⟩
    rintro ⟨hcost, _, _, n, hp', ho', hn, hle⟩
    cases hp.symm.trans hp'
    cases ho.symm.trans ho'
    exact ⟨hcost, n, hn, hle⟩
  unfold hasSufficientFuel
  rw [wp_bind]
  refine wp_mono (wp_and hwithin hvalue) (fun r s' hr => ?_) fun _ h => h.1
  obtain ⟨hs', hr⟩ := hr
  rw [← hr]
  cases r with
  | error e => exact ⟨hs', by simp⟩
  | ok b => cases b <;> exact ⟨hs', by simp⟩

end

/-! ## 4. The operations -/

/-- The status of a receipt after a result. -/
def IxOpStatus.receiptStatus : IxOpStatus → ReceiptStatus
  | .resultOk => .receiptOk
  | .resultExceptionRaised => .receiptStateReverted
  | .resultDefectRaised => .receiptStateReverted

section

variable (ix : Interaction) (tank : FuelTank) (type : IxOpType) (status : IxOpStatus) (r : Receipt)

@[simp] theorem recordResult_status :
    (recordResult ix tank type status r).status = status.receiptStatus := by
  cases status <;> rfl

@[simp] theorem recordResult_ixOps :
    (recordResult ix tank type status r).ixOps = r.ixOps ++ [⟨type, status⟩] := by
  cases status <;> rfl

end

/-- What a loop over operations with given outcomes did. -/
structure OpsRan (X : ExecEnv) (outcomes : List OpOutcome) (statuses : List IxOpStatus)
    (r r' : Receipt) (s s' : ExecState) : Prop where
  ended : outcomes.map (·.status) = statuses.map some
  state : s' = play X (outcomes.flatMap (·.events)) s
  results : r'.ixOps.map (·.status) = r.ixOps.map (·.status) ++ statuses
  status : r'.status = (statuses.getLast?.map IxOpStatus.receiptStatus).getD r.status

variable {X : ExecEnv} {s s' : ExecState} {outcomes : List OpOutcome} {ix : Interaction}
  {receipt : Receipt}

theorem OpOutcome.runner_eq_ok {o : OpOutcome} {status : IxOpStatus}
    (h : o.runner X s = (.ok status, s')) : o.status = some status ∧ s' = play X o.events s := by
  unfold OpOutcome.runner at h
  rcases ho : o.status with _ | _
  · rw [ho] at h
    cases h
  rw [ho] at h
  cases h
  exact ⟨rfl, rfl⟩

/-- A first operation, and those after it. -/
theorem OpsRan.cons {X : ExecEnv} {ix : Interaction} {tank : FuelTank} {type : IxOpType}
    {o : OpOutcome} {outcomes : List OpOutcome} {status : IxOpStatus} {statuses : List IxOpStatus}
    {r r' : Receipt} {s s' : ExecState} (ho : o.status = some status)
    (h : OpsRan X outcomes statuses (recordResult ix tank type status r) r'
      (play X o.events s) s') :
    OpsRan X (o :: outcomes) (status :: statuses) r r' s s' where
  ended := by rw [map_cons, map_cons, ho, h.ended]
  state := by
    rw [h.state, flatMap_cons]
    exact foldl_append.symm
  results := by
    rw [h.results, recordResult_ixOps, map_append, append_assoc]
    rfl
  status := by
    rw [h.status, recordResult_status]
    cases statuses with
    | nil => rfl
    | cons _ _ =>
      rfl

variable {idx : Nat} {ops : List IxOp}

/-- A round of the loop over the operations. -/
theorem runOps_cons {op : IxOp} {r r' : Receipt}
    (h : runOps (playing X outcomes) ix idx (op :: ops) r s = (.ok r', s')) :
    ∃ o status, outcomes[idx]? = some o ∧ o.status = some status ∧
      runOps (playing X outcomes) ix (idx + 1) ops
        (recordResult ix (play X o.events s).tank op.type status r) (play X o.events s) =
        (.ok r', s') := by
  unfold runOps at h
  rcases ho : outcomes[idx]? with _ | o
  · simp only [playing, ho, Option.map_none] at h
    cases h
  simp only [playing, ho, Option.map_some] at h
  obtain ⟨status, _, hrun, hrest⟩ := bind_eq_ok h
  obtain ⟨hstatus, rfl⟩ := OpOutcome.runner_eq_ok hrun
  exact ⟨o, status, rfl, hstatus, hrest⟩

/-- **The loop over the operations**: it returns only if none of them has panicked. -/
theorem runOps_playing {r r' : Receipt}
    (h : runOps (playing X outcomes) ix idx ops r s = (.ok r', s')) :
    ((outcomes.drop idx).take ops.length).length = ops.length ∧
    ∃ statuses, OpsRan X ((outcomes.drop idx).take ops.length) statuses r r' s s' := by
  induction ops generalizing idx r s with
  | nil =>
    obtain ⟨rfl, rfl⟩ := pure_eq_ok h
    exact ⟨rfl, [], rfl, rfl, by simp, rfl⟩
  | cons op ops ih =>
    obtain ⟨o, _, ho, hstatus, hrest⟩ := runOps_cons h
    obtain ⟨hlt, rfl⟩ := List.getElem?_eq_some_iff.mp ho
    obtain ⟨hlen, _, hran⟩ := ih hrest
    rw [drop_eq_getElem_cons hlt, length_cons, take_succ_cons, length_cons, hlen]
    exact ⟨rfl, _, .cons hstatus hran⟩

/-! ## 5. A round that returns -/

section

variable {X : ExecEnv} {runner : Runners} {ix : Interaction} {s s' : ExecState}

/-- An interaction that gives a receipt: the check has failed, or the operations have been run. -/
theorem runInteraction_cases (h : runInteraction X runner ix s = (.ok (.ok receipt), s')) :
    (hasSufficientFuel X ix { s with tank := FuelTank.new ix.fuelLimit X.storageLimit } =
        (.ok false, s') ∧
      receipt = (Receipt.new ix.hash).setStatus .receiptInsufficientFuel) ∨
    ∃ s1, hasSufficientFuel X ix { s with tank := FuelTank.new ix.fuelLimit X.storageLimit } =
        (.ok true, s1) ∧
      runOps runner ix 0 ix.ops (Receipt.new ix.hash) s1 = (.ok receipt, s') := by
  obtain ⟨_, _, hassign, h⟩ := bind_eq_ok h
  cases hassign
  obtain ⟨b, s1, hfuel, h⟩ := bind_eq_ok h
  rcases b with _ | _
  · obtain ⟨hreceipt, rfl⟩ := pure_eq_ok h
    exact .inl ⟨hfuel, (Except.ok.inj hreceipt).symm⟩
  obtain ⟨r, _, hrec, h⟩ := bind_eq_ok h
  rcases r with _ | r
  · cases h
  obtain ⟨hreceipt, rfl⟩ := pure_eq_ok h
  cases hreceipt
  exact .inr ⟨s1, hfuel, Proc.recovered_eq hrec⟩

/-- The state that is settled: as left by the operations, or with the checkpoint installed. -/
def ExecState.closeRun (s : ExecState) (snap : Transition) (receipt : Receipt) : ExecState :=
  if receipt.status = .receiptOk then s
  else { s with transition := s.transition.updateSnapshot snap }

/-- **A round that returns without an error**, taken apart. -/
theorem executeOne_cases (h : executeOne X runner ix s = (.ok none, s')) :
    ∃ s1 s2 receipt,
      addActorsToRuntime X ix.ps.entries
        { s with memory := (s.transition.snapshot s.memory).2 } = (.ok none, s1) ∧
      runInteraction X runner ix s1 = (.ok (.ok receipt), s2) ∧
      settle X ix receipt (s2.closeRun (s.transition.snapshot s.memory).1 receipt) =
        (.ok (), s') := by
  obtain ⟨_, _, hsnap, h⟩ := bind_eq_ok h
  cases hsnap
  obtain ⟨r, s1, hactors, h⟩ := bind_eq_ok h
  rcases r with _ | err
  swap
  · cases (pure_eq_ok h).1
  obtain ⟨r, s2, hrun, h⟩ := bind_eq_ok h
  rcases r with e | receipt
  · cases (pure_eq_ok h).1
  refine ⟨s1, s2, receipt, hactors, hrun, ?_⟩
  unfold ExecState.closeRun
  simp only at h
  by_cases hok : receipt.status = .receiptOk
  · rw [if_neg (not_not.mpr hok)] at h
    obtain ⟨_, s3, hsettle, h⟩ := bind_eq_ok h
    obtain ⟨-, rfl⟩ := pure_eq_ok h
    rw [if_pos hok, hsettle]
  rw [if_pos hok] at h
  obtain ⟨_, _, hinstall, h⟩ := bind_eq_ok h
  cases hinstall
  obtain ⟨_, _, hsettle, h⟩ := bind_eq_ok h
  obtain ⟨-, rfl⟩ := pure_eq_ok h
  rw [if_neg hok, hsettle]

end

/-- A receipt put into the transition. -/
def ExecState.withReceipt (s : ExecState) (ixHash : Hash) (receipt : Receipt) : ExecState :=
  { s with transition := { s.transition with
      receipts := s.transition.receipts.insert ixHash receipt } }

/-- `settle` that returns, taken apart. -/
theorem settle_cases (h : settle X ix receipt s = (.ok (), s')) :
    ∃ s1, ((ix.senderID = nilIdentifier ∧ s1 = s) ∨
        ∃ e, onAccount ix.senderID (Object.incrementSequenceID X.backend ix.senderKeyID) s =
          (.ok e, s1)) ∧
      onAccount ix.senderID (Object.deductFuel X.backend X.kmoiTokenAssetID
        (ix.fuelPrice * receipt.fuelUsed.toNat)) (s1.withReceipt ix.hash receipt) =
          (.ok (), s') := by
  unfold settle at h
  by_cases hnil : ix.senderID = nilIdentifier
  · rw [if_neg (not_not.mpr hnil)] at h
    obtain ⟨_, s2, hset, h⟩ := bind_eq_ok h
    cases hset
    exact ⟨s, .inl ⟨hnil, rfl⟩, h⟩
  rw [if_pos hnil] at h
  obtain ⟨e, s1, hinc, h⟩ := bind_eq_ok h
  obtain ⟨_, _, hset, h⟩ := bind_eq_ok h
  cases hset
  exact ⟨s1, .inr ⟨e, hinc⟩, h⟩

/-- The transition after it: as before, with the receipt. -/
theorem settle_transition (h : settle X ix receipt s = (.ok (), s')) :
    s'.transition = { s.transition with
      receipts := s.transition.receipts.insert ix.hash receipt } := by
  obtain ⟨s1, hinc, hded⟩ := settle_cases h
  have h1 : s1.transition = s.transition := by
    rcases hinc with ⟨-, rfl⟩ | ⟨e, hinc⟩
    · rfl
    · exact (onAccount_transition ix.senderID _).of_eq hinc
  exact ((onAccount_transition ix.senderID _).of_eq hded).trans (by rw [ExecState.withReceipt, h1])

theorem settle_actors : Fixes (·.actors) (settle X ix receipt) := by
  have hcall : ∀ {A : Type} (id : Identifier) (x : Method A),
      Fixes (·.actors) (onAccount id x) := onAccount_fixes fun _ _ => rfl
  have hrest : Fixes (·.actors) (do
      setReceipt ix.hash receipt
      onAccount ix.senderID (Object.deductFuel X.backend X.kmoiTokenAssetID
        (ix.fuelPrice * receipt.fuelUsed.toNat))) :=
    .bind (.assign fun _ => rfl) fun _ => hcall _ _
  exact .ite (.bind (hcall _ _) fun _ => hrest) hrest

/-! ## 6. The checkpoint during a round -/

/-- An event as a step. -/
def OpEvent.Step (X : ExecEnv) (s : ExecState) (e : OpEvent) (s' : ExecState) : Prop :=
  s' = e.apply X s

section

variable {X : ExecEnv} {C : Checkpoint} {ix : Interaction} {s s' : ExecState} {es : List OpEvent}

theorem run_play {ok : ExecState → OpEvent → Prop} (h : Run (Guarded ok (OpEvent.Step X)) s es s') :
    s' = play X es s := by
  apply h.invariant
  · rfl
  intro es s1 e s2 hs1 hstep
  rw [hstep.2, hs1, play, play, foldl_append]
  rfl

/-- **The run** of unshared events. -/
theorem ExecState.Within.run (hs : s.Within C)
    (h : Run (Guarded (fun s e => e.Unshared C.heap s) (OpEvent.Step X)) s es s') :
      s'.Within C := by
  apply h.invariant
  · exact hs
  intro _ s1 e s2 hs1 hstep
  rw [hstep.2]
  exact hs1.apply hstep.1

/-- A round starts within its checkpoint. -/
theorem ExecState.Sound.within (hs : s.Sound) :
    ({ s with memory := (s.transition.snapshot s.memory).2 } : ExecState).Within
      (s.checkpoint s.memory.heap) where
  good := snapshot_good hs.closed
  places := fun place p hp => hs.places place p (by cases place <;> exact hp)
  has := fun _ => Iff.rfl
  others := fun _ _ => rfl
  transition := rfl

theorem ExecState.Sound.in (hs : s.Sound) : s.transition.In s.memory :=
  fun target p hp => hs.places (.object target) p hp

/-- The actors are bound and the fuel is checked within the checkpoint. -/
theorem checked_within {s1 : ExecState} {b : Bool} {tank : FuelTank} (hs : s.Sound)
    (hactors : addActorsToRuntime X ix.ps.entries
      { s with memory := (s.transition.snapshot s.memory).2 } = (.ok none, s1))
    (hfuel : hasSufficientFuel X ix { s1 with tank := tank } = (.ok b, s')) :
    s'.Within (s.checkpoint s.memory.heap) ∧
      (b = true ↔ FuelCovered X ix s.transition s.memory) := by
  have hmem : s1.memory = (s.transition.snapshot s.memory).2 :=
    (addActorsToRuntime_memory ix.ps.entries).of_eq hactors
  have hs1 := wp_of_eq hactors hs.within.addActorsToRuntime
  have hcheck := wp_of_eq hfuel (hasSufficientFuel_within (hs1.tank tank))
  refine ⟨hcheck.1, hcheck.2.trans ?_⟩
  rw [hs1.transition, hmem]
  exact fuelCovered_snapshot hs.in

/-- **Within the checkpoint, installing it brings everything back.** -/
theorem ExecState.Within.observe (hs : s.Sound) (hs' : s'.Within (s.checkpoint s.memory.heap))
    (hreload : s.transition.Reloads X.backend s.memory) (target : Target) :
    (s'.transition.updateSnapshot (s.transition.snapshot s.memory).1).observe X.backend
      s'.memory target
      = s.transition.observe X.backend s.memory target := by
  exact Memory.Since.observe ⟨hs'.good, hs'.others⟩ hs.closed hs.in hreload target

end

end GoMoi
