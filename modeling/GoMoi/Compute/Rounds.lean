/-
  File:      GoMoi/Compute/Rounds.lean
  Subject:   The rounds of `Execute`, one interaction after the other (`compute/executor.go`).

  * `IxRound` -- an interaction and the outcomes of its operations; `roundStep` -- a round that
    returns without an error, as a step from the state before it to the state after it;
  * `beforeSettle` -- the state and the receipt once the operations are done and, if they have
    failed, the checkpoint is installed: all that is left is the sequence number, the receipt and
    the fee;
  * `ExecState.Sound.round`, `sound_run` -- whatever the operations do, no pointer leads nowhere.
-/
import GoMoi.Compute.Outcome

namespace GoMoi

open Proc

/-! ## 1. Rounds -/

/-- An interaction and what its operations do. -/
structure IxRound where
  ix : Interaction
  outcomes : List OpOutcome

/-- A round that returns without an error. -/
def roundStep (X : ExecEnv) (s : ExecState) (e : IxRound) (s' : ExecState) : Prop :=
  executeOne X (playing X e.outcomes) e.ix s = (.ok none, s')

/-- The state and the receipt that are settled. -/
def beforeSettle (X : ExecEnv) (e : IxRound) (s : ExecState) : Option (ExecState × Receipt) :=
  match addActorsToRuntime X e.ix.ps.entries
      { s with memory := (s.transition.snapshot s.memory).2 } with
  | (.ok none, s₀) => match runInteraction X (playing X e.outcomes) e.ix s₀ with
    | (.ok (.ok r), s₁) => some (s₁.closeRun (s.transition.snapshot s.memory).1 r, r)
    | _ => none
  | _ => none

theorem beforeSettle_eq_some {X : ExecEnv} {e : IxRound} {s s2 : ExecState} {r : Receipt}
    (h : beforeSettle X e s = some (s2, r)) :
    ∃ s0 s1, addActorsToRuntime X e.ix.ps.entries
        { s with memory := (s.transition.snapshot s.memory).2 } = (.ok none, s0) ∧
      runInteraction X (playing X e.outcomes) e.ix s0 = (.ok (.ok r), s1) ∧
      s2 = s1.closeRun (s.transition.snapshot s.memory).1 r := by
  unfold beforeSettle at h
  split at h
  case h_1 s0 hactors =>
    split at h
    case h_1 r' s1 hrun =>
      cases h
      exact ⟨s0, s1, hactors, hrun, rfl⟩
    case h_2 => cases h
  case h_2 => cases h

/-! ## 2. Sound states stay sound -/

variable {m : Memory} {t : Transition}

theorem Memory.Good.closedMemory {h0 : Heap} (hm : m.Good h0) : m.Closed :=
  ⟨⟨List.nil_prefix, List.nil_prefix, List.nil_prefix⟩, hm.closed, hm.objects⟩

/-- Nothing is shared with no memory. -/
theorem OpEvent.unshared_empty {s : ExecState} (hm : s.memory.Closed) (e : OpEvent) :
    e.Unshared .empty s := by
  cases e with
  | call place op =>
    exact fun assetID p object _ _ ho => (hm.objects p object ho).free_empty assetID
  | spawn id => trivial
  | exhaust compute storage => trivial

/-- The pointers of a snapshot lead to objects. -/
theorem snapshot_in (hin : t.In m) : (t.snapshot m).1.In (t.snapshot m).2 := by
  intro target p hp
  rcases ho : t.object? target with _ | q
  · cases hp.symm.trans ((snapshot_object t m target).1 ho)
  obtain ⟨object, hread⟩ := Cells.has_iff_read.mp (hin target q ho)
  obtain ⟨_, hp', -, hcopy⟩ := (snapshot_object t m target).2 q object ho hread
  cases hp.symm.trans hp'
  exact Cells.has_iff_read.mpr ⟨_, hcopy⟩

/-- No two accounts have one object. -/
def Transition.Distinct (t : Transition) : Prop :=
  ∀ id id' p, t.objects.lookup id = some p → t.objects.lookup id' = some p → id = id'

/-- The copies of a snapshot are made one by one. -/
theorem snapshot_distinct (hin : t.In m) : (t.snapshot m).1.Distinct := by
  have hcopy : ∀ (p : Ptr Object) (c : Cells Object), c.Has p →
      ¬ c.Has (copyObject p c).1 ∧ (copyObject p c).2.Has (copyObject p c).1 := by
    intro p c hp
    obtain ⟨_, ho⟩ := Cells.has_iff_read.mp hp
    unfold copyObject
    simp only [ho]
    exact ⟨fun h => Nat.lt_irrefl _ h, Cells.has_alloc.mpr (.inr rfl)⟩
  intro id id' p hp hp'
  exact GoMap.mapState_injective (O := fun p c => c.Has p) (P := fun p c => c.Has p)
    (fun _ q c w h => (copyObject_kept q c).has h) (fun _ q c h => (hcopy q c h).2)
    (fun _ q c w h => (copyObject_kept q c).has h) (fun _ q c h => (hcopy q c h).1)
    (fun id q hq => hin (.account id) q hq) hp hp'

section

variable {X : ExecEnv} {runner : Runners} {C : Checkpoint} {ix : Interaction} {s s' : ExecState}

theorem ExecState.Within.sound (hs : s.Within C) : s.Sound where
  closed := hs.good.closedMemory
  places := fun place p hp => (hs.has p).mpr (C.old_all p (hs.places place p hp))

/-- A round starts within a checkpoint that keeps no memory. -/
theorem ExecState.Sound.within_empty (hs : s.Sound) :
    ({ s with memory := (s.transition.snapshot s.memory).2 } : ExecState).Within
      (s.checkpoint .empty) :=
  { hs.within with good := (snapshot_good hs.closed).closedMemory }

/-- Whatever the operations do, the objects of the checkpoint are left alone. -/
theorem ExecState.Within.play {es : List OpEvent} (hs : s.Within C) (hempty : C.heap = .empty) :
    (play X es s).Within C := by
  induction es generalizing s with
  | nil => exact hs
  | cons e es ih =>
    refine ih (hs.apply ?_)
    rw [hempty]
    exact e.unshared_empty hs.good.closedMemory

theorem ExecState.Sound.onAccount {A : Type} {id : Identifier} {x : Method A} (hs : s.Sound)
    (hx : ∀ r : Receiver, r.Good .empty r.heap → Object.KeepsGood .empty r.heap x r) :
    wp (Exec.onAccount id x) (fun _ s' => s'.Sound) (fun s' => s'.Sound) s := by
  rcases hp : s.transition.objects.lookup id with _ | p
  · rw [Exec.wp_onAccount_none hp]
    exact hs
  rw [Exec.wp_onAccount hp]
  refine wp_state.mpr ⟨(Memory.call_good hs.closed fun object _ hgood => hx _ hgood).1, ?_⟩
  intro place q hq
  exact Memory.call_has.mpr (hs.places place q (by cases place <;> exact hq))

variable {r : Receipt} {e : IxRound}

/-- Actors, check and operations: the objects of the checkpoint are left alone. -/
theorem runInteraction_within {outcomes : List OpOutcome} {s0 : ExecState} (hs : s.Sound)
    (hactors : addActorsToRuntime X ix.ps.entries
      { s with memory := (s.transition.snapshot s.memory).2 } = (.ok none, s0))
    (hrun : runInteraction X (playing X outcomes) ix s0 = (.ok (.ok r), s')) :
    s'.Within (s.checkpoint .empty) := by
  have hs0 := wp_of_eq hactors hs.within_empty.addActorsToRuntime
  rcases runInteraction_cases hrun with ⟨hfuel, -⟩ | ⟨_, hfuel, hops⟩
  · exact (wp_of_eq hfuel (hasSufficientFuel_within (hs0.tank _))).1
  have hs1 := (wp_of_eq hfuel (hasSufficientFuel_within (hs0.tank _))).1
  obtain ⟨-, _, hran⟩ := runOps_playing hops
  rw [hran.state]
  exact hs1.play rfl

/-- Installing the checkpoint. -/
theorem ExecState.Within.closeRun {heap : Heap} (hs : s.Sound)
    (hs' : s'.Within (s.checkpoint heap)) :
    (s'.closeRun (s.transition.snapshot s.memory).1 r).Sound := by
  unfold ExecState.closeRun
  split
  · exact hs'.sound
  refine ⟨hs'.good.closedMemory, fun place p hp => ?_⟩
  cases place with
  | object target =>
    refine (hs'.has p).mpr (snapshot_in hs.in target p ?_)
    cases target <;> exact hp
  | auxiliary id => exact hs'.sound.places (.auxiliary id) p hp
  | actor id => exact hs'.sound.places (.actor id) p hp

/-- A receipt is no place of an object. -/
theorem ExecState.Sound.withReceipt {ixHash : Hash} (hs : s.Sound) :
    (s.withReceipt ixHash r).Sound :=
  ⟨hs.closed, fun place p hp => hs.places place p (by
    cases place with
    | object target => cases target <;> exact hp
    | auxiliary id => exact hp
    | actor id => exact hp)⟩

theorem deductFuel_good {assetID : AssetID} {fee : Int} {rec : Receiver}
    (hrec : rec.Good .empty rec.heap) :
    Object.KeepsGood .empty rec.heap (Object.deductFuel X.backend assetID fee) rec := by
  show Object.KeepsGood .empty rec.heap (Object.run X.backend (.subBalance _ _ _)) rec
  exact Object.run_good hrec (fun assetID _ => hrec.object.free_empty assetID) nofun

variable {batch : List IxRound}

section

variable (hs : s.Sound)
include hs

/-- **Sequence number, receipt and fee.** The state between them is sound as well. -/
theorem ExecState.Sound.settle (h : settle X ix r s = (.ok (), s')) :
    s'.Sound ∧ ∃ s1, s1.Sound ∧ ((ix.senderID = nilIdentifier ∧ s1 = s) ∨
        ∃ e, Exec.onAccount ix.senderID (Object.incrementSequenceID X.backend ix.senderKeyID) s =
          (.ok e, s1)) ∧
      Exec.onAccount ix.senderID (Object.deductFuel X.backend X.kmoiTokenAssetID
        (ix.fuelPrice * r.fuelUsed.toNat)) (s1.withReceipt ix.hash r) = (.ok (), s') := by
  obtain ⟨s1, hinc, hded⟩ := settle_cases h
  have hs1 : s1.Sound := by
    rcases hinc with ⟨-, rfl⟩ | ⟨e, hinc⟩
    · exact hs
    · exact wp_of_eq hinc (hs.onAccount fun r hr =>
        Object.Aside.good (Object.fixes_incrementSequenceID (fun _ _ => rfl) ix.senderKeyID) hr)
  exact ⟨wp_of_eq hded (hs1.withReceipt.onAccount fun _ => deductFuel_good), s1, hs1, hinc, hded⟩

/-- **A round**, taken apart at the point where it is settled. -/
theorem roundStep_cases (h : roundStep X s e s') :
    ∃ s2 r, beforeSettle X e s = some (s2, r) ∧ s2.Sound ∧ settle X e.ix r s2 = (.ok (), s') := by
  obtain ⟨_, _, r, hactors, hrun, hsettle⟩ := executeOne_cases h
  refine ⟨_, r, ?_, (runInteraction_within hs hactors hrun).closeRun hs, hsettle⟩
  simp [beforeSettle, hactors, hrun]

/-- **The step**: a round. -/
theorem ExecState.Sound.round (h : roundStep X s e s') : s'.Sound := by
  obtain ⟨_, r, -, hs2, hsettle⟩ := roundStep_cases hs h
  exact (hs2.settle hsettle).1

/-- **The run**: a batch. -/
theorem sound_run (h : Run (roundStep X) s batch s') : s'.Sound :=
  h.invariant (I := fun _ s => s.Sound) hs fun _ _ _ _ hs hstep => hs.round hstep

/-- No two accounts get one object. -/
theorem Transition.Distinct.round (hd : s.transition.Distinct) (h : roundStep X s e s') :
    s'.transition.Distinct := by
  obtain ⟨_, s1, r, hactors, hrun, hsettle⟩ := executeOne_cases h
  have hwithin := runInteraction_within hs hactors hrun
  have hclosed : (s1.closeRun (s.transition.snapshot s.memory).1 r).transition.Distinct := by
    unfold ExecState.closeRun
    split
    · rw [hwithin.transition]
      exact hd
    · exact snapshot_distinct hs.in
  rw [settle_transition hsettle]
  exact hclosed

theorem distinct_run (hd : s.transition.Distinct) (h : Run (roundStep X) s batch s') :
    s'.transition.Distinct := by
  refine (h.invariant (I := fun _ s => s.Sound ∧ s.transition.Distinct) ⟨hs, hd⟩ ?_).2
  intro _ _ _ _ hI hstep
  exact ⟨hI.1.round hstep, hI.2.round hI.1 hstep⟩

end

end

end GoMoi
