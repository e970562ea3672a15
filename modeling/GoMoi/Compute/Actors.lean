/-
  File:      GoMoi/Compute/Actors.lean
  Subject:   The storage that the runtime reads and writes after a revert (`compute/manager.go`,
             `compute/executor.go`, `state/logic.go`).

  The runtime lives as long as the batch. An actor is bound to the object that the transition holds
  when its account first takes part; a revert lets the transition hold COPIES, and the actor stays
  bound to the object that was thrown away. Later interactions then read what was reverted, and what
  they write is lost.

  * `Program` -- what the runtime does for an operation: an arbitrary program that reads and writes
    through the storage objects it was given; `ProgramRound` -- an interaction run by such programs;
  * `Mates` -- two executions that hold twins in the same places, leaving the actors of `S` aside;
    one lemma for each stage of a round;
  * `SameRest` -- the rest of a batch gives the same results and the same storage;
  * `rest_after_revert` -- so it does if nothing in it uses an actor from before the revert.
-/
import GoMoi.Compute.Rollback
import GoMoi.Compute.Rounds
import GoMoi.State.Twin

namespace GoMoi

open Proc AList Option Exec

/-! ## 1. Programs -/

/-- A storage object the runtime was given, with an actor or by `GetLogicStorageObject`. -/
inductive Storage where
  | actor (id : Identifier)
  | account (id : Identifier)

def Storage.place : Storage → Place
  | .actor id => .actor id
  | .account id => .object (.account id)

/-- A program of the runtime. What it reads is `none` if there is no such storage object, and a
    result of `none` is a panic. -/
inductive Program where
  | done (status : Option IxOpStatus)
  | read (storage : Storage) (logicID : LogicID) (key : Bytes)
      (next : Option (Except Err Bytes) → Program)
  | write (storage : Storage) (logicID : LogicID) (key value : Bytes)
      (next : Option (Option Err) → Program)
  | exhaust (compute storage : UInt64) (next : Bool → Program)

/-- A method called on a storage object, if there is one. -/
def Storage.call {A : Type} (storage : Storage) (x : Method A) : Exec (Option A) := do
  match (← Proc.self).place? storage.place with
  | none => return none
  | some p => return some (← Exec.call p x)

/-- A program run. -/
def Program.run (X : ExecEnv) : Program → OpRunner
  | .done (some status) => return status
  | .done none => ofGo (.error (.explicit "operation panicked"))
  | .read storage logicID key next => do
    (next (← storage.call (Object.getStorageEntry X.backend logicID key))).run X
  | .write storage logicID key value next => do
    (next (← storage.call (Object.setStorageEntry X.backend logicID key value))).run X
  | .exhaust compute storage next => do
    let tank := (← Proc.self).tank
    Proc.assign fun s => { s with tank := (s.tank.exhaust compute storage).2 }
    (next (tank.exhaust compute storage).1).run X

/-- An interaction run by programs. -/
structure ProgramRound where
  ix : Interaction
  programs : List Program

/-- The runners of the operations. -/
def ProgramRound.runners (X : ExecEnv) (e : ProgramRound) : Runners := fun idx _ =>
  e.programs[idx]?.map (Program.run X)

/-- The rest of a batch executed. -/
def executeRest (X : ExecEnv) (rest : List ProgramRound) : Exec (Option Err) :=
  executeAll X (rest.map fun e => (e.runners X, e.ix))

/-! ## 2. The property and the condition -/

/-- The storage entry of an account as the transition shows it. -/
def ExecState.storage (X : ExecEnv) (s : ExecState) (id : Identifier) (logicID : LogicID)
    (key : Bytes) : Option (Go (Except Err Bytes)) :=
  (s.transition.observe X.backend s.memory (.account id)).map fun o => o.storage logicID key

/-- **The same results and the same final storage**, from two states. -/
structure SameRest (X : ExecEnv) (rest : List ProgramRound) (s t : ExecState) : Prop where
  result : (executeRest X rest s).1 = (executeRest X rest t).1
  receipts : (executeRest X rest s).2.transition.receipts =
    (executeRest X rest t).2.transition.receipts
  storage : ∀ id logicID key, (executeRest X rest s).2.storage X id logicID key =
    (executeRest X rest t).2.storage X id logicID key

/-- A storage object that is not of an actor in `S`. -/
def Storage.Avoids (S : Identifier → Prop) : Storage → Prop
  | .actor id => ¬ S id
  | .account _ => True

/-- A program that uses no actor in `S`. -/
def Program.Avoids (S : Identifier → Prop) : Program → Prop
  | .done _ => True
  | .read storage _ _ next => storage.Avoids S ∧ ∀ r, (next r).Avoids S
  | .write storage _ _ _ next => storage.Avoids S ∧ ∀ r, (next r).Avoids S
  | .exhaust _ _ next => ∀ b, (next b).Avoids S

/-- **The condition**: no participant has an actor in `S`, and no program uses one. -/
structure ProgramRound.Avoids (S : Identifier → Prop) (e : ProgramRound) : Prop where
  participants : ∀ id ∈ e.ix.ps, ¬ S id
  programs : ∀ p ∈ e.programs, p.Avoids S

/-! ## 3. Two executions side by side -/

/-- Both empty, or a pair of `M`. -/
def Paired (M : Ptr Object → Ptr Object → Prop) (a b : Option (Ptr Object)) : Prop :=
  (a = none ∧ b = none) ∨ ∃ p q, a = some p ∧ b = some q ∧ M p q

/-- Objects in the same places, one by one twins. `M` says which object on the left goes with which
    on the right. -/
structure Mates (X : ExecEnv) (S : Identifier → Prop) (M : Ptr Object → Ptr Object → Prop)
    (s t : ExecState) : Prop where
  one : ∀ p q p' q', M p q → M p' q' → (p = p' ↔ q = q')
  reads : ∀ p q, M p q → ∃ o o', s.memory.objects.read p = some o ∧
    t.memory.objects.read q = some o' ∧ o.Twin X.backend o'
  objects : ∀ id, Paired M (s.transition.objects.lookup id) (t.transition.objects.lookup id)
  actors : ∀ id, ¬ S id → Paired M (s.actors.lookup id) (t.actors.lookup id)
  receipts : s.transition.receipts = t.transition.receipts

/-- A call on an object, as a state. -/
def ExecState.called (s : ExecState) (p : Ptr Object) (r : Receiver) : ExecState :=
  { s with memory := ⟨s.memory.objects.modify p fun _ => r.object, r.heap⟩ }

section

variable {X : ExecEnv} {S : Identifier → Prop} {M : Ptr Object → Ptr Object → Prop}
  {s t : ExecState} {A : Type} {p q : Ptr Object} {x : Method A} {id : Identifier}
  {e : ProgramRound} {r : Receipt} {C : Checkpoint} {rest : List ProgramRound}

theorem Exec.call_eq {o : Object} (ho : s.memory.objects.read p = some o) :
    call p x s = ((x ⟨o, s.memory.heap⟩).1, s.called p (x ⟨o, s.memory.heap⟩).2) := by
  unfold call Memory.call
  simp only [ho]
  rfl

theorem Exec.wp₂_call {y : Method A} {o o' : Object} {Q : A → A → ExecState → ExecState → Prop}
    {R : ExecState → ExecState → Prop} (ho : s.memory.objects.read p = some o)
    (ho' : t.memory.objects.read q = some o')
    (h : wp₂ x y (fun a b r r' => Q a b (s.called p r) (t.called q r'))
      (fun r r' => R (s.called p r) (t.called q r')) ⟨o, s.memory.heap⟩ ⟨o', t.memory.heap⟩) :
    wp₂ (call p x) (call q y) Q R s t := by
  unfold wp₂ at h ⊢
  rw [call_eq ho, call_eq ho']
  cases hx : x ⟨o, s.memory.heap⟩ with
  | mk a r =>
    cases hy : y ⟨o', t.memory.heap⟩ with
    | mk b r' =>
      rw [hx, hy] at h
      cases a with
      | ok a => cases b <;> exact h
      | error e => cases b <;> exact h

/-- The objects behind a pair of pointers replaced by twins. -/
theorem Mates.called {r r' : Receiver} (h : Mates X S M s t) (hpq : M p q)
    (htwin : r.object.Twin X.backend r'.object) : Mates X S M (s.called p r) (t.called q r') :=
  { h with
    reads := fun a b hab => by
      obtain ⟨o, o', ho, ho', hoo'⟩ := h.reads a b hab
      simp only [ExecState.called, Cells.read_modify]
      by_cases ha : a = p
      · rw [if_pos ha, if_pos ((h.one a b p q hab hpq).mp ha), ho, ho']
        exact ⟨_, _, rfl, rfl, htwin⟩
      · rw [if_neg ha, if_neg fun hb => ha ((h.one a b p q hab hpq).mpr hb)]
        exact ⟨o, o', ho, ho', hoo'⟩ }

/-- What a stage leaves: mates, with the tanks as they were. -/
def Mates.Left {A : Type} (X : ExecEnv) (S : Identifier → Prop) (M : Ptr Object → Ptr Object → Prop)
    (P : A → A → Prop) (s t : ExecState) (a b : A) (s' t' : ExecState) : Prop :=
  P a b ∧ Mates X S M s' t' ∧ s'.tank = s.tank ∧ t'.tank = t.tank

variable {P : A → A → Prop} {idx : Nat} {ops : List IxOp}

/-- **A method called on a pair of objects.** -/
theorem Mates.call (h : Mates X S M s t) (hpq : M p q)
    (hx : ∀ o o', s.memory.objects.read p = some o → t.memory.objects.read q = some o' →
      o.Twin X.backend o' → wp₂ x x (fun a b r r' => P a b ∧ r.object.Twin X.backend r'.object)
        (fun r r' => r.object.Twin X.backend r'.object) ⟨o, s.memory.heap⟩ ⟨o', t.memory.heap⟩) :
    wp₂ (call p x) (call q x) (Mates.Left X S M P s t) (Mates X S M) s t := by
  obtain ⟨o, o', ho, ho', htwin⟩ := h.reads p q hpq
  refine wp₂_call ho ho' (wp₂_mono (hx o o' ho ho' htwin) ?_ ?_)
  · intro a b r r' hab
    exact ⟨hab.1, h.called hpq hab.2, rfl, rfl⟩
  · intro r r' htwin'
    exact h.called hpq htwin'

/-- A method called on an account. -/
theorem Mates.onAccount (h : Mates X S M s t)
    (hx : ∀ p q o o', s.memory.objects.read p = some o → t.memory.objects.read q = some o' →
      o.Twin X.backend o' → wp₂ x x (fun a b r r' => P a b ∧ r.object.Twin X.backend r'.object)
        (fun r r' => r.object.Twin X.backend r'.object) ⟨o, s.memory.heap⟩ ⟨o', t.memory.heap⟩) :
    wp₂ (onAccount id x) (onAccount id x) (Mates.Left X S M P s t) (Mates X S M) s t := by
  refine wp₂_bind ?_
  show wp₂ (match s.transition.objects.lookup id with
    | none => _
    | some p => _) (match t.transition.objects.lookup id with
    | none => _
    | some p => _) _ _ s t
  rcases h.objects id with ⟨hs, ht⟩ | ⟨p, q, hs, ht, hpq⟩
  · rw [hs, ht]
    exact ⟨rfl, h⟩
  · rw [hs, ht]
    exact h.call hpq (hx p q)

/-! ## 4. Programs side by side -/

section

variable (h : Mates X S M s t)
include h

theorem Mates.place {storage : Storage} (hst : storage.Avoids S) :
    Paired M (s.place? storage.place) (t.place? storage.place) := by
  cases storage with
  | actor id => exact h.actors id hst
  | account id => exact h.objects id

theorem Mates.storageCall {storage : Storage} (hst : storage.Avoids S)
    (hx : Parallel X.backend x x) :
    wp₂ (storage.call x) (storage.call x) (Mates.Left X S M Eq s t) (Mates X S M) s t := by
  refine wp₂_bind ?_
  show wp₂ (match s.place? storage.place with
    | none => _
    | some p => _) (match t.place? storage.place with
    | none => _
    | some p => _) _ _ s t
  rcases h.place hst with ⟨hs, ht⟩ | ⟨p, q, hs, ht, hpq⟩
  · rw [hs, ht]
    exact ⟨rfl, h, rfl, rfl⟩
  · rw [hs, ht]
    refine wp₂_seq (h.call (P := Eq) hpq fun o o' _ _ htwin => hx _ _ htwin) fun a b s' t' hab => ?_
    exact ⟨congrArg some hab.1, hab.2⟩

/-- **A program** cannot tell the two executions apart. -/
theorem Mates.program {p : Program} (htank : s.tank = t.tank) (hp : p.Avoids S) :
    wp₂ (p.run X) (p.run X)
      (fun a b s' t' => a = b ∧ Mates X S M s' t' ∧ s'.tank = t'.tank) (Mates X S M) s t := by
  induction p generalizing s t with
  | done status =>
    cases status with
    | none => exact ⟨rfl, h⟩
    | some status => exact ⟨rfl, h, htank⟩
  | read storage logicID key next ih =>
    refine wp₂_seq (h.storageCall hp.1 (Object.parallel_getStorageEntry logicID key))
      fun a b s' t' hab => ?_
    obtain ⟨rfl, h', hs', ht'⟩ := hab
    exact ih a h' (by rw [hs', ht', htank]) (hp.2 a)
  | write storage logicID key value next ih =>
    refine wp₂_seq (h.storageCall hp.1 (Object.parallel_setStorageEntry logicID key value))
      fun a b s' t' hab => ?_
    obtain ⟨rfl, h', hs', ht'⟩ := hab
    exact ih a h' (by rw [hs', ht', htank]) (hp.2 a)
  | exhaust compute storage next ih =>
    refine wp₂_bind ?_
    refine wp₂_bind ?_
    simp only [wp₂_assign, htank]
    exact ih _ { h with } rfl (hp _)

/-- The loop over the operations. -/
theorem Mates.runOps (htank : s.tank = t.tank) (he : e.Avoids S) :
    wp₂ (runOps (e.runners X) e.ix idx ops r) (runOps (e.runners X) e.ix idx ops r)
      (fun a b s' t' => a = b ∧ Mates X S M s' t') (Mates X S M) s t := by
  induction ops generalizing idx r s t with
  | nil => exact ⟨rfl, h⟩
  | cons op ops ih =>
    unfold GoMoi.runOps ProgramRound.runners
    rcases hp : e.programs[idx]? with _ | p
    · exact ⟨rfl, h⟩
    refine wp₂_seq (h.program htank (he.programs p (List.mem_of_getElem? hp)))
      fun a b s' t' hab => ?_
    obtain ⟨rfl, h', htank'⟩ := hab
    refine wp₂_bind ?_
    simp only [wp₂_self, htank']
    exact ih h' htank'

end

/-! ## 5. Actors, check and settlement side by side -/

section

variable (h : Mates X S M s t)
include h

theorem Mates.bind (hpq : M p q) :
    Mates X S M { s with actors := s.actors.insert id p }
      { t with actors := t.actors.insert id q } :=
  { h with
    actors := fun id' hid' => by
      by_cases heq : id' = id
      · subst heq
        exact .inr ⟨p, q, lookup_insert _, lookup_insert _, hpq⟩
      · show Paired M ((s.actors.insert id p).lookup id') ((t.actors.insert id q).lookup id')
        rw [lookup_insert_ne heq, lookup_insert_ne heq]
        exact h.actors id' hid' }

/-- An actor that neither execution has is made in both. -/
theorem Mates.addActor {info : ParticipantInfo} (hid : ¬ S id) :
    wp₂ (addActor X id info) (addActor X id info) (fun a b s' t' => a = b ∧ Mates X S M s' t')
      (Mates X S M) s t := by
  have hmem : id ∈ s.actors ↔ id ∈ t.actors := by
    rw [← lookup_isSome, ← lookup_isSome]
    rcases h.actors id hid with ⟨hs, ht⟩ | ⟨p, q, hs, ht, -⟩
    · rw [hs, ht]
    · rw [hs, ht]
      simp
  refine wp₂_bind ?_
  simp only [wp₂_self, hmem]
  by_cases hspecial : id = X.ids.sargaAccountID ∨ id = X.ids.systemAccountID
  · rw [if_pos hspecial, if_pos hspecial]
    exact ⟨rfl, h⟩
  rw [if_neg hspecial, if_neg hspecial]
  by_cases hold : info.isGenesis = true ∨ id ∈ t.actors
  · rw [if_pos hold, if_pos hold]
    exact ⟨rfl, h⟩
  rw [if_neg hold, if_neg hold]
  rcases h.objects id with ⟨hs, ht⟩ | ⟨p, q, hs, ht, hpq⟩
  · rw [hs, ht]
    exact ⟨rfl, h⟩
  rw [hs, ht]
  obtain ⟨o, o', ho, ho', htwin⟩ := h.reads p q hpq
  by_cases hkind : id.kind = kindLogic ∨ id.kind = kindAsset
  · simp only [if_pos hkind, ho, ho', Go.deref]
    refine wp₂_bind ((wp₂_pure o o').mpr ?_)
    rw [htwin.getLogicObject]
    rcases Object.getLogicObject X.backend o' id with e | logicObject
    · exact ⟨rfl, h⟩
    refine wp₂_bind ?_
    unfold spawnLogic
    by_cases hart : X.newBytecodeArtifact logicObject.artifact = true
    · rw [if_pos hart, if_pos hart]
      cases X.spawn id with
      | some err => exact ⟨rfl, h⟩
      | none => exact ⟨rfl, h.bind hpq⟩
    · rw [if_neg hart, if_neg hart]
      exact ⟨rfl, h⟩
  · simp only [if_neg hkind]
    refine wp₂_bind ?_
    unfold createActor
    cases X.createActor id with
    | some err => exact ⟨rfl, h⟩
    | none => exact ⟨rfl, h.bind hpq⟩

theorem Mates.addActorsToRuntime {es : List (Σ _ : Identifier, ParticipantInfo)}
    (hes : ∀ e ∈ es, ¬ S e.1) :
    wp₂ (addActorsToRuntime X es) (addActorsToRuntime X es)
      (fun a b s' t' => a = b ∧ Mates X S M s' t') (Mates X S M) s t := by
  induction es generalizing s t with
  | nil => exact ⟨rfl, h⟩
  | cons e rest ih =>
    refine wp₂_seq (h.addActor (hes e List.mem_cons_self)) fun a b s' t' hab => ?_
    obtain ⟨rfl, h'⟩ := hab
    cases a with
    | some err => exact ⟨rfl, h'⟩
    | none => exact ih h' fun e he => hes e (List.mem_cons_of_mem _ he)

/-- The fuel check reads the committed tree, which is the same. -/
theorem Mates.hasSufficientFuel {ix : Interaction} :
    wp₂ (hasSufficientFuel X ix) (hasSufficientFuel X ix) (Mates.Left X S M Eq s t) (Mates X S M)
      s t := by
  have hcheck : wp₂ (Exec.onAccount ix.senderID
      (Object.hasSufficientFuel X.backend X.kmoiTokenAssetID ix.cost)) (Exec.onAccount ix.senderID
      (Object.hasSufficientFuel X.backend X.kmoiTokenAssetID ix.cost))
      (Mates.Left X S M (fun a b => a = .ok true ↔ b = .ok true) s t) (Mates X S M) s t := by
    refine h.onAccount fun p q o o' _ _ htwin => ?_
    refine wp₂_mono (wp₂_of_wp Object.hasSufficientFuel_spec Object.hasSufficientFuel_spec)
      (fun a b r r' hab => ?_) fun _ _ h => h
    obtain ⟨⟨hdec, ha⟩, hdec', hb⟩ := hab
    rw [htwin.committedBalance] at ha
    refine ⟨ha.trans hb.symm, ?_⟩
    rw [hdec.object, hdec'.object]
    exact htwin
  refine wp₂_seq hcheck fun a b s' t' hab => ?_
  obtain ⟨hiff, hleft⟩ := hab
  rcases a with e | a
  · rcases b with e' | b
    · exact ⟨rfl, hleft⟩
    cases b with
    | false => exact ⟨rfl, hleft⟩
    | true => cases hiff.mpr rfl
  rcases a with _ | _
  swap
  · cases hiff.mp rfl
    exact ⟨rfl, hleft⟩
  rcases b with _ | b
  · exact ⟨rfl, hleft⟩
  cases b with
  | false => exact ⟨rfl, hleft⟩
  | true => cases hiff.mpr rfl

/-- **An interaction** run by programs. -/
theorem Mates.runInteraction (he : e.Avoids S) :
    wp₂ (runInteraction X (e.runners X) e.ix) (runInteraction X (e.runners X) e.ix)
      (fun a b s' t' => a = b ∧ Mates X S M s' t') (Mates X S M) s t := by
  refine wp₂_bind ?_
  have h0 : Mates X S M { s with tank := FuelTank.new e.ix.fuelLimit X.storageLimit }
      { t with tank := FuelTank.new e.ix.fuelLimit X.storageLimit } := { h with }
  refine wp₂_seq h0.hasSufficientFuel fun a b s1 t1 hab => ?_
  obtain ⟨rfl, h1, hs1, ht1⟩ := hab
  rcases a with _ | _
  · exact ⟨rfl, h1⟩
  refine wp₂_bind (wp₂_recovered ?_)
  refine wp₂_mono (h1.runOps (by rw [hs1, ht1]) he) ?_ fun s2 t2 h2 => ⟨rfl, h2⟩
  intro r r' s2 t2 hr
  obtain ⟨rfl, h2⟩ := hr
  exact ⟨rfl, h2⟩

/-- The sequence number. -/
theorem Mates.incrementSequenceID {keyID : UInt64} (hs : s.Sound) (ht : t.Sound) :
    wp₂ (Exec.onAccount id (Object.incrementSequenceID X.backend keyID))
      (Exec.onAccount id (Object.incrementSequenceID X.backend keyID))
      (fun _ _ s' t' => Mates X S M s' t' ∧ s'.Sound ∧ t'.Sound) (Mates X S M) s t := by
  have hgood : ∀ rec : Receiver, rec.Good .empty rec.heap → Object.KeepsGood .empty rec.heap
      (Object.incrementSequenceID X.backend keyID) rec :=
    fun rec hrec => Object.Aside.good (Object.fixes_incrementSequenceID (fun _ _ => rfl) keyID) hrec
  refine wp₂_mono (wp₂_and_wp (h.onAccount (P := Eq) fun p q o o' _ _ htwin =>
    Object.parallel_incrementSequenceID keyID _ _ htwin) (hs.onAccount hgood)
    (ht.onAccount hgood)) ?_ fun _ _ h => h.1
  intro _ _ s' t' hleft
  exact ⟨hleft.1.2.1, hleft.2⟩

/-- The fee: it is taken without a panic because no pointer leads nowhere. -/
theorem Mates.deductFuel {fee : Int} (hs : s.Sound) (ht : t.Sound) :
    wp₂ (Exec.onAccount id (Object.deductFuel X.backend X.kmoiTokenAssetID fee))
      (Exec.onAccount id (Object.deductFuel X.backend X.kmoiTokenAssetID fee))
      (fun _ _ s' t' => Mates X S M s' t' ∧ s'.Sound ∧ t'.Sound) (Mates X S M) s t := by
  have hcore : ∀ {rec : Receiver}, rec.heap.Closed → rec.object.In rec.heap →
      wp (Object.deductFuel X.backend X.kmoiTokenAssetID fee)
        (fun _ rec' => rec'.object.core = rec.object.core) (fun _ => False) rec :=
    fun hc hin => wp_fixes (Object.deductFuel_core _ _) (Object.deductFuel_spec hc hin)
  refine wp₂_mono (wp₂_and_wp (h.onAccount (P := fun _ _ => True) ?_)
    (hs.onAccount fun _ => deductFuel_good) (ht.onAccount fun _ => deductFuel_good)) ?_
      fun _ _ h => h.1
  · intro p q o o' ho ho' htwin
    refine wp₂_mono (wp₂_of_wp (hcore hs.closed.closed (hs.closed.objects p o ho))
      (hcore ht.closed.closed (ht.closed.objects q o' ho'))) (fun _ _ rec rec' hrec => ?_)
      fun _ _ h => h
    exact ⟨trivial, htwin.of_core hrec.1 hrec.2⟩
  · intro _ _ s' t' hleft
    exact ⟨hleft.1.2.1, hleft.2⟩

theorem Mates.withReceipt {ixHash : Hash} :
    Mates X S M (s.withReceipt ixHash r) (t.withReceipt ixHash r) :=
  { h with
    receipts := by
      show s.transition.receipts.insert ixHash r = t.transition.receipts.insert ixHash r
      rw [h.receipts] }

/-- **Sequence number, receipt and fee.** -/
theorem Mates.settle {ix : Interaction} (hs : s.Sound) (ht : t.Sound) :
    wp₂ (settle X ix r) (settle X ix r)
      (fun _ _ s' t' => Mates X S M s' t' ∧ s'.Sound ∧ t'.Sound) (Mates X S M) s t := by
  unfold GoMoi.settle
  by_cases hnil : ix.senderID ≠ nilIdentifier
  · simp only [if_pos hnil]
    refine wp₂_seq (h.incrementSequenceID hs ht) fun _ _ s' t' h' => ?_
    obtain ⟨h', hs', ht'⟩ := h'
    exact wp₂_bind (h'.withReceipt.deductFuel hs'.withReceipt ht'.withReceipt)
  · simp only [if_neg hnil]
    exact wp₂_bind (h.withReceipt.deductFuel hs.withReceipt ht.withReceipt)

end

/-! ## 6. A round side by side -/

/-- A program leaves the checkpoint of its round alone. -/
theorem ExecState.Within.program {p : Program} (hs : s.Within C) :
    leaves (p.run X) (Within C) s := by
  have hcall : ∀ {A : Type} {storage : Storage} {x : Method A} {s : ExecState}, s.Within C →
      Object.Aside x → leaves (storage.call x) (Within C) s := by
    intro A storage x s hs hx
    unfold Storage.call
    simp only [wp_bind, wp_self]
    rcases hp : s.place? storage.place with _ | q
    · exact hs
    simp only [wp_bind]
    exact wp_state.mpr (hs.call (hs.places _ q hp) fun object _ hgood => hx.good hgood)
  induction p generalizing s with
  | done status =>
    cases status <;> exact hs
  | read storage logicID key next ih =>
    exact wp_seq (hcall hs (Object.fixes_getStorageEntry (fun _ _ _ => rfl) logicID key))
      fun r s' hs' => ih r hs'
  | write storage logicID key value next ih =>
    exact wp_seq (hcall hs (Object.fixes_setStorageEntry (fun _ _ _ => rfl) logicID key value))
      fun r s' hs' => ih r hs'
  | exhaust compute storage next ih =>
    exact ih _ (hs.tank _)

theorem ExecState.Within.runOps (hs : s.Within C) :
    leaves (runOps (e.runners X) e.ix idx ops r) (Within C) s := by
  induction ops generalizing idx r s with
  | nil => exact hs
  | cons op ops ih =>
    unfold GoMoi.runOps ProgramRound.runners
    rcases e.programs[idx]? with _ | p
    · exact hs
    simp only [map_some, wp_bind, wp_self]
    exact wp_post hs.program fun _ s' hs' => ih hs'

theorem ExecState.Within.runInteraction (hs : s.Within C) :
    leaves (runInteraction X (e.runners X) e.ix) (Within C) s := by
  unfold GoMoi.runInteraction
  simp only [wp_bind, wp_assign]
  refine wp_post (hasSufficientFuel_within (hs.tank _)) fun b s1 hb => ?_
  obtain ⟨hs1, -⟩ := hb
  rcases b with _ | _
  · exact hs1
  rw [if_pos rfl, wp_bind]
  exact wp_recovered (wp_mono hs1.runOps (fun _ _ h => h) fun _ h => h)

/-- A snapshot taken on both sides. -/
theorem Mates.snapshot (h : Mates X S M s t) :
    Mates X S M { s with memory := (s.transition.snapshot s.memory).2 }
      { t with memory := (t.transition.snapshot t.memory).2 } :=
  { h with
    reads := fun p q hpq => by
      obtain ⟨o, o', ho, ho', htwin⟩ := h.reads p q hpq
      exact ⟨o, o', (snapshot_kept _ _).read ho, (snapshot_kept _ _).read ho', htwin⟩ }

/-- A pair of copies of one account. -/
def CopyPair (s t : ExecState) (p q : Ptr Object) : Prop :=
  ∃ id, (s.transition.snapshot s.memory).1.objects.lookup id = some p ∧
    (t.transition.snapshot t.memory).1.objects.lookup id = some q

section

variable (h : Mates X S M s t)
include h

/-- The pairs that a revert adds are new on both sides, and twins. -/
theorem Mates.copyPair (hpq : CopyPair s t p q) :
    ¬ s.memory.objects.Has p ∧ ¬ t.memory.objects.Has q ∧
      ∃ o o', (s.transition.snapshot s.memory).2.objects.read p = some o ∧
        (t.transition.snapshot t.memory).2.objects.read q = some o' ∧ o.Twin X.backend o' := by
  obtain ⟨id, hp, hq⟩ := hpq
  rcases h.objects id with ⟨hsn, -⟩ | ⟨p0, q0, hp0, hq0, hM⟩
  · cases hp.symm.trans ((snapshot_object s.transition s.memory (.account id)).1 hsn)
  obtain ⟨o, o', ho, ho', htwin⟩ := h.reads p0 q0 hM
  obtain ⟨_, hp', hnew, hcopy⟩ :=
    (snapshot_object s.transition s.memory (.account id)).2 p0 o hp0 ho
  obtain ⟨_, hq', hnew', hcopy'⟩ :=
    (snapshot_object t.transition t.memory (.account id)).2 q0 o' hq0 ho'
  cases hp.symm.trans hp'
  cases hq.symm.trans hq'
  exact ⟨hnew, hnew', _, _, hcopy, hcopy', htwin.copies⟩

section

variable (hs : s.Sound) (ht : t.Sound)
include hs ht

/-- **A revert on both sides**: the transition holds the copies, the actors stay where they are. -/
theorem Mates.revert {s1 t1 : ExecState} (h1 : Mates X S M s1 t1)
    (hs1 : s1.Within (s.checkpoint .empty)) (ht1 : t1.Within (t.checkpoint .empty)) :
    Mates X S (fun p q => M p q ∨ CopyPair s t p q)
      { s1 with transition := s1.transition.updateSnapshot (s.transition.snapshot s.memory).1 }
      { t1 with
        transition := t1.transition.updateSnapshot (t.transition.snapshot t.memory).1 } where
  one := by
    have hold : ∀ p q, M p q → s.memory.objects.Has p ∧ t.memory.objects.Has q := by
      intro p q hpq
      obtain ⟨o, o', ho, ho', -⟩ := h.reads p q hpq
      exact ⟨Cells.has_iff_read.mpr ⟨o, ho⟩, Cells.has_iff_read.mpr ⟨o', ho'⟩⟩
    have hcross : ∀ p q p' q', M p q → CopyPair s t p' q' → p ≠ p' ∧ q ≠ q' := by
      intro p q p' q' hpq hpq'
      obtain ⟨hnew, hnew', -⟩ := h.copyPair hpq'
      exact ⟨fun e => hnew (e ▸ (hold p q hpq).1), fun e => hnew' (e ▸ (hold p q hpq).2)⟩
    intro p q p' q' hpq hpq'
    rcases hpq with hpq | hpq
    · rcases hpq' with hpq' | hpq'
      · exact h.one p q p' q' hpq hpq'
      · obtain ⟨hne, hne'⟩ := hcross p q p' q' hpq hpq'
        exact ⟨fun e => absurd e hne, fun e => absurd e hne'⟩
    rcases hpq' with hpq' | hpq'
    · obtain ⟨hne, hne'⟩ := hcross p' q' p q hpq' hpq
      exact ⟨fun e => absurd e.symm hne, fun e => absurd e.symm hne'⟩
    obtain ⟨id, hp, hq⟩ := hpq
    obtain ⟨id', hp', hq'⟩ := hpq'
    constructor
    · rintro rfl
      cases snapshot_distinct hs.in id id' p hp hp'
      exact mem_unique hq hq'
    · rintro rfl
      cases snapshot_distinct ht.in id id' q hq hq'
      exact mem_unique hp hp'
  reads := fun p q hpq => by
    rcases hpq with hpq | hpq
    · exact h1.reads p q hpq
    · obtain ⟨hnew, hnew', o, o', ho, ho', htwin⟩ := h.copyPair hpq
      exact ⟨o, o', (hs1.others p hnew).trans ho, (ht1.others q hnew').trans ho', htwin⟩
  objects := fun id => by
    rcases h.objects id with ⟨hsn, htn⟩ | ⟨p0, q0, hp0, hq0, hM⟩
    · exact .inl ⟨(snapshot_object s.transition s.memory (.account id)).1 hsn,
        (snapshot_object t.transition t.memory (.account id)).1 htn⟩
    obtain ⟨o, o', ho, ho', -⟩ := h.reads p0 q0 hM
    obtain ⟨p, hp, -⟩ := (snapshot_object s.transition s.memory (.account id)).2 p0 o hp0 ho
    obtain ⟨q, hq, -⟩ := (snapshot_object t.transition t.memory (.account id)).2 q0 o' hq0 ho'
    exact .inr ⟨p, q, hp, hq, .inr ⟨id, hp, hq⟩⟩
  actors := fun id hid => by
    rcases h1.actors id hid with hnone | ⟨p, q, hp, hq, hM⟩
    · exact .inl hnone
    · exact .inr ⟨p, q, hp, hq, .inl hM⟩
  receipts := h.receipts

/-- **A round**: the same result, and mates again. -/
theorem Mates.executeOne (he : e.Avoids S) :
    wp₂ (executeOne X (e.runners X) e.ix) (executeOne X (e.runners X) e.ix)
      (fun a b s' t' => a = b ∧ (∃ M', Mates X S M' s' t') ∧ (a = none → s'.Sound ∧ t'.Sound))
      (fun s' t' => ∃ M', Mates X S M' s' t') s t := by
  have hactors : ∀ e' ∈ e.ix.ps.entries, ¬ S e'.1 := fun e' he' =>
    he.participants e'.1 (mem_keys.mpr (List.mem_map_of_mem he'))
  refine wp₂_bind ?_
  refine wp₂_bind (wp₂_mono (wp₂_and_wp (h.snapshot.addActorsToRuntime hactors)
    hs.within_empty.addActorsToRuntime ht.within_empty.addActorsToRuntime) ?_ fun _ _ h => ⟨M, h.1⟩)
  intro a b s1 t1 hab
  obtain ⟨⟨rfl, h1⟩, hs1, ht1⟩ := hab
  rcases a with _ | err
  swap
  · exact ⟨rfl, ⟨M, h1⟩, nofun⟩
  refine wp₂_bind (wp₂_mono (wp₂_and_wp (h1.runInteraction he) hs1.runInteraction
    ht1.runInteraction) ?_ fun _ _ h => ⟨M, h.1⟩)
  intro a b s2 t2 hab
  obtain ⟨⟨rfl, h2⟩, hs2, ht2⟩ := hab
  have hrevert := h.revert hs ht h2 hs2 ht2
  rcases a with _ | receipt
  · exact ⟨rfl, ⟨_, hrevert⟩, nofun⟩
  simp only
  have hclose := hs2.closeRun (r := receipt) hs
  have hclose' := ht2.closeRun (r := receipt) ht
  unfold ExecState.closeRun at hclose hclose'
  by_cases hok : receipt.status = .receiptOk
  · rw [if_pos hok] at hclose hclose'
    rw [if_neg (not_not.mpr hok), if_neg (not_not.mpr hok)]
    refine wp₂_bind (wp₂_mono (h2.settle hclose hclose') ?_ fun _ _ h => ⟨M, h⟩)
    intro _ _ s3 t3 h3
    exact ⟨rfl, ⟨M, h3.1⟩, fun _ => h3.2⟩
  rw [if_neg hok] at hclose hclose'
  rw [if_pos hok, if_pos hok]
  refine wp₂_bind ?_
  refine wp₂_bind (wp₂_mono (hrevert.settle hclose hclose') ?_ fun _ _ h => ⟨_, h⟩)
  intro _ _ s3 t3 h3
  exact ⟨rfl, ⟨_, h3.1⟩, fun _ => h3.2⟩

/-- **The rest of the batch**: by induction, from the round. -/
theorem Mates.executeRest (hrest : ∀ e ∈ rest, e.Avoids S) :
    wp₂ (executeRest X rest) (executeRest X rest)
      (fun a b s' t' => a = b ∧ ∃ M', Mates X S M' s' t')
        (fun s' t' => ∃ M', Mates X S M' s' t') s t := by
  induction rest generalizing s t M with
  | nil => exact ⟨rfl, M, h⟩
  | cons e rest ih =>
    refine wp₂_seq (h.executeOne hs ht (hrest e List.mem_cons_self)) fun a b s1 t1 hab => ?_
    obtain ⟨rfl, ⟨M1, h1⟩, hsound⟩ := hab
    cases a with
    | some err => exact ⟨rfl, M1, h1⟩
    | none =>
      obtain ⟨hs1, ht1⟩ := hsound rfl
      exact ih h1 hs1 ht1 fun e he => hrest e (List.mem_cons_of_mem _ he)

end

/-- Mates show the same storage. -/
theorem Mates.storage (id : Identifier) (logicID : LogicID) (key : Bytes) :
    s.storage X id logicID key = t.storage X id logicID key := by
  have hshow : ∀ (u : ExecState) (p : Ptr Object) (o : Object),
    u.transition.objects.lookup id = some p →
      u.memory.objects.read p = some o → u.storage X id logicID key =
        some (Object.getStorageEntry X.backend logicID key ⟨o, u.memory.heap⟩).1 := by
    intro u p o hp ho
    unfold ExecState.storage Transition.observe
    simp only [Transition.object?, hp, bind_some, ho, map_some]
    rfl
  rcases h.objects id with ⟨hs, ht⟩ | ⟨p, q, hp, hq, hM⟩
  · unfold ExecState.storage Transition.observe
    simp [Transition.object?, hs, ht]
  obtain ⟨o, o', ho, ho', htwin⟩ := h.reads p q hM
  rw [hshow s p o hp ho, hshow t q o' hq ho']
  have hpar := Object.parallel_getStorageEntry logicID key ⟨o, s.memory.heap⟩
    ⟨o', t.memory.heap⟩ htwin
  exact congrArg some (wp₂_result hpar fun _ _ _ _ h => h.1)

/-- Mates have the same rest before them. -/
theorem Mates.sameRest (hs : s.Sound) (ht : t.Sound) (hrest : ∀ e ∈ rest, e.Avoids S) :
    SameRest X rest s t := by
  have hrun := h.executeRest hs ht hrest
  obtain ⟨_, h'⟩ := wp₂_states hrun fun _ _ _ _ h => h.2
  exact ⟨wp₂_result hrun fun _ _ _ _ h => h.1, h'.receipts, h'.storage⟩

end

/-! ## 7. After a revert -/

/-- Keys that are loaded and empty are empty in the store too. -/
def KeysReload (X : ExecEnv) (s : ExecState) : Prop :=
  ∀ id p o, s.transition.objects.lookup id = some p → s.memory.objects.read p = some o →
    o.keys = some [] → o.storedKeys X.backend = .ok []

/-- **The reverted state and the state before it** are mates, but for the actors of both. -/
theorem mates_reverted {s1 : ExecState} (hs : s.Sound) (hd : s.transition.Distinct)
    (hkeys : KeysReload X s) (hs1 : s1.Within (s.checkpoint .empty)) :
    Mates X (fun id => id ∈ s.actors ∨ id ∈ s1.actors)
      (fun p q => ∃ id, (s.transition.snapshot s.memory).1.objects.lookup id = some p ∧
        s.transition.objects.lookup id = some q)
      { s1 with
        transition := s1.transition.updateSnapshot (s.transition.snapshot s.memory).1 } s where
  one := by
    rintro p q p' _ ⟨id, hp, hq⟩ ⟨id', hp', hq'⟩
    constructor
    · rintro rfl
      cases snapshot_distinct hs.in id id' p hp hp'
      exact mem_unique hq hq'
    · rintro rfl
      cases hd id id' q hq hq'
      exact mem_unique hp hp'
  reads := by
    rintro p q ⟨id, hp, hq⟩
    obtain ⟨o, ho⟩ := Cells.has_iff_read.mp (hs.in (.account id) q hq)
    obtain ⟨_, hp', hnew, hcopy⟩ :=
      (snapshot_object s.transition s.memory (.account id)).2 q o hq ho
    cases hp.symm.trans hp'
    exact ⟨o.copy, o, (hs1.others p hnew).trans hcopy, ho, .copy (hkeys id q o hq ho)⟩
  objects := fun id => by
    rcases hq : s.transition.objects.lookup id with _ | q
    · exact .inl ⟨(snapshot_object s.transition s.memory (.account id)).1 hq, rfl⟩
    obtain ⟨o, ho⟩ := Cells.has_iff_read.mp (hs.in (.account id) q hq)
    obtain ⟨p, hp, -⟩ := (snapshot_object s.transition s.memory (.account id)).2 q o hq ho
    exact .inr ⟨p, q, hp, rfl, id, hp, hq⟩
  actors := fun id hid => by
    refine .inl ⟨lookup_eq_none.mpr fun h => hid (.inr h), lookup_eq_none.mpr fun h =>
      hid (.inl h)⟩
  receipts := rfl

/-- **After a revert.** The rest of the batch gives the same results and the same storage as without
    the reverted interaction, of which the sequence number and the fee alone are left, if no account
    that has got an actor so far takes part in it and no program uses such an actor. -/
theorem rest_after_revert {s₀ s' s₂ : ExecState} {batch : List IxRound} {e : IxRound} {r : Receipt}
    (hs : s₀.Sound) (hd : s₀.transition.Distinct) (hrun : Run (roundStep X) s₀ batch s)
    (hround : roundStep X s e s') (hbefore : beforeSettle X e s = some (s₂, r))
    (hrevert : r.status ≠ .receiptOk) (hkeys : KeysReload X s) :
    ∃ reduced, settle X e.ix r s = (.ok (), reduced) ∧
      ∀ rest : List ProgramRound,
        (∀ e' ∈ rest, e'.Avoids fun id => id ∈ s.actors ∨ id ∈ s'.actors) →
          SameRest X rest s' reduced := by
  have hsound := sound_run hs hrun
  have hdistinct := distinct_run hs hd hrun
  obtain ⟨_, _, hbefore', hs2, hsettle⟩ := roundStep_cases hsound hround
  cases hbefore.symm.trans hbefore'
  obtain ⟨_, s1, hactors, hints, hclose⟩ := beforeSettle_eq_some hbefore
  have hwithin := runInteraction_within hsound hactors hints
  have hmates := mates_reverted hsound hdistinct hkeys hwithin
  unfold ExecState.closeRun at hclose
  rw [if_neg hrevert] at hclose
  rw [← hclose] at hmates
  obtain ⟨_, reduced, hreduced, hmates', hs', hr'⟩ :=
    wp₂_of_eq hsettle (hmates.settle hs2 hsound)
  refine ⟨reduced, hreduced, fun rest hrest => ?_⟩
  have hsame : s'.actors = s1.actors := by
    have h := settle_actors.of_eq hsettle
    rw [h, hclose]
  refine hmates'.sameRest hs' hr' ?_
  rw [← hsame]
  exact hrest

end

/-! ## 8. A write that is reverted -/

namespace ActorSample

open SnapshotSample (accountID)
open RollbackSample (env sender)

/-- A second account. -/
def otherID : Identifier := ⟨3⟩

def logicID : LogicID := ⟨7⟩

/-- Two accounts. -/
def start : ExecState where
  memory := { objects := ⟨[sender, { sender with id := otherID }]⟩, heap := .empty }
  transition :=
    { objects := (AList.singleton accountID ⟨0⟩).insert otherID ⟨1⟩, systemObject := none
      auxiliaryObjects := ∅, receipts := ∅ }
  actors := ∅
  tank := .new 0 0

/-- An interaction of one operation. -/
def ix (id : Identifier) (hash : Hash) : Interaction where
  inner := { sender := ⟨id, 4, 0⟩, payer := nilIdentifier, fuelPrice := some 1, fuelLimit := 10
             ixOps := [], participants := [] }
  ops := [⟨nilIdentifier, ixAccountConfigure, .accountConfigure ⟨[], []⟩⟩]
  ps := AList.singleton id ⟨true, mutateLock, false⟩
  leaderCandidateAcc := id
  hash := hash
  size := 0
  signatures := []

/-- An entry is written through the actor of the sender, and the operation fails. -/
def failing : IxRound where
  ix := ix accountID ⟨5⟩
  outcomes :=
    [{ events := [.call (.actor accountID) (.setStorageEntry logicID [1] [2])]
       status := some .resultExceptionRaised }]

/-- The entry is looked for through the actor of an account. -/
def looking (id : Identifier) : ProgramRound where
  ix := ix id ⟨6⟩
  programs := [.read (.actor id) logicID [1] fun r => .done (match r with
    | some (.ok _) => some .resultOk
    | _ => some .resultExceptionRaised)]

/-- The state after the failed interaction. -/
def reverted : ExecState := (executeOne env (playing env failing.outcomes) failing.ix start).2

/-- The status of the receipt after the entry was looked for. -/
def found (s : ExecState) : Option ReceiptStatus :=
  ((executeRest env [looking accountID] s).2.transition.receipts.lookup ⟨6⟩).map (·.status)

/-- The failed interaction: the status of its receipt, the actors after it, and whether the entry is
    found after it and after its sequence number and fee alone. -/
def compared :
    Option (ReceiptStatus × List Identifier × Option ReceiptStatus × Option ReceiptStatus) :=
  match beforeSettle env failing start,
    executeOne env (playing env failing.outcomes) failing.ix start with
  | some (_, r), (.ok none, s') => match settle env failing.ix r start with
    | (.ok (), reduced) => some (r.status, s'.actors.keys, found s', found reduced)
    | _ => none
  | _, _ => none

theorem compared_eq : compared = some (.receiptStateReverted, [accountID], some .receiptOk,
    some .receiptStateReverted) := by decide +kernel

theorem compared_cases : ∃ s2 r reduced, beforeSettle env failing start = some (s2, r) ∧
    roundStep env start failing reverted ∧ settle env failing.ix r start = (.ok (), reduced) ∧
    r.status ≠ .receiptOk ∧ reverted.actors.keys = [accountID] ∧ found reverted = some .receiptOk ∧
    found reduced = some .receiptStateReverted := by
  have h := compared_eq
  unfold compared at h
  split at h
  case h_1 s2 r s' hbefore hexec =>
    split at h
    case h_1 reduced hsettle =>
      obtain ⟨hstatus, h⟩ := Prod.mk.inj (Option.some.inj h)
      obtain ⟨hactors, h⟩ := Prod.mk.inj h
      obtain ⟨hleft, hright⟩ := Prod.mk.inj h
      have hs' : reverted = s' := congrArg Prod.snd hexec
      rw [hs']
      exact ⟨s2, r, reduced, hbefore, hexec, hsettle, (fun hok => by cases hstatus.symm.trans hok),
        hactors, hleft, hright⟩
    case h_2 => cases h
  case h_2 => cases h

variable {p : Ptr Object}

theorem read_start {o : Object} (h : start.memory.objects.read p = some o) :
    o = sender ∨ o = { sender with id := otherID } := by
  obtain ⟨_ | _ | _⟩ := p
  · exact .inl (Option.some.inj h).symm
  · exact .inr (Option.some.inj h).symm
  · cases h

/-- The objects of the two accounts. -/
theorem lookup_start {id : Identifier} (h : start.transition.objects.lookup id = some p) :
    (id = otherID ∧ p = ⟨1⟩) ∨ (id = accountID ∧ p = ⟨0⟩) := by
  rcases GoMap.of_lookup_insert h with ⟨hid, hp⟩ | hold
  · exact .inl ⟨hid, hp⟩
  · obtain ⟨hid, hp⟩ := GoMap.of_lookup_singleton hold
    exact .inr ⟨hid, hp⟩

theorem start_sound : start.Sound where
  closed :=
    { kept := ⟨List.nil_prefix, List.nil_prefix, List.nil_prefix⟩
      closed := nofun
      objects := fun p o ho assetID q hq => by
        rcases read_start ho with rfl | rfl
        · cases hq
        · cases hq }
  places := fun place p hp => by
    cases place with
    | object target =>
      cases target with
      | account id =>
        rcases lookup_start hp with ⟨-, rfl⟩ | ⟨-, rfl⟩
        · exact Nat.one_lt_two
        · exact Nat.zero_lt_two
      | system => cases hp
    | auxiliary id => cases hp
    | actor id => cases hp

theorem start_distinct : start.transition.Distinct := by
  intro id id' p h h'
  rcases lookup_start h with ⟨rfl, rfl⟩ | ⟨rfl, rfl⟩
  · rcases lookup_start h' with ⟨rfl, -⟩ | ⟨-, hp⟩
    · rfl
    · cases hp
  · rcases lookup_start h' with ⟨-, hp⟩ | ⟨rfl, -⟩
    · cases hp
    · rfl

theorem start_keysReload : KeysReload env start := by
  intro id p o _ ho hkeys
  rcases read_start ho with rfl | rfl <;> cases hkeys

/-- **The other account** does not notice the revert. -/
theorem other_unaffected :
    ∃ s₂ r reduced, beforeSettle env failing start = some (s₂, r) ∧
      settle env failing.ix r start = (.ok (), reduced) ∧
      SameRest env [looking otherID] reverted reduced := by
  obtain ⟨s₂, r, -, hbefore, hround, -, hstatus, hactors, -⟩ := compared_cases
  obtain ⟨reduced, hreduced, hsame⟩ := rest_after_revert start_sound start_distinct .start hround
    hbefore hstatus start_keysReload
  have hother : ¬ (otherID ∈ start.actors ∨ otherID ∈ reverted.actors) := by
    rintro (h | h)
    · cases h
    · rw [mem_keys, hactors] at h
      revert h
      decide
  refine ⟨s₂, r, reduced, hbefore, hreduced, hsame _ fun e' he' => ?_⟩
  rw [List.mem_singleton.mp he']
  refine ⟨fun id hid => ?_, fun p hp => ?_⟩
  · obtain rfl : id = otherID := by simpa [looking, ix, mem_keys] using hid
    exact hother
  · rw [List.mem_singleton.mp hp]
    exact ⟨hother, fun _ => trivial⟩

/-- **The same account** finds the entry that was reverted. -/
theorem reverted_entry_read :
    ∃ s₂ r reduced, beforeSettle env failing start = some (s₂, r) ∧
      roundStep env start failing reverted ∧ r.status ≠ .receiptOk ∧
      settle env failing.ix r start = (.ok (), reduced) ∧ found reverted = some .receiptOk ∧
      found reduced = some .receiptStateReverted ∧
      ¬ SameRest env [looking accountID] reverted reduced := by
  obtain ⟨s₂, r, reduced, hbefore, hround, hsettle, hstatus, -, hleft, hright⟩ := compared_cases
  refine ⟨s₂, r, reduced, hbefore, hround, hstatus, hsettle, hleft, hright, fun hsame => ?_⟩
  have heq : found reverted = found reduced := by
    unfold found
    rw [hsame.receipts]
  rw [hleft, hright] at heq
  cases heq

end ActorSample

end GoMoi
