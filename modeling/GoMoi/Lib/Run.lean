/-
  File:      GoMoi/Lib/Run.lean
  Subject:   Runs of a state machine that is driven by events, and the rules to reason on them.

  A machine is a relation `step s e s'`: in state `s` the event `e` can lead to `s'`. A machine
  given by a function, by a function that may panic or by a function with an oracle is such a
  relation, and so is a machine whose steps are restricted to those that meet a condition on the
  state before and the event (`Guarded`), which is how "every run whose steps all meet `ok`" is
  said.

  * `Run step s₀ es s` -- the events `es`, in this order, lead from `s₀` to `s`;
  * `Run.invariant` -- what holds at the start and is kept by a step holds at the end;
  * `Run.related` -- a reflexive and transitive relation that every step meets relates the
    start to the end;
  * `Along step P s es` -- of a machine given by a function: `P` holds at each event of the run;
    `Along.congr` -- two conditions that agree where the second has held so far.
-/
import Mathlib.Logic.Basic
import Mathlib.Data.List.Induction

namespace GoMoi

variable {S E : Type}

/-- The events `es` lead from `s₀` to the last argument. -/
inductive Run (step : S → E → S → Prop) (s₀ : S) : List E → S → Prop where
  | start : Run step s₀ [] s₀
  | snoc {es : List E} {s s' : S} (h : Run step s₀ es s) (e : E) (hs : step s e s') :
      Run step s₀ (es ++ [e]) s'

/-- The machine restricted to the steps that meet `ok`. -/
def Guarded (ok : S → E → Prop) (step : S → E → S → Prop) : S → E → S → Prop :=
  fun s e s' => ok s e ∧ step s e s'

namespace Run

variable {step step' : S → E → S → Prop} {s₀ s : S} {es : List E}

/-- **The invariant rule.** The invariant may speak about the events so far. -/
theorem invariant {I : List E → S → Prop} (h0 : I [] s₀)
    (hstep : ∀ es s e s', I es s → step s e s' → I (es ++ [e]) s') (h : Run step s₀ es s) :
    I es s := by
  induction h with
  | start => exact h0
  | snoc _ e hs ih => exact hstep _ _ e _ ih hs

/-- **The relation rule**: a preorder that each step meets relates the start to the end. -/
theorem related {R : S → S → Prop} (hrefl : ∀ s, R s s) (htrans : ∀ a b c, R a b → R b c → R a c)
    (hstep : ∀ s e s', step s e s' → R s s') (h : Run step s₀ es s) : R s₀ s := by
  induction h with
  | start => exact hrefl _
  | snoc _ e hs ih => exact htrans _ _ _ ih (hstep _ e _ hs)

/-- A run may also be extended at its start. -/
theorem cons {s1 : S} {e : E} (hs : step s₀ e s1) (h : Run step s1 es s) :
    Run step s₀ (e :: es) s := by
  induction h with
  | start => exact .snoc .start e hs
  | snoc _ e' hs' ih => exact .snoc ih e' hs'

/-- The run up to an event, and its step. -/
theorem split {es1 es2 : List E} {e : E} (h : Run step s₀ (es1 ++ e :: es2) s) :
    ∃ s1 s2, Run step s₀ es1 s1 ∧ step s1 e s2 := by
  induction es2 using List.reverseRecOn generalizing s with
  | nil =>
    generalize hes : es1 ++ [e] = es at h
    rcases h with _ | ⟨h, e', hs⟩
    · simp at hes
    obtain ⟨rfl, he⟩ := List.append_inj' hes rfl
    cases he
    exact ⟨_, _, h, hs⟩
  | append_singleton es2 e2 ih =>
    generalize hes : es1 ++ e :: (es2 ++ [e2]) = es at h
    rcases h with _ | ⟨h, _, -⟩
    · simp at hes
    rw [← List.cons_append, ← List.append_assoc] at hes
    obtain ⟨rfl, _⟩ := List.append_inj' hes rfl
    exact ih h

/-- A loop that returns is a run. -/
theorem of_foldlM {ε : Type} {f : S → E → Except ε S} (h : es.foldlM f s₀ = .ok s) :
    Run (fun s e s' => f s e = .ok s') s₀ es s := by
  induction es generalizing s₀ with
  | nil =>
    cases h
    exact .start
  | cons e es ih =>
    rw [List.foldlM_cons] at h
    rcases hf : f s₀ e with p | _
    · rw [hf] at h
      cases h
    rw [hf] at h
    exact .cons hf (ih h)

theorem mono (hsub : ∀ s e s', step s e s' → step' s e s') (h : Run step s₀ es s) :
    Run step' s₀ es s := by
  induction h with
  | start => exact .start
  | snoc _ e hs ih => exact .snoc ih e (hsub _ e _ hs)

/-- Events that stand for others. -/
theorem map {E' : Type} {g : E' → E} {es : List E'}
    (h : Run (fun s e s' => step s (g e) s') s₀ es s) : Run step s₀ (es.map g) s := by
  induction h with
  | start => exact .start
  | snoc _ e hs ih =>
    rw [List.map_append]
    exact .snoc ih (g e) hs

end Run

/-- `P` holds at each of the events, in the state that the events before it have led to. -/
def Along (step : S → E → S) (P : S → E → Prop) : S → List E → Prop
  | _, [] => True
  | s, e :: es => P s e ∧ Along step P (step s e) es

variable {step : S → E → S} {I : S → Prop}

/-- **The rule for an exact condition.** -/
theorem Along.congr {P Q : S → E → Prop} (hI : ∀ s e, I s → Q s e → I (step s e))
    (h : ∀ s e, I s → (P s e ↔ Q s e)) (es : List E) {s : S} (hs : I s) :
    Along step P s es ↔ Along step Q s es := by
  induction es generalizing s with
  | nil => exact Iff.rfl
  | cons e es ih =>
    unfold Along
    rw [h s e hs]
    exact and_congr_right fun hq => ih (hI s e hs hq)

end GoMoi
