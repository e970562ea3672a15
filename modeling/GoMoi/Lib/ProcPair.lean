/-
  File:      GoMoi/Lib/ProcPair.lean
  Subject:   Two calls side by side, on two states.

  `wp₂ x y Q R s t` -- `x` run in `s` and `y` run in `t` both return, with `Q` of their results and
  of the states they leave, or both panic in the same way, with `R` of the states they leave. As for
  `wp` there is a rule for each way to build a call; two calls of the same shape are taken apart in
  step.
-/
import GoMoi.Lib.Proc

namespace GoMoi

namespace Proc

variable {S T A B A' B' : Type}

/-- Both return with `Q`, or both panic in the same way with `R`. -/
def wp₂ (x : Proc S A) (y : Proc T B) (Q : A → B → S → T → Prop) (R : S → T → Prop)
    (s : S) (t : T) : Prop :=
  match x s, y t with
  | (.ok a, s'), (.ok b, t') => Q a b s' t'
  | (.error p, s'), (.error p', t') => p = p' ∧ R s' t'
  | _, _ => False

variable {x : Proc S A} {y : Proc T B} {Q Q' : A → B → S → T → Prop} {R R' : S → T → Prop}
  {s : S} {t : T}

@[simp] theorem wp₂_pure (a : A) (b : B) :
    wp₂ (pure a : Proc S A) (pure b : Proc T B) Q R s t ↔ Q a b s t := Iff.rfl

@[simp] theorem wp₂_self {Q : S → T → S → T → Prop} : wp₂ self self Q R s t ↔ Q s t s t := Iff.rfl

@[simp] theorem wp₂_assign {Q : Unit → Unit → S → T → Prop} (f : S → S) (g : T → T) :
    wp₂ (assign f) (assign g) Q R s t ↔ Q () () (f s) (g t) := Iff.rfl

/-- The rule of consequence. -/
theorem wp₂_mono (h : wp₂ x y Q R s t) (hQ : ∀ a b s' t', Q a b s' t' → Q' a b s' t')
    (hR : ∀ s' t', R s' t' → R' s' t') : wp₂ x y Q' R' s t := by
  unfold wp₂ at h ⊢
  split at h
  case h_1 a s' b t' hx hy => exact hQ a b s' t' h
  case h_2 p s' p' t' hx hy => exact ⟨h.1, hR s' t' h.2⟩
  case h_3 => exact h.elim

/-- A sequence. -/
theorem wp₂_bind {f : A → Proc S A'} {g : B → Proc T B'} {Q : A' → B' → S → T → Prop}
    (h : wp₂ x y (fun a b s' t' => wp₂ (f a) (g b) Q R s' t') R s t) :
    wp₂ (x >>= f) (y >>= g) Q R s t := by
  unfold wp₂ at h
  split at h
  case h_1 a s' b t' hx hy =>
    have hl : (x >>= f) s = f a s' := by simp [bind, hx]
    have hr : (y >>= g) t = g b t' := by simp [bind, hy]
    unfold wp₂
    rw [hl, hr]
    exact h
  case h_2 p s' p' t' hx hy =>
    have hl : (x >>= f) s = (.error p, s') := by simp [bind, hx]
    have hr : (y >>= g) t = (.error p', t') := by simp [bind, hy]
    unfold wp₂
    rw [hl, hr]
    exact h
  case h_3 => exact h.elim

/-- **The rule of composition.** -/
theorem wp₂_seq {f : A → Proc S A'} {g : B → Proc T B'} {P : A' → B' → S → T → Prop}
    (h : wp₂ x y Q R s t) (hf : ∀ a b s' t', Q a b s' t' → wp₂ (f a) (g b) P R s' t') :
    wp₂ (x >>= f) (y >>= g) P R s t :=
  wp₂_bind (wp₂_mono h hf fun _ _ h => h)

/-- The same call that does not touch the state. -/
theorem wp₂_ofGo {g : Go A} {Q : A → A → S → T → Prop} (hQ : ∀ a, g = .ok a → Q a a s t)
    (hR : R s t) : wp₂ (ofGo g) (ofGo g) Q R s t := by
  cases g with
  | ok a => exact hQ a rfl
  | error p => exact ⟨rfl, hR⟩

/-- Panics that are recovered. -/
theorem wp₂_recovered {Q : Option A → Option B → S → T → Prop}
    (h : wp₂ x y (fun a b => Q (some a) (some b)) (Q none none) s t) :
    wp₂ (recovered x) (recovered y) Q R s t := by
  unfold wp₂ at h
  split at h
  case h_1 a s' b t' hx hy =>
    unfold wp₂ recovered
    simp only [hx, hy]
    exact h
  case h_2 p s' p' t' hx hy =>
    unfold wp₂ recovered
    simp only [hx, hy]
    exact h.2
  case h_3 => exact h.elim

variable {Q1 : A → S → Prop} {Q2 : B → T → Prop}

/-- Two calls that do not panic. -/
theorem wp₂_of_wp (h1 : wp x Q1 (fun _ => False) s) (h2 : wp y Q2 (fun _ => False) t) :
    wp₂ x y (fun a b s' t' => Q1 a s' ∧ Q2 b t') R s t := by
  unfold wp at h1 h2
  unfold wp₂
  cases hx : x s with
  | mk r s' =>
    cases hy : y t with
    | mk r' t' =>
      rw [hx] at h1
      rw [hy] at h2
      rcases r with p | a
      · exact h1.elim
      cases r' with
      | error p => exact h2.elim
      | ok b => exact ⟨h1, h2⟩

/-- If the left call has returned, so has the right one. -/
theorem wp₂_of_eq {a : A} {s' : S} (hx : x s = (.ok a, s')) (h : wp₂ x y Q R s t) :
    ∃ b t', y t = (.ok b, t') ∧ Q a b s' t' := by
  unfold wp₂ at h
  rw [hx] at h
  cases hy : y t with
  | mk r t' =>
    rw [hy] at h
    cases r with
    | ok b => exact ⟨b, t', rfl, h⟩
    | error p => exact h.elim

/-- Equal results. -/
theorem wp₂_result {y : Proc T A} {Q : A → A → S → T → Prop} (h : wp₂ x y Q R s t)
    (hQ : ∀ a b s' t', Q a b s' t' → a = b) : (x s).1 = (y t).1 := by
  unfold wp₂ at h
  split at h
  case h_1 a s' b t' hx hy => rw [hx, hy, hQ a b s' t' h]
  case h_2 p s' p' t' hx hy => rw [hx, hy, h.1]
  case h_3 => exact h.elim

/-- The states that are left. -/
theorem wp₂_states (h : wp₂ x y Q R s t) (hQ : ∀ a b s' t', Q a b s' t' → R s' t') :
    R (x s).2 (y t).2 := by
  unfold wp₂ at h
  split at h
  case h_1 a s' b t' hx hy =>
    rw [hx, hy]
    exact hQ a b s' t' h
  case h_2 p s' p' t' hx hy =>
    rw [hx, hy]
    exact h.2
  case h_3 => exact h.elim

/-- What is known of each call alone is known of both. -/
theorem wp₂_and_wp {R1 : S → Prop} {R2 : T → Prop} (h : wp₂ x y Q R s t) (h1 : wp x Q1 R1 s)
    (h2 : wp y Q2 R2 t) :
    wp₂ x y (fun a b s' t' => Q a b s' t' ∧ Q1 a s' ∧ Q2 b t')
      (fun s' t' => R s' t' ∧ R1 s' ∧ R2 t') s t := by
  unfold wp at h1 h2
  unfold wp₂ at h ⊢
  split at h
  case h_1 a s' b t' hx hy =>
    rw [hx] at h1
    rw [hy] at h2
    exact ⟨h, h1, h2⟩
  case h_2 p s' p' t' hx hy =>
    rw [hx] at h1
    rw [hy] at h2
    exact ⟨h.1, h.2, h1, h2⟩
  case h_3 => exact h.elim

end Proc

end GoMoi
