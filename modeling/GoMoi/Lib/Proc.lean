/-
  File:      GoMoi/Lib/Proc.lean
  Subject:   Calls that work on a state, may panic, and run what they deferred either way.

  A computation of `Go` that panics leaves nothing behind. Where calls are deferred this is too
  little: they run on the state at the panic, and what they do there is done. `Proc S` keeps that
  state.

  * `wp x Q R s` -- run in `s`, `x` returns with `Q` or panics with `R`; one equation for each way
    to build a call, so that `simp` unfolds a body into what has to hold along it;
  * `wp_mono` -- the rule of consequence, by which a call is replaced by what is known of it;
  * `Fixes g x` -- `x` does not touch the part `g` of the state, however it ends;
  * `Returns P x` -- whatever `x` returns, from any state, satisfies `P`.
-/
import GoMoi.Lib.Go

namespace GoMoi

/-- A call on a state: how it ends, and the state it leaves. -/
def Proc (S A : Type) : Type := S → Except Panic A × S

namespace Proc

variable {S A B : Type}

/-! ## 1. Calls -/

instance : Monad (Proc S) where
  pure a := fun s => (.ok a, s)
  bind x f := fun s => match x s with
    | (.ok a, s') => f a s'
    | (.error p, s') => (.error p, s')

/-- The state as it is. -/
def self : Proc S S := fun s => (.ok s, s)

/-- Fields of the state assigned. -/
def assign (f : S → S) : Proc S Unit := fun s => (.ok (), f s)

/-- A call that does not touch the state. -/
def ofGo (g : Go A) : Proc S A := fun s => (g, s)

/-- `defer d(); x()`: a panic of `x` goes on after `d`, unless `d` panics itself. -/
def deferred (x d : Proc S Unit) : Proc S Unit := fun s =>
  match x s with
  | (.ok (), s') => d s'
  | (.error p, s') => match d s' with
    | (.ok (), s'') => (.error p, s'')
    | (.error p', s'') => (.error p', s'')

/-- `defer func() { recover() … }(); x()`: `none` if `x` has panicked; the state is the one at the
    panic. -/
def recovered (x : Proc S A) : Proc S (Option A) := fun s =>
  match x s with
  | (.ok a, s') => (.ok (some a), s')
  | (.error _, s') => (.ok none, s')

variable {f : B → Proc S A} {x : Proc S A} {s' : S} {a : A}

/-- A sequence after its first part has returned, or panicked. -/
theorem bind_of_ok {x : Proc S B} {b : B} (h : x s = (.ok b, s')) : (x >>= f) s = f b s' := by
  simp [bind, h]

theorem bind_of_error {x : Proc S B} {p : Panic} (h : x s = (.error p, s')) :
    (x >>= f) s = (.error p, s') := by
  simp [bind, h]

/-- A sequence that returns: both parts have. -/
theorem bind_eq_ok {x : Proc S B} (h : (x >>= f) s = (.ok a, s')) :
    ∃ b s1, x s = (.ok b, s1) ∧ f b s1 = (.ok a, s') := by
  simp only [bind] at h
  cases hx : x s with
  | mk r s1 =>
    rw [hx] at h
    cases r with
    | ok b => exact ⟨b, s1, rfl, h⟩
    | error p => cases h

theorem pure_eq_ok {a' : A} (h : (pure a : Proc S A) s = (.ok a', s')) : a = a' ∧ s = s' := by
  cases h
  exact ⟨rfl, rfl⟩

theorem recovered_eq (h : recovered x s = (.ok (some a), s')) : x s = (.ok a, s') := by
  unfold recovered at h
  cases hx : x s with
  | mk r s1 =>
    rw [hx] at h
    cases r with
    | ok b =>
      cases h
      rfl
    | error p => cases h

/-! ## 2. What holds afterwards -/

/-- Run in `s`, `x` returns some `a` with `Q a`, or panics with `R`. -/
def wp (x : Proc S A) (Q : A → S → Prop) (R : S → Prop) (s : S) : Prop :=
  match x s with
  | (.ok a, s') => Q a s'
  | (.error _, s') => R s'

/-- However `x` ends, `I` holds. -/
abbrev leaves (x : Proc S A) (I : S → Prop) : S → Prop := wp x (fun _ => I) I

variable {Q Q' : A → S → Prop} {R R' : S → Prop} {s : S}

@[simp] theorem wp_pure (a : A) : wp (pure a) Q R s ↔ Q a s := Iff.rfl

@[simp] theorem wp_bind (x : Proc S B) (f : B → Proc S A) :
    wp (x >>= f) Q R s ↔ wp x (fun b s' => wp (f b) Q R s') R s := by
  simp only [wp, bind]
  cases hx : x s with
  | mk r s' => cases r <;> rfl

@[simp] theorem wp_self {Q : S → S → Prop} : wp self Q R s ↔ Q s s := Iff.rfl

@[simp] theorem wp_assign {Q : Unit → S → Prop} (f : S → S) :
    wp (assign f) Q R s ↔ Q () (f s) := Iff.rfl

/-- A call that does not touch the state has its result, or panics where it is. -/
theorem wp_ofGo {g : Go A} : wp (ofGo g) Q R s ↔ (∀ a, g = .ok a → Q a s) ∧
    (∀ p, g = .error p → R s) := by
  unfold wp ofGo
  cases g <;> simp

@[simp] theorem wp_ite {c : Prop} [Decidable c] (x y : Proc S A) :
    wp (if c then x else y) Q R s ↔ (c → wp x Q R s) ∧ (¬ c → wp y Q R s) := by
  by_cases h : c <;> simp [h]

@[simp] theorem wp_deferred {Q : Unit → S → Prop} (x d : Proc S Unit) :
    wp (deferred x d) Q R s ↔
      wp x (fun _ s' => wp d Q R s') (fun s' => wp d (fun _ => R) R s') s := by
  simp only [wp, deferred]
  cases hx : x s with
  | mk r s' =>
    cases r with
    | ok a => rfl
    | error p =>
      simp only
      cases hd : d s' with
      | mk r' s'' => cases r' <;> rfl

theorem wp_recovered {Q : Option A → S → Prop} (h : wp x (fun a => Q (some a)) (Q none) s) :
    wp (recovered x) Q R s := by
  unfold wp at h ⊢
  unfold recovered
  cases hx : x s with
  | mk r s' =>
    rw [hx] at h
    cases r <;> exact h

/-- What is known of a call holds of one that has returned. -/
theorem wp_of_eq (hx : x s = (.ok a, s')) (h : wp x Q R s) : Q a s' := by
  unfold wp at h
  rw [hx] at h
  exact h

theorem wp_and (h : wp x Q R s) (h' : wp x Q' R' s) :
    wp x (fun a s' => Q a s' ∧ Q' a s') (fun s' => R s' ∧ R' s') s := by
  unfold wp at h h' ⊢
  cases hx : x s with
  | mk r s' =>
    rw [hx] at h h'
    cases r <;> exact ⟨h, h'⟩

/-- What holds either way is said of the state that is left. -/
theorem wp_state {I : S → Prop} : leaves x I s ↔ I (x s).2 := by
  unfold leaves wp
  cases x s with
  | mk r s' => cases r <;> rfl

/-- **The rule of consequence.** -/
theorem wp_mono (h : wp x Q R s) (hQ : ∀ a s', Q a s' → Q' a s') (hR : ∀ s', R s' → R' s') :
    wp x Q' R' s := by
  unfold wp at h ⊢
  cases hx : x s with
  | mk r s' =>
    rw [hx] at h
    cases r with
    | ok a => exact hQ a s' h
    | error p => exact hR s' h

/-- The same, if nothing is said anew of a panic. -/
theorem wp_post (h : wp x Q R s) (hQ : ∀ a s', Q a s' → Q' a s') : wp x Q' R s :=
  wp_mono h hQ fun _ h => h

/-- The same, after a call that never panics. -/
theorem wp_total (h : wp x Q (fun _ => False) s) (hQ : ∀ a s', Q a s' → Q' a s') : wp x Q' R s :=
  wp_mono h hQ fun _ h => h.elim

/-- The same, where a panic does not count. -/
theorem wp_weak (h : wp x Q R s) (hQ : ∀ a s', Q a s' → Q' a s') : wp x Q' (fun _ => True) s :=
  wp_mono h hQ fun _ _ => trivial

/-- **The rule of composition**: a call, and what follows on its result. -/
theorem wp_seq {B : Type} {f : A → Proc S B} {P : B → S → Prop} (h : wp x Q R s)
    (hf : ∀ a s', Q a s' → wp (f a) P R s') : wp (x >>= f) P R s := by
  rw [wp_bind]
  exact wp_post h hf

/-- The same, after a call that never panics. -/
theorem wp_seq_total {B : Type} {f : A → Proc S B} {P : B → S → Prop}
    (h : wp x Q (fun _ => False) s) (hf : ∀ a s', Q a s' → wp (f a) P R s') :
    wp (x >>= f) P R s := by
  rw [wp_bind]
  exact wp_total h hf

/-! ## 3. What a call does not touch -/

/-- However `x` ends, `g` of the state is as before. -/
def Fixes {G : Type} (g : S → G) (x : Proc S A) : Prop := ∀ s, g (x s).2 = g s

namespace Fixes

variable {G : Type} {g : S → G}

theorem of_eq {r : Except Panic A} {s s' : S} (h : Fixes g x) (hx : x s = (r, s')) :
    g s' = g s := by
  have := h s
  rw [hx] at this
  exact this

theorem pure (a : A) : Fixes g (Pure.pure a : Proc S A) := fun _ => rfl

theorem bind {x : Proc S B} (hx : Fixes g x) (hf : ∀ b, Fixes g (f b)) : Fixes g (x >>= f) := by
  intro s
  have hxs := hx s
  simp only [Bind.bind]
  cases hs : x s with
  | mk r s' =>
    rw [hs] at hxs
    cases r with
    | ok b => exact (hf b s').trans hxs
    | error p => exact hxs

theorem ret {f : A → B} (hx : Fixes g x) : Fixes g (x >>= fun a => Pure.pure (f a)) :=
  hx.bind .pure

theorem self : Fixes g (Proc.self : Proc S S) := fun _ => rfl

theorem ofGo (x : Go A) : Fixes g (Proc.ofGo x) := fun _ => rfl

theorem assign {f : S → S} (hf : ∀ s, g (f s) = g s) : Fixes g (Proc.assign f) := hf

theorem ite {c : Prop} [Decidable c] {y : Proc S A} (hx : Fixes g x) (hy : Fixes g y) :
    Fixes g (if c then x else y) := by
  by_cases h : c
  · rw [if_pos h]
    exact hx
  · rw [if_neg h]
    exact hy

end Fixes

/-- A call that does not panic leaves what it does not touch. -/
theorem wp_fixes {G : Type} {g : S → G} (hx : Fixes g x) (h : wp x Q (fun _ => False) s) :
    wp x (fun _ s' => g s' = g s) (fun _ => False) s := by
  unfold wp at h ⊢
  cases hs : x s with
  | mk r s' =>
    rw [hs] at h
    cases r with
    | ok a => exact hx.of_eq hs
    | error p => exact h

/-! ## 4. What a call can return -/

/-- If `x` returns, its result satisfies `P`. -/
def Returns (P : A → Prop) (x : Proc S A) : Prop := ∀ s a s', x s = (.ok a, s') → P a

namespace Returns

variable {P : A → Prop}

theorem pure {a : A} (h : P a) : Returns P (Pure.pure a : Proc S A) := by
  intro s b s' hb
  obtain ⟨rfl, -⟩ := pure_eq_ok hb
  exact h

theorem bind {x : Proc S B} (h : ∀ b, Returns P (f b)) : Returns P (x >>= f) := by
  intro s a s' ha
  obtain ⟨b, s1, -, hf⟩ := bind_eq_ok ha
  exact h b s1 a s' hf

/-- A sequence whose first call is known. -/
theorem bind_of {Q : B → Prop} {x : Proc S B} (hx : Returns Q x) (h : ∀ b, Q b → Returns P (f b)) :
    Returns P (x >>= f) := by
  intro s a s' ha
  obtain ⟨b, s1, hb, hf⟩ := bind_eq_ok ha
  exact h b (hx s b s1 hb) s1 a s' hf

end Returns

end Proc

end GoMoi
