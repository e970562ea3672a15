/-
  File:      GoMoi/Lib/Go.lean
  Subject:   What a call of a Go function can do: return, return an error value, or panic.

  A Go function without a panic is a plain function. One that can panic is a computation of
  `Go`, which is core's `Except` over the reasons to panic, so its laws are core's. An error
  VALUE is not a panic: it is returned, mostly as the second half of a pair, and nothing in the
  language ties the first half to it. Pairs `(v, err)` are therefore kept as pairs
  (`α × Option (GoError σ)`, `none` is Go's `nil`), and only a function whose first half is
  unusable with an error returns `Except (GoError σ)`.

  * `Panic`, `Go` -- the panics of the runtime and the computations that may raise them;
  * `GoError σ` -- error values over the package variables `σ`, with `wrapErr` and `is` as
    `github.com/pkg/errors` documents them: wrapping `nil` is `nil`.
-/
import Mathlib.Algebra.Group.Nat.Defs
import Mathlib.Data.List.Basic

namespace GoMoi

/-! ## 1. Panics -/

/-- Why a goroutine panics. -/
inductive Panic where
  | nilDeref
  | indexOutOfRange
  | sliceBounds
  | makeslice
  | explicit (text : String)
  deriving DecidableEq, Repr

/-- A computation that returns an `α` or panics. -/
abbrev Go (α : Type) : Type := Except Panic α

namespace Go

variable {α : Type} {l : List α}

/-- A bind returns exactly if both halves do. -/
theorem bind_eq_ok {ε β : Type} {x : Except ε α} {f : α → Except ε β} {b : β} :
    x >>= f = .ok b ↔ ∃ a, x = .ok a ∧ f a = .ok b := by
  rcases x with p | a
  · constructor
    · intro h
      cases h
    · rintro ⟨a, h, _⟩
      cases h
  constructor
  · intro h
    exact ⟨a, rfl, h⟩
  · rintro ⟨_, h, hf⟩
    cases h
    exact hf

/-- A loop none of whose rounds panics. -/
theorem mapM_eq_ok {β : Type} {f : α → Go β} {g : α → β} (h : ∀ a ∈ l, f a = .ok (g a)) :
    l.mapM f = .ok (l.map g) := by
  induction l with
  | nil => rfl
  | cons a l ih =>
    rw [List.mapM_cons, h a List.mem_cons_self, ih fun b hb => h b (List.mem_cons_of_mem a hb)]
    rfl

/-- The pointer behind a Go reference; reading through `nil` panics. -/
def deref {α : Type} : Option α → Go α
  | none => .error .nilDeref
  | some a => .ok a

/-- What has panicked has not returned. -/
theorem not_ok {A : Type} (p : Panic) : ¬ ∃ a : A, (.error p : Go A) = .ok a := by
  rintro ⟨_, h⟩
  cases h

theorem deref_eq_ok {x : Option α} {a : α} : deref x = .ok a ↔ x = some a := by
  cases x <;> simp [deref]

end Go

/-! ## 2. Error values -/

/-- An error value over the package variables `σ`: such a variable itself, a fresh
    `errors.New`, or either of them wrapped with a message. -/
inductive GoError (σ : Type) where
  | sentinel (e : σ)
  | new (text : String)
  | wrap (cause : GoError σ) (text : String)
  deriving DecidableEq, Repr

namespace GoError

variable {σ : Type}

/-- `errors.Wrap`: "Wrap returns an error annotating err with a stack trace at the point Wrap is
    called, and the supplied message. If err is nil, Wrap returns nil." -/
def wrapErr (err : Option (GoError σ)) (text : String) : Option (GoError σ) :=
  err.map (.wrap · text)

/-- `errors.Is`: the target stands somewhere in the chain of causes. -/
def is [DecidableEq σ] : GoError σ → σ → Bool
  | .sentinel e, target => e = target
  | .new _, _ => false
  | .wrap cause _, target => is cause target

end GoError

/-! ## 3. Slices -/

/-- `s[i]` for a signed index. -/
def sliceAt {α : Type} (s : List α) (i : Int) : Go α :=
  if i < 0 then .error .indexOutOfRange
  else match s[i.toNat]? with
    | none => .error .indexOutOfRange
    | some a => .ok a

theorem sliceAt_natCast {α : Type} {s : List α} {i : Nat} {a : α} (h : s[i]? = some a) :
    sliceAt s (i : Int) = .ok a := by
  simp [sliceAt, h]

/-! ## 4. Integer conversions -/

/-- `int32(n)`: the low 32 bits, read as a signed number. -/
def int32 (n : Int) : Int := (Int32.ofInt n).toInt

theorem int32_of_lt {n : Nat} (h : n < 2 ^ 31) : int32 n = n := by
  have hs : Int32.size = 2 ^ 32 := rfl
  unfold int32
  rw [Int32.toInt_ofInt, hs]
  apply Int.bmod_eq_of_le <;> omega

end GoMoi
