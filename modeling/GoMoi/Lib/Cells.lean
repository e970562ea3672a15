/-
  File:      GoMoi/Lib/Cells.lean
  Subject:   Memory cells of one type and the pointers to them.

  Go values that are shared through pointers are kept in cells: what one holder of a pointer writes
  another one reads. Cells are allocated one after the other and never freed, so the cells of an
  earlier memory are a first part of those of a later one as long as none of them is written
  (`Kept`).

  * `Cells.Kept c c'` -- the cells of `c` are cells of `c'`, with the same contents; allocating
    keeps all cells, and writing keeps those of an earlier memory if the written one is younger.
-/
import Mathlib.Data.List.Basic

namespace GoMoi

/-- `*α`, not nil. -/
@[ext] structure Ptr (α : Type) where
  addr : Nat

instance {α : Type} : DecidableEq (Ptr α) := fun _ _ => decidable_of_iff _ Ptr.ext_iff.symm

/-- Cells that hold an `α` each. -/
structure Cells (α : Type) where
  cells : List α

namespace Cells

variable {α : Type} {c c' c0 : Cells α} {p q : Ptr α} {a : α}

/-! ## 1. Reading, allocating, writing -/

def read (c : Cells α) (p : Ptr α) : Option α := c.cells[p.addr]?

/-- A new cell and the pointer to it. -/
def alloc (c : Cells α) (a : α) : Ptr α × Cells α := (⟨c.cells.length⟩, ⟨c.cells ++ [a]⟩)

/-- The cell changed in place. -/
def modify (c : Cells α) (p : Ptr α) (f : α → α) : Cells α := ⟨c.cells.modify p.addr f⟩

/-- The pointer leads to a cell. -/
def Has (c : Cells α) (p : Ptr α) : Prop := p.addr < c.cells.length

instance : Decidable (c.Has p) := inferInstanceAs (Decidable (_ < _))

theorem has_iff_read : c.Has p ↔ ∃ a, c.read p = some a := by
  unfold Has read
  rw [← Option.isSome_iff_exists, isSome_getElem?]

theorem read_modify (f : α → α) :
    (c.modify p f).read q = if q = p then (c.read q).map f else c.read q := by
  unfold read modify
  by_cases h : q = p
  · subst h
    simp
  · have hne : p.addr ≠ q.addr := fun e => h (Ptr.ext e.symm)
    simp [h, hne]

@[simp] theorem length_modify (f : α → α) : (c.modify p f).cells.length = c.cells.length :=
  List.length_modify ..

@[simp] theorem has_modify (f : α → α) : (c.modify p f).Has q ↔ c.Has q := by
  simp [Has]

@[simp] theorem has_alloc : (c.alloc a).2.Has q ↔ c.Has q ∨ q = (c.alloc a).1 := by
  obtain ⟨q⟩ := q
  simp only [Has, alloc, List.length_append, List.length_singleton, Ptr.mk.injEq]
  omega

theorem read_alloc_new : (c.alloc a).2.read (c.alloc a).1 = some a := by
  simp [read, alloc]

theorem read_alloc : (c.alloc a).2.read q = if q = (c.alloc a).1 then some a else c.read q := by
  obtain ⟨q⟩ := q
  simp only [read, alloc, Ptr.mk.injEq]
  rw [List.getElem?_append, List.getElem?_singleton]
  by_cases hlt : q < c.cells.length
  · rw [if_pos hlt, if_neg (by omega)]
  · rw [if_neg hlt, List.getElem?_eq_none (Nat.le_of_not_lt hlt)]
    split <;> split <;> first | rfl | omega

theorem of_read_alloc {b : α} (h : (c.alloc a).2.read q = some b) :
    c.read q = some b ∨ (q = (c.alloc a).1 ∧ b = a) := by
  rw [read_alloc] at h
  split at h
  case isTrue hq => exact .inr ⟨hq, (Option.some.inj h).symm⟩
  case isFalse => exact .inl h

/-! ## 2. Cells that stay as they are -/

/-- The cells of `c` are the first cells of `c'`. -/
def Kept (c c' : Cells α) : Prop := c.cells <+: c'.cells

namespace Kept

@[refl] theorem refl (c : Cells α) : c.Kept c := List.prefix_rfl

theorem trans {c1 c2 c3 : Cells α} (h : c1.Kept c2) (h' : c2.Kept c3) : c1.Kept c3 :=
  List.IsPrefix.trans h h'

instance : IsPreorder (Cells α) Kept := { refl := refl, trans := fun _ _ _ => trans }

theorem read (h : c.Kept c') (ha : c.read p = some a) : c'.read p = some a := by
  obtain ⟨t, ht⟩ := h
  unfold Cells.read at ha ⊢
  rw [← ht, List.getElem?_append_left (List.getElem?_eq_some_iff.mp ha).1, ha]

/-- What a pointer leads to, if it leads anywhere. -/
theorem read_eq (h : c.Kept c') (hp : c.Has p) : c'.read p = c.read p := by
  obtain ⟨a, ha⟩ := has_iff_read.mp hp
  rw [ha, h.read ha]

theorem has (h : c.Kept c') (hp : c.Has p) : c'.Has p :=
  Nat.lt_of_lt_of_le hp (List.IsPrefix.length_le h)

theorem new (c : Cells α) (a : α) : c.Kept (c.alloc a).2 := List.prefix_append _ _

theorem alloc (h : c0.Kept c) (a : α) : c0.Kept (c.alloc a).2 := h.trans (new c a)

/-- A write to a younger cell. -/
theorem modify (h : c0.Kept c) (hp : ¬ c0.Has p) (f : α → α) : c0.Kept (c.modify p f) := by
  refine List.prefix_iff_getElem?.mpr fun i hi => ?_
  have hne : p.addr ≠ i := by
    rintro rfl
    exact hp hi
  have hold := List.prefix_iff_getElem?.mp h i hi
  simp [Cells.modify, hne, hold]

end Kept

end Cells

end GoMoi
