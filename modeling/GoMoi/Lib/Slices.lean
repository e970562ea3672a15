/-
  File:      GoMoi/Lib/Slices.lean
  Subject:   Go slices: a length over a backing array that several slices may share.

  `append` writes into the backing array while there is room and moves to a new array otherwise, so
  two slices over one array may see each other's elements. An array that grows gets as much room as
  the runtime likes.

  * `Cells.KeptOff P c c'` -- the cells of `c` outside `P` have the same contents in `c'`;
  * what each operation does to the elements of its slice, and that it writes to the array of its
    slice alone.
-/
import GoMoi.Lib.Cells

namespace GoMoi

open List Cells

/-! ## 1. Writing within some cells -/

namespace Cells

variable {α : Type} {c c' c'' : Cells α} {p : Ptr α} {P Q : Ptr α → Prop}

/-- The cells outside `P` are as they were. -/
def KeptOff (P : Ptr α → Prop) (c c' : Cells α) : Prop :=
  c.cells.length ≤ c'.cells.length ∧ ∀ p, c.Has p → ¬ P p → c'.read p = c.read p

theorem KeptOff.refl (c : Cells α) : KeptOff P c c := ⟨Nat.le_refl _, fun _ _ _ => rfl⟩

section

variable (h : KeptOff P c c')
include h

theorem KeptOff.has (hp : c.Has p) : c'.Has p := Nat.lt_of_lt_of_le hp h.1

theorem KeptOff.mono (hPQ : ∀ p, P p → Q p) : KeptOff Q c c' :=
  ⟨h.1, fun p hp hq => h.2 p hp fun hP => hq (hPQ p hP)⟩

theorem KeptOff.trans (h' : KeptOff P c' c'') : KeptOff P c c'' :=
  ⟨Nat.le_trans h.1 h'.1, fun p hp hP => (h'.2 p (h.has hp) hP).trans (h.2 p hp hP)⟩

/-- A write to a cell of `P`, or to a younger one. -/
theorem KeptOff.modify (hq : P q ∨ ¬ c.Has q) (f : α → α) : KeptOff P c (c'.modify q f) := by
  refine ⟨(length_modify f).symm ▸ h.1, fun p hp hP => ?_⟩
  have hne : p ≠ q := by
    rintro rfl
    rcases hq with hq | hq
    · exact hP hq
    · exact hq hp
  rw [read_modify, if_neg hne]
  exact h.2 p hp hP

theorem KeptOff.alloc (a : α) : KeptOff P c (c'.alloc a).2 := by
  refine ⟨Nat.le_trans h.1 (Nat.le_of_lt (by simp [Cells.alloc])), fun p hp hP => ?_⟩
  have hne : p ≠ (c'.alloc a).1 := by
    rintro rfl
    exact Nat.lt_irrefl _ (h.has hp)
  rw [read_alloc, if_neg hne]
  exact h.2 p hp hP

end

theorem Kept.keptOff (h : c.Kept c') : KeptOff P c c' :=
  ⟨List.IsPrefix.length_le h, fun _ hp _ => h.read_eq hp⟩

theorem keptOff_modify (f : α → α) : KeptOff (· = p) c (c.modify p f) := by
  refine ⟨Nat.le_of_eq (length_modify f).symm, fun q _ hq => ?_⟩
  rw [read_modify, if_neg hq]

theorem not_has_alloc (a : α) : ¬ c.Has (c.alloc a).1 := Nat.lt_irrefl _

end Cells

/-! ## 2. Slices -/

/-- A backing array: its room, and the elements written to it so far. -/
structure Backing (α : Type) where
  cap : Nat
  slots : List α

/-- `[]α`. -/
structure Slice (α : Type) where
  array : Ptr (Backing α)
  len : Nat

namespace Slice

variable {α : Type} {c c' : Cells (Backing α)} {s t : Slice α} {xs : List α}

def elems (c : Cells (Backing α)) (s : Slice α) : List α :=
  match c.read s.array with
  | none => []
  | some b => b.slots.take s.len

/-- A new slice with the elements `xs`. -/
def make (xs : List α) (c : Cells (Backing α)) : Slice α × Cells (Backing α) :=
  (⟨(c.alloc ⟨xs.length, xs⟩).1, xs.length⟩, (c.alloc ⟨xs.length, xs⟩).2)

/-- `append(s, x)`; a new array gets room for `spare` elements more. -/
def append (s : Slice α) (x : α) (spare : Nat) (c : Cells (Backing α)) :
    Slice α × Cells (Backing α) :=
  match c.read s.array with
  | none => make [x] c
  | some b =>
    if s.len < b.cap then
      (⟨s.array, s.len + 1⟩, c.modify s.array fun b =>
        { b with slots := b.slots.take s.len ++ x :: b.slots.drop (s.len + 1) })
    else
      let grown := c.alloc ⟨s.len + 1 + spare, b.slots.take s.len ++ [x]⟩
      (⟨grown.1, s.len + 1⟩, grown.2)

/-- `s[i] = x`, for an index within the slice. -/
def store (s : Slice α) (i : Nat) (x : α) (c : Cells (Backing α)) : Cells (Backing α) :=
  c.modify s.array fun b => { b with slots := b.slots.set i x }

/-- The slice lies within its array. -/
def Ok (c : Cells (Backing α)) (s : Slice α) : Prop :=
  ∃ b, c.read s.array = some b ∧ s.len ≤ b.slots.length

theorem Ok.has (h : s.Ok c) : c.Has s.array := by
  obtain ⟨b, hb, -⟩ := h
  exact has_iff_read.mpr ⟨b, hb⟩

theorem elems_of_read {b : Backing α} (h : c.read s.array = some b) :
    s.elems c = b.slots.take s.len := by
  simp [elems, h]

theorem length_elems (h : s.Ok c) : (s.elems c).length = s.len := by
  obtain ⟨b, hb, hlen⟩ := h
  rw [elems_of_read hb, length_take, Nat.min_eq_left hlen]

theorem elems_congr (h : c'.read s.array = c.read s.array) : s.elems c' = s.elems c := by
  simp [elems, h]

theorem Ok.congr (hs : s.Ok c) (h : c'.read s.array = c.read s.array) : s.Ok c' := by
  obtain ⟨b, hb, hlen⟩ := hs
  exact ⟨b, h.trans hb, hlen⟩

/-! ### A new slice -/

theorem read_make : (make xs c).2.read (make xs c).1.array = some ⟨xs.length, xs⟩ :=
  read_alloc_new

theorem make_ok : (make xs c).1.Ok (make xs c).2 := ⟨_, read_make, Nat.le_refl _⟩

@[simp] theorem elems_make : (make xs c).1.elems (make xs c).2 = xs := by
  rw [elems_of_read read_make]
  exact take_length

theorem make_kept : c.Kept (make xs c).2 := .new c _

theorem make_new : ¬ c.Has (make xs c).1.array := not_has_alloc ⟨xs.length, xs⟩

/-! ### One more element -/

theorem elems_append (h : s.Ok c) (x : α) (spare : Nat) :
    (append s x spare c).1.elems (append s x spare c).2 = s.elems c ++ [x]
      ∧ (append s x spare c).1.Ok (append s x spare c).2 := by
  obtain ⟨b, hb, hlen⟩ := h
  simp only [append, hb]
  split
  case isTrue =>
    have hread : (c.modify s.array fun b =>
        { b with slots := b.slots.take s.len ++ x :: b.slots.drop (s.len + 1) }).read s.array
        = some { b with slots := b.slots.take s.len ++ x :: b.slots.drop (s.len + 1) } := by
      rw [read_modify, if_pos rfl, hb]
      rfl
    refine ⟨?_, _, hread, ?_⟩
    · rw [elems_of_read (s := ⟨s.array, s.len + 1⟩) hread, elems_of_read hb]
      rw [take_append, length_take, Nat.min_eq_left hlen, Nat.add_sub_cancel_left,
        take_take, Nat.min_eq_right (Nat.le_succ _)]
      rfl
    · show s.len + 1 ≤ (b.slots.take s.len ++ x :: b.slots.drop (s.len + 1)).length
      rw [length_append, length_take, Nat.min_eq_left hlen, length_cons]
      omega
  case isFalse =>
    have hread : (c.alloc ⟨s.len + 1 + spare, b.slots.take s.len ++ [x]⟩).2.read
        (c.alloc ⟨s.len + 1 + spare, b.slots.take s.len ++ [x]⟩).1
        = some ⟨s.len + 1 + spare, b.slots.take s.len ++ [x]⟩ := read_alloc_new
    have hlength : (b.slots.take s.len ++ [x]).length = s.len + 1 := by
      rw [length_append, length_take, Nat.min_eq_left hlen, length_singleton]
    refine ⟨?_, _, hread, Nat.le_of_eq hlength.symm⟩
    rw [elems_of_read (s := ⟨_, s.len + 1⟩) hread, elems_of_read hb]
    exact take_of_length_le (Nat.le_of_eq hlength)

/-- An append writes to the array of its slice alone, or moves to a new one. -/
theorem append_frame (h : s.Ok c) (x : α) (spare : Nat) :
    Cells.KeptOff (· = s.array) c (append s x spare c).2
      ∧ ((append s x spare c).1.array = s.array ∨ ¬ c.Has (append s x spare c).1.array) := by
  obtain ⟨b, hb, -⟩ := h
  simp only [append, hb]
  split
  case isTrue => exact ⟨keptOff_modify _, .inl rfl⟩
  case isFalse =>
    exact ⟨(Cells.Kept.new c _).keptOff, .inr (Nat.lt_irrefl _)⟩

/-! ### One element changed -/

theorem elems_store (h : s.Ok c) (x : α) (i : Nat) :
    s.elems (store s i x c) = (s.elems c).set i x ∧ s.Ok (store s i x c) := by
  obtain ⟨b, hb, hlen⟩ := h
  have hread : (store s i x c).read s.array = some { b with slots := b.slots.set i x } := by
    rw [store, read_modify, if_pos rfl, hb]
    rfl
  refine ⟨?_, _, hread, ?_⟩
  · rw [elems_of_read hread, elems_of_read hb, take_set]
  · show s.len ≤ (b.slots.set i x).length
    rw [length_set]
    exact hlen

end Slice

end GoMoi
