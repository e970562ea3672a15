/-
  File:      GoMoi/Lib/RefCount.lean
  Subject:   Handles that come and go, and counters that say how many handles share a thing.

  A family numbers the handles in the order in which they appeared; a handle that is freed leaves
  its place empty. Each handle holds a pointer to a counter. A counter may say more than there are
  handles (a handle that goes without counting itself off), never less, and this is all that copy on
  write needs: who finds a counter of at most one shares with no one.

  * `Counted` -- no counter says less than there are handles on it; `Counted.share`, `fresh`,
    `detach`, `release`, `drop` for each way in which handles and counters change;
  * `Counted.solo` -- a counter of at most one has at most one handle.
-/
import GoMoi.Lib.Cells

namespace GoMoi

open List

/-! ## 1. Families -/

/-- What the handles hold, by their number. -/
abbrev Family (α : Type) : Type := List (Option α)

namespace Family

variable {α β : Type} {f : Family α} {i j : Nat} {a : α}

/-- What the handle `i` holds, if it is there. -/
def live (f : Family α) (i : Nat) : Option α := f[i]?.join

def add (f : Family α) (a : α) : Family α := f ++ [some a]

def put (f : Family α) (i : Nat) (a : α) : Family α := f.set i (some a)

def free (f : Family α) (i : Nat) : Family α := f.set i none

theorem live_eq_some : f.live i = some a ↔ f[i]? = some (some a) := by
  unfold live
  cases f[i]? <;> simp

theorem lt_of_live (h : f.live i = some a) : i < f.length :=
  (List.getElem?_eq_some_iff.mp (live_eq_some.mp h)).1

theorem live_add : (f.add a).live j = if j = f.length then some a else f.live j := by
  unfold live add
  rw [List.getElem?_append, List.getElem?_singleton]
  by_cases hlt : j < f.length
  · rw [if_pos hlt, if_neg (by omega)]
  · rw [if_neg hlt, List.getElem?_eq_none (Nat.le_of_not_lt hlt)]
    split <;> split <;> first | rfl | omega

theorem live_put (h : i < f.length) : (f.put i a).live j = if j = i then some a else f.live j := by
  unfold live put
  by_cases hj : j = i
  · subst hj
    simp [h]
  · simp [hj, Ne.symm hj]

theorem live_free : (f.free i).live j = if j = i then none else f.live j := by
  unfold live free
  by_cases hj : j = i
  · subst hj
    rw [if_pos rfl, List.getElem?_set, if_pos rfl]
    split <;> rfl
  · simp [hj, Ne.symm hj]

variable (g : α → β)

theorem live_map : live (f.map (Option.map g)) i = (f.live i).map g := by
  unfold live
  rw [List.getElem?_map]
  cases f[i]? with
  | none => rfl
  | some x => cases x <;> rfl

theorem map_add : (f.add a).map (Option.map g) = add (f.map (Option.map g)) (g a) :=
  map_append

theorem map_put : (f.put i a).map (Option.map g) = put (f.map (Option.map g)) i (g a) := map_set

theorem map_free : (f.free i).map (Option.map g) = free (f.map (Option.map g)) i := map_set

theorem put_live (h : f.live i = some a) : f.put i a = f := by
  obtain ⟨_, hget⟩ := List.getElem?_eq_some_iff.mp (live_eq_some.mp h)
  rw [put, ← hget, set_getElem_self]

theorem put_put (b : α) : (f.put i a).put i b = f.put i b := set_set ..

@[simp] theorem length_add : (f.add a).length = f.length + 1 := length_append

@[simp] theorem length_put : (f.put i a).length = f.length := length_set

@[simp] theorem length_free : (f.free i).length = f.length := length_set

end Family

open Family

/-! ## 2. Counters -/

namespace RefCount

variable {hs : Family (Ptr Nat)} {c : Cells Nat} {r q : Ptr Nat} {i j n : Nat}

/-- What a counter says. -/
def refs (c : Cells Nat) (r : Ptr Nat) : Nat := (c.read r).getD 0

theorem refs_modify (f : Nat → Nat) (h : c.Has r) :
    refs (c.modify r f) q = if q = r then f (refs c q) else refs c q := by
  unfold refs
  rw [Cells.read_modify]
  by_cases hq : q = r
  · obtain ⟨m, hm⟩ := Cells.has_iff_read.mp h
    simp [hq, hm]
  · simp [hq]

theorem refs_alloc : refs (c.alloc n).2 q = if q = (c.alloc n).1 then n else refs c q := by
  unfold refs
  rw [Cells.read_alloc]
  split <;> rfl

/-- No counter says less than there are handles on it. -/
def Counted (hs : Family (Ptr Nat)) (c : Cells Nat) : Prop := ∀ r, hs.count (some r) ≤ refs c r

namespace Counted

theorem start : Counted [] c := fun _ => Nat.zero_le _

section

variable (h : Counted hs c)
include h

theorem pos (hi : hs.live i = some r) : 0 < refs c r :=
  Nat.lt_of_lt_of_le
    (count_pos_iff.mpr (mem_of_getElem? (live_eq_some.mp hi))) (h r)

theorem has (hi : hs.live i = some r) : c.Has r := by
  have hpos := h.pos hi
  unfold refs at hpos
  cases hr : c.read r with
  | none => simp [hr] at hpos
  | some m => exact Cells.has_iff_read.mpr ⟨m, hr⟩

/-- The pointer to a new counter is on no handle yet. -/
theorem count_new (n : Nat) : hs.count (some (c.alloc n).1) = 0 := by
  have hz : refs c (c.alloc n).1 = 0 := by
    simp [refs, Cells.read, Cells.alloc]
  have hle := h (c.alloc n).1
  omega

/-- One more handle on a counter. -/
theorem share (hi : hs.live i = some r) : Counted (hs.add r) (c.modify r (· + 1)) := by
  intro q
  have hq := h q
  rw [refs_modify _ (h.has hi), add, count_append, count_singleton]
  by_cases e : q = r
  · subst e
    simpa using hq
  · have e' : ¬ r = q := Ne.symm e
    simpa [e, e'] using hq

/-- A handle with a counter of its own. -/
theorem fresh : Counted (hs.add (c.alloc 1).1) (c.alloc 1).2 := by
  intro q
  have hq := h q
  have hnew := h.count_new 1
  rw [refs_alloc, add, count_append, count_singleton]
  by_cases e : q = (c.alloc 1).1
  · subst e
    simp [hnew]
  · have e' : ¬ (c.alloc 1).1 = q := Ne.symm e
    simpa [e, e'] using hq

/-- A handle that counts itself off and goes. -/
theorem release (hi : hs.live i = some r) : Counted (hs.free i) (c.modify r (· - 1)) := by
  intro q
  have hq := h q
  obtain ⟨hlt, hget⟩ := List.getElem?_eq_some_iff.mp (live_eq_some.mp hi)
  rw [refs_modify _ (h.has hi), free, count_set hlt, hget]
  by_cases e : q = r
  · subst e
    simpa using Nat.sub_le_sub_right hq 1
  · have e' : ¬ r = q := Ne.symm e
    simpa [e, e'] using hq

/-- A handle that goes and is not counted off. -/
theorem drop (hi : hs.live i = some r) : Counted (hs.free i) c := by
  intro q
  obtain ⟨hlt, _⟩ := List.getElem?_eq_some_iff.mp (live_eq_some.mp hi)
  refine Nat.le_trans ?_ (h q)
  rw [free, count_set hlt]
  simp

/-- A handle that moves from its counter to one of its own. -/
theorem detach (hi : hs.live i = some r) :
    Counted (hs.put i ((c.modify r (· - 1)).alloc 1).1) ((c.modify r (· - 1)).alloc 1).2 := by
  intro q
  have hfree := h.release hi
  have hq := hfree q
  have hnew := hfree.count_new 1
  obtain ⟨hlt, -⟩ := List.getElem?_eq_some_iff.mp (live_eq_some.mp hi)
  have hcount : (hs.put i ((c.modify r (· - 1)).alloc 1).1).count (some q)
      = (hs.free i).count (some q) + if ((c.modify r (· - 1)).alloc 1).1 = q then 1 else 0 := by
    rw [put, free, count_set hlt, count_set hlt]
    simp
  rw [hcount, refs_alloc]
  by_cases e : q = ((c.modify r (· - 1)).alloc 1).1
  · subst e
    simp [hnew]
  · have e' : ¬ ((c.modify r (· - 1)).alloc 1).1 = q := Ne.symm e
    simpa [e, e'] using hq

/-- **A counter of at most one has at most one handle.** -/
theorem solo (hr : refs c r ≤ 1) (hi : hs.live i = some r) (hj : hs.live j = some r) : i = j := by
  refine Decidable.byContradiction fun hne => ?_
  obtain ⟨hlt, hget⟩ := List.getElem?_eq_some_iff.mp (live_eq_some.mp hi)
  -- without the first handle the second one is still there
  have hrest : 0 < (hs.free i).count (some r) := by
    refine count_pos_iff.mpr (mem_of_getElem? (i := j) (live_eq_some.mp ?_))
    rw [live_free, if_neg (Ne.symm hne), hj]
  have hle := h r
  rw [free, count_set hlt, hget] at hrest
  simp at hrest
  omega

end

end Counted

end RefCount

end GoMoi
