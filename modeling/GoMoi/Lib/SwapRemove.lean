/-
  File:      GoMoi/Lib/SwapRemove.lean
  Subject:   Removal from a slice by moving its last element into the gap.

  Go code that does not care about the order of a slice removes in constant time: it overwrites
  the element with the last one and cuts the slice by one. For the first element that meets a
  condition this is `List.eraseP` up to the order (`swapRemove_perm`), so what is known of
  `eraseP` holds of it.
-/
import Mathlib.Data.List.Basic

namespace GoMoi

open List

variable {α : Type}

/-- `infos[i] = infos[len(infos)-1]; infos = infos[:len(infos)-1]`. -/
def swapRemove (l : List α) (i : Nat) : List α :=
  match l.getLast? with
  | none => l
  | some a => (l.set i a).dropLast

theorem swapRemove_concat_perm (l : List α) (a : α) {i : Nat} (h : i < l.length + 1) :
    (swapRemove (l ++ [a]) i).Perm ((l ++ [a]).eraseIdx i) := by
  have hlast : (l ++ [a]).getLast? = some a := List.getLast?_concat
  simp only [swapRemove, hlast]
  rcases Nat.lt_succ_iff_lt_or_eq.mp h with hi | rfl
  · rw [set_append_left _ _ hi, dropLast_concat, eraseIdx_append_of_lt_length hi,
      set_eq_take_append_cons_drop, if_pos hi, eraseIdx_eq_take_drop_succ,
      append_assoc]
    exact (perm_append_singleton a _).symm.append_left _
  · rw [set_append_right _ _ (Nat.le_refl _), eraseIdx_append_of_length_le (Nat.le_refl _)]
    simp

/-- **Up to the order it is `eraseP`.** -/
theorem swapRemove_perm {p : α → Bool} {l : List α} {i : Nat} (hi : l.findIdx? p = some i) :
    (swapRemove l i).Perm (l.eraseP p) := by
  rw [eraseP_eq_eraseIdx, hi]
  obtain ⟨hlt, _⟩ := List.findIdx?_eq_some_iff_getElem.mp hi
  rcases eq_nil_or_concat l with rfl | ⟨l', a, rfl⟩
  · cases hi
  · rw [concat_eq_append, length_append] at hlt
    rw [concat_eq_append]
    exact swapRemove_concat_perm l' a hlt

end GoMoi
