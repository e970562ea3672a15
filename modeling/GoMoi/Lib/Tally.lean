/-
  File:      GoMoi/Lib/Tally.lean
  Subject:   Counting ballots that credit several counters at once.

  A ballot `i` credits the counters `slots i`, a list that may name a counter more than once, and
  belongs to `owner i`. The tally of a finite set of ballots is what each counter holds when
  every ballot of the set has been cast once.

  * `Separated w owner I` -- by the weights `w` no ballot of `I` credits a counter twice, and two
    ballots of one owner never credit the same counter;
  * **`sum_le_card_owners`** -- over separated ballots a counter is at most the number of DISTINCT
    owners among the ballots that credit it;
  * `bump` -- counters of 32 bits in an array, which wrap.
-/
import Mathlib.Algebra.BigOperators.Group.Finset.Piecewise
import Mathlib.Algebra.GroupWithZero.Nat
import Mathlib.Algebra.Order.BigOperators.Group.Finset

namespace GoMoi

open Finset

variable {ι κ σ : Type} [DecidableEq ι] [DecidableEq σ]

/-! ## 1. The tally of a set of ballots -/

/-- What counter `s` holds after every ballot of `I` was cast once. -/
def tally (slots : ι → List σ) (I : Finset ι) (s : σ) : Nat :=
  ∑ i ∈ I, (slots i).count s

omit [DecidableEq ι] in
@[simp] theorem tally_empty (slots : ι → List σ) (s : σ) : tally slots ∅ s = 0 := by
  simp [tally]

variable {I : Finset ι} {slots : ι → List σ} {owner : ι → κ}

theorem tally_insert (slots : ι → List σ) {i : ι} (hi : i ∉ I) (s : σ) :
    tally slots (insert i I) s = tally slots I s + (slots i).count s := by
  rw [tally, sum_insert hi, Nat.add_comm]
  rfl

omit [DecidableEq ι] in
theorem tally_mono (slots : ι → List σ) {J : Finset ι} (h : I ⊆ J) (s : σ) :
    tally slots I s ≤ tally slots J s :=
  sum_le_sum_of_subset h

theorem tally_toFinset (slots : ι → List σ) {l : List ι} (hl : l.Nodup) (s : σ) :
    tally slots l.toFinset s = (l.map fun i => (slots i).count s).sum :=
  List.sum_toFinset _ hl

omit [DecidableEq ι] in
/-- A counter that wraps holds at most the sum of what its ballots credit when they wrap alone. -/
theorem tally_mod_le (slots : ι → List σ) (I : Finset ι) (s : σ) (n : Nat) :
    tally slots I s % n ≤ ∑ i ∈ I, (slots i).count s % n := by
  rw [tally, sum_nat_mod]
  exact Nat.mod_le _ _

/-! ## 2. Ballots that count each owner once -/

/-- No ballot of `I` credits a counter twice, and the ballots of one owner share no counter. -/
structure Separated (w : ι → σ → Nat) (owner : ι → κ) (I : Finset ι) : Prop where
  once : ∀ i ∈ I, ∀ s, w i s ≤ 1
  apart : ∀ i ∈ I, ∀ j ∈ I, i ≠ j → owner i = owner j → ∀ s, w i s + w j s ≤ 1

variable {w : ι → σ → Nat}

omit [DecidableEq ι] [DecidableEq σ] in
theorem Separated.subset {J : Finset ι} (h : Separated w owner J) (hs : I ⊆ J) :
    Separated w owner I where
  once i hi := h.once i (hs hi)
  apart i hi j hj := h.apart i (hs hi) j (hs hj)

omit [DecidableEq ι] [DecidableEq σ] in
/-- **Over separated ballots a counter is at most the number of distinct owners that credit it.** -/
theorem sum_le_card_owners (h : Separated w owner I) (s : σ) {O : Finset κ}
    (hO : ∀ i ∈ I, w i s ≠ 0 → owner i ∈ O) : ∑ i ∈ I, w i s ≤ O.card := by
  have hone : ∀ i ∈ I, w i s ≤ if w i s ≠ 0 then 1 else 0 := by
    intro i hi
    have := h.once i hi s
    split <;> omega
  calc ∑ i ∈ I, w i s ≤ (I.filter fun i => w i s ≠ 0).card := by
        rw [card_filter]
        exact sum_le_sum hone
    _ ≤ O.card := by
        refine card_le_card_of_injOn owner (fun i hi => ?_) fun i hi j hj hij => ?_
        · obtain ⟨hiI, hcredit⟩ := mem_filter.mp hi
          exact hO i hiI hcredit
        · obtain ⟨hiI, hi0⟩ := mem_filter.mp hi
          obtain ⟨hjI, hj0⟩ := mem_filter.mp hj
          by_contra hne
          have := h.apart i hiI j hjI hne hij s
          omega

/-! ## 3. Counters in an array -/

/-- Increment the counter of each named position, in place. -/
def bump (counters : List UInt32) (slots : List Nat) : List UInt32 :=
  slots.foldl (fun c j => c.modify j (· + 1)) counters

@[simp] theorem bump_length (counters : List UInt32) (slots : List Nat) :
    (bump counters slots).length = counters.length := by
  induction slots generalizing counters with
  | nil => rfl
  | cons j slots ih =>
    show (bump (counters.modify j (· + 1)) slots).length = _
    rw [ih, List.length_modify]

/-- **A bump adds to each counter the number of times its position is named.** -/
theorem bump_getElem? (counters : List UInt32) (slots : List Nat) (s : Nat) :
    (bump counters slots)[s]? = counters[s]?.map (· + UInt32.ofNat (slots.count s)) := by
  induction slots generalizing counters with
  | nil => cases h : counters[s]? <;> simp [bump, h]
  | cons j slots ih =>
    show (bump (counters.modify j (· + 1)) slots)[s]? = _
    rw [ih, List.getElem?_modify]
    by_cases hj : j = s
    · subst hj
      rcases counters[j]? with _ | c
      · rfl
      simp only [if_true, Option.map_eq_map, Option.map_some, List.count_cons_self,
        UInt32.ofNat_add]
      rw [UInt32.add_assoc, UInt32.add_comm 1]
      rfl
    · cases counters[s]? with
      | none => rfl
      | some c => simp [hj]

end GoMoi
