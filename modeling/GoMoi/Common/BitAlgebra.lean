/-
  File:      GoMoi/Common/BitAlgebra.lean
  Subject:   The operations on whole bit arrays: `Or`, `Xor`, `And`, `Not`, `Subtract`, `IsEmpty`
             and `IsFull` of `common/arrayofbits.go`.

  The operations work word by word and know nothing of the size: the last word may have bits beyond
  it, and `Not` sets them. Where two arrays have different sizes, such a bit of the one is within
  the size of the other. Besides, `Or` and `Xor` go no further than the words of the shorter array,
  but the result starts as a copy of the receiver: the words that only the argument has are lost.

  Receiver and argument are two objects: one object as both locks its mutex twice, and the call
  never returns. Indices are natural numbers: `GetIndex` has no test for a negative one, and at -64
  it panics.

  * `Spare`, `Dropped` -- the two kinds of bits that go wrong;
  * **`bitLaws_iff`** -- on all arrays that a chain of operations can give, the laws hold exactly if
    none of these bits is in the way;
  * `lost_vote` -- an index of the longer array that `Or` forgets.
-/
import GoMoi.Common.ArrayOfBits

namespace GoMoi

open List

namespace ArrayOfBits

/-! ## 1. The operations -/

/-- `copyBits`. -/
def copyBits (b : ArrayOfBits) (size : Int) : Go ArrayOfBits :=
  if numElements size < 0 then .error .makeslice
  else
    let n := (numElements size).toNat
    .ok ⟨size, b.elements.take n ++ List.replicate (n - b.elements.length) 0⟩

/-- The loop over the first `n` words of `c` and of the argument. -/
def mergeWords (f : BitVec 64 → BitVec 64 → BitVec 64) :
    Nat → List (BitVec 64) → List (BitVec 64) → Go (List (BitVec 64))
  | 0, c, _ => pure c
  | n + 1, e :: c, x :: input => do pure (f e x :: (← mergeWords f n c input))
  | _ + 1, _, _ => .error .indexOutOfRange

/-- What the operations share: a copy of the receiver at some size, of which `n` words are
    changed. -/
def wordwise (f : BitVec 64 → BitVec 64 → BitVec 64) (size : Int) (n : Nat)
    (b input : ArrayOfBits) : Go (Option ArrayOfBits) := do
  let c ← b.copyBits size
  pure (some ⟨size, ← mergeWords f n c.elements input.elements⟩)

/-- The common number of words. -/
def smaller (b input : ArrayOfBits) : Nat := min b.elements.length input.elements.length

/-- `Or`. -/
def or : Option ArrayOfBits → Option ArrayOfBits → Go (Option ArrayOfBits)
  | none, input => pure input
  | some b, none => pure (some b)
  | some b, some input => wordwise (· ||| ·) (max b.size input.size) (smaller b input) b input

/-- `Xor`. -/
def xor : Option ArrayOfBits → Option ArrayOfBits → Go (Option ArrayOfBits)
  | none, input => pure input
  | some b, none => pure (some b)
  | some b, some input => wordwise (· ^^^ ·) (max b.size input.size) (smaller b input) b input

/-- `And`; it goes over all words of the copy. -/
def and : Option ArrayOfBits → Option ArrayOfBits → Go (Option ArrayOfBits)
  | some b, some input =>
    let size := min b.size input.size
    wordwise (· &&& ·) size (numElements size).toNat b input
  | _, _ => pure none

/-- `Not`. -/
def not (b : Option ArrayOfBits) : Option ArrayOfBits :=
  b.map fun b => { b with elements := b.elements.map (~~~ ·) }

/-- `Subtract`; without an argument it is `nil`. -/
def subtract : Option ArrayOfBits → Option ArrayOfBits → Go (Option ArrayOfBits)
  | some b, some input => wordwise (fun e x => e &&& ~~~x) b.size (smaller b input) b input
  | _, _ => pure none

/-- `GetIndex`. -/
def getIndex? : Option ArrayOfBits → Nat → Go Bool
  | none, _ => pure false
  | some b, index => b.getIndex index

/-- `SizeOf`. -/
def sizeOf? : Option ArrayOfBits → Int
  | none => 0
  | some b => b.size

/-- `IsEmpty`. -/
def isEmpty : Option ArrayOfBits → Bool
  | none => true
  | some b => b.elements.all (· = 0)

/-- `IsFull`. A shift by 64 gives zero, and zero minus one has all bits. -/
def isFull : Option ArrayOfBits → Go Bool
  | none => pure true
  | some b =>
    match b.elements.getLast? with
    | none => .error .sliceBounds
    | some lastElem =>
      let lastElemBits := ((b.size + 63).tmod 64 + 1).toNat
      .ok (b.elements.dropLast.all (fun e => ~~~e = 0) &&
        decide ((lastElem + 1) &&& ((1#64 <<< lastElemBits) - 1) = 0))

/-- `GetTrueIndices`, which locks the mutex of its receiver first. -/
def getTrueIndices? : Option ArrayOfBits → Go (List Nat)
  | none => .error .nilDeref
  | some b => b.getTrueIndices

/-! ## 2. What an array reads as -/

/-- `nil`, or an array with the words its size needs. -/
def Proper (b : Option ArrayOfBits) : Prop := ∀ a, b = some a → WF a

/-- What `GetIndex` reads: false outside the array. -/
def mem (b : Option ArrayOfBits) (i : Nat) : Bool :=
  decide ((i : Int) < sizeOf? b) && b.any (·.bit i)

variable {b : ArrayOfBits} {i : Nat}

theorem mem_some : mem (some b) i = (decide ((i : Int) < b.size) && b.bit i) := rfl

theorem mem_none : mem none i = false := Bool.and_false _

theorem mem_of_lt (hi : (i : Int) < b.size) : mem (some b) i = b.bit i := by
  rw [mem_some, decide_eq_true hi, Bool.true_and]

theorem mem_outside {b : Option ArrayOfBits} (hi : ¬ (i : Int) < sizeOf? b) : mem b i = false := by
  rw [mem, decide_eq_false hi, Bool.false_and]

theorem getIndex?_proper {b : Option ArrayOfBits} (h : Proper b) (i : Nat) :
    getIndex? b i = .ok (mem b i) := by
  rcases b with _ | b
  · rw [mem_none]; rfl
  show b.getIndex i = _
  unfold getIndex
  by_cases hi : b.size ≤ i
  · rw [if_pos hi, mem_outside (b := some b) (not_lt.mpr hi)]
    rfl
  · rw [if_neg hi, (h b rfl).sliceAt_word (not_le.mp hi), mem_of_lt (not_le.mp hi)]
    rfl

/-- A word past the end has no bit. -/
theorem bit_of_ge {b : ArrayOfBits} {i : Nat} (h : b.elements.length ≤ i / 64) :
    b.bit i = false := by
  rw [bit, getD_eq_getElem?_getD, List.getElem?_eq_none h]
  exact BitVec.getLsbD_zero

theorem bit_word {k j : Nat} (hk : k < b.elements.length) (hj : j < 64) :
    b.bit (64 * k + j) = b.elements[k].getLsbD j := by
  rw [bit, show (64 * k + j) / 64 = k by omega, show (64 * k + j) % 64 = j by omega,
    getD_eq_getElem?_getD, List.getElem?_eq_getElem hk]
  rfl

/-- **What the loop makes of the words.** -/
theorem mergeWords_spec (f : BitVec 64 → BitVec 64 → BitVec 64) {n : Nat}
    {c input : List (BitVec 64)} (hc : n ≤ c.length) (hx : n ≤ input.length) :
    ∃ es, mergeWords f n c input = .ok es ∧ es.length = c.length ∧
      ∀ k, es.getD k 0 = if k < n then f (c.getD k 0) (input.getD k 0) else c.getD k 0 := by
  induction n generalizing c input with
  | zero => exact ⟨c, rfl, rfl, fun k => (if_neg (Nat.not_lt_zero k)).symm⟩
  | succ n ih =>
    rcases c with _ | ⟨e, c⟩
    · cases hc
    rcases input with _ | ⟨x, _⟩
    · cases hx
    obtain ⟨es, hes, hlen, hget⟩ := ih (Nat.le_of_succ_le_succ hc) (Nat.le_of_succ_le_succ hx)
    refine ⟨f e x :: es, ?_, by rw [length_cons, hlen, length_cons], fun k => ?_⟩
    · rw [mergeWords, hes]
      rfl
    rcases k with _ | k
    · rw [if_pos (Nat.succ_pos n)]; rfl
    rw [getD_cons_succ, getD_cons_succ, getD_cons_succ, hget k]
    simp

theorem numElements_toNat {size : Int} (h : 0 < size) :
    ((numElements size).toNat : Int) = (size + 63) / 64 := by
  have hdiv : numElements size = (size + 63) / 64 := Int.tdiv_eq_ediv_of_nonneg (by omega)
  omega

/-- A copy has the bits of the array, as far as its words go. -/
theorem copyBits_spec (b : ArrayOfBits) {size : Int} (hsize : 0 < size) :
    ∃ c, b.copyBits size = .ok c ∧ c.elements.length = (numElements size).toNat ∧
      ∀ k, k < c.elements.length → c.elements.getD k 0 = b.elements.getD k 0 := by
  have hnum : 0 ≤ numElements size := Int.tdiv_nonneg (by omega) (by decide)
  refine ⟨_, if_neg (by omega), ?_, fun k hk => ?_⟩
  · rw [length_append, length_take, length_replicate]
    omega
  have hk' : k < (numElements size).toNat := by
    rw [length_append, length_take, length_replicate] at hk
    omega
  rw [getD_eq_getElem?_getD, getD_eq_getElem?_getD]
  by_cases hkb : k < b.elements.length
  · rw [List.getElem?_append_left (by rw [length_take]; omega), List.getElem?_take_of_lt hk']
  rw [List.getElem?_append_right (by rw [length_take]; omega), List.getElem?_replicate,
    List.getElem?_eq_none (Nat.le_of_not_lt hkb)]
  split <;> rfl

/-- **What an operation makes of the bits.** The first `n` words are combined, and the others are
    those of the receiver. -/
theorem wordwise_spec {f : BitVec 64 → BitVec 64 → BitVec 64} {g : Bool → Bool → Bool}
    (hf : ∀ e x : BitVec 64, ∀ j < 64, (f e x).getLsbD j = g (e.getLsbD j) (x.getLsbD j))
    (b input : ArrayOfBits) {size : Int} (hsize : 0 < size) {n : Nat}
    (hn : n ≤ (numElements size).toNat) (hx : n ≤ input.elements.length) :
    ∃ c, wordwise f size n b input = .ok (some c) ∧ WF c ∧ ∀ i : Nat, mem (some c) i =
      (decide ((i : Int) < size) && if i / 64 < n then g (b.bit i) (input.bit i) else b.bit i) := by
  obtain ⟨c, hcopy, hlen, hget⟩ := copyBits_spec b hsize
  obtain ⟨es, hes, heslen, hesget⟩ := mergeWords_spec f (hlen ▸ hn) hx
  have hwords := numElements_toNat hsize
  refine ⟨⟨size, es⟩, ?_, ⟨hsize, ?_⟩, fun i => ?_⟩
  · unfold wordwise
    rw [hcopy]
    show (do pure (some (⟨size, ← mergeWords f n c.elements input.elements⟩ : ArrayOfBits))) = _
    rw [hes]
    rfl
  · rw [heslen, hlen]
    exact hwords
  · by_cases hi : (i : Int) < size
    · have hword : i / 64 < c.elements.length := by
        omega
      rw [mem_of_lt hi, decide_eq_true hi, Bool.true_and]
      show (es.getD (i / 64) 0).getLsbD (i % 64) = _
      rw [hesget, hget _ hword]
      split
      · exact hf _ _ _ (Nat.mod_lt _ (by decide))
      · rfl
    · rw [decide_eq_false hi, Bool.false_and]
      exact mem_outside hi

/-! ## 3. Acting pointwise -/

/-- The operation acts on every index as `g`. -/
def Pointwise (op : Option ArrayOfBits → Option ArrayOfBits → Go (Option ArrayOfBits))
    (g : Bool → Bool → Bool) (b input : Option ArrayOfBits) : Prop :=
  ∃ c, op b input = .ok c ∧
    ∀ i, getIndex? c i = do pure (g (← getIndex? b i) (← getIndex? input i))

/-- A bit beyond the size. -/
def Spare (b : ArrayOfBits) (i : Nat) : Prop := b.size ≤ i ∧ b.bit i = true

/-- An index of the argument in a word that the receiver does not have. -/
def Dropped (b input : ArrayOfBits) (i : Nat) : Prop :=
  b.elements.length ≤ i / 64 ∧ (i : Int) < input.size ∧ input.bit i = true

/-- The argument has no index beyond the words of the receiver, and a bit that the one has beyond
    its size is an index of the other one or beyond its size too. -/
def OrFits : Option ArrayOfBits → Option ArrayOfBits → Prop
  | some b, some input => ∀ i : Nat, ¬ Dropped b input i ∧
      (Spare b i → (i : Int) < input.size → input.bit i = true) ∧
      (Spare input i → (i : Int) < b.size → b.bit i = true)
  | _, _ => True

/-- The argument has no index beyond the words of the receiver, and neither has a bit beyond its
    size within that of the other one. -/
def XorFits : Option ArrayOfBits → Option ArrayOfBits → Prop
  | some b, some input => ∀ i : Nat, ¬ Dropped b input i ∧
      (Spare b i → input.size ≤ i) ∧ (Spare input i → b.size ≤ i)
  | _, _ => True

/-- No index of the receiver is a bit beyond the size of the argument; without an argument there is
    no index at all. -/
def SubtractFits : Option ArrayOfBits → Option ArrayOfBits → Prop
  | some b, some input => ∀ i : Nat, Spare input i → (i : Int) < b.size → b.bit i = false
  | some b, none => ∀ i : Nat, (i : Int) < b.size → b.bit i = false
  | none, _ => True

section

variable {b input : ArrayOfBits}
  {op : Option ArrayOfBits → Option ArrayOfBits → Go (Option ArrayOfBits)} {g : Bool → Bool → Bool}
  {f : BitVec 64 → BitVec 64 → BitVec 64}

theorem pointwise_iff {b input c : Option ArrayOfBits} (hb : Proper b) (hx : Proper input)
    (hc : Proper c) (hop : op b input = .ok c) :
    Pointwise op g b input ↔ ∀ i, mem c i = g (mem b i) (mem input i) := by
  have hread : ∀ i, (getIndex? c i = do pure (g (← getIndex? b i) (← getIndex? input i))) ↔
      mem c i = g (mem b i) (mem input i) := by
    intro i
    rw [getIndex?_proper hb, getIndex?_proper hx, getIndex?_proper hc]
    exact ⟨Except.ok.inj, congrArg _⟩
  constructor
  · intro ⟨c', hop', h⟩ i
    rw [hop] at hop'
    cases hop'
    exact (hread i).mp (h i)
  · exact fun h => ⟨c, hop, fun i => (hread i).mpr (h i)⟩

theorem proper_none : Proper none := nofun

theorem WF.proper (h : WF b) : Proper (some b) := fun a ha => by
  cases ha
  exact h

/-- The words of two arrays are no more than the greater size needs. -/
theorem smaller_le (hb : WF b) : smaller b input ≤ (numElements (max b.size input.size)).toNat := by
  have hnum := numElements_toNat (lt_max_of_lt_left (c := input.size) hb.pos)
  have hlen := hb.words
  have hle : smaller b input ≤ b.elements.length := Nat.min_le_left _ _
  omega

section

variable (hf : ∀ e x : BitVec 64, ∀ j < 64, (f e x).getLsbD j = g (e.getLsbD j) (x.getLsbD j))
include hf

/-- **`Or` and `Xor` at one index**: below both sizes the words are combined; between them there is
    what the receiver has in its words, combined with what the argument has in those. -/
theorem merged_spec (hb : WF b) (input : ArrayOfBits) :
    ∃ c, wordwise f (max b.size input.size) (smaller b input) b input = .ok (some c) ∧ WF c ∧
      ∀ i : Nat, mem (some c) i = (decide ((i : Int) < max b.size input.size) &&
        if i / 64 < smaller b input then g (b.bit i) (input.bit i) else b.bit i) :=
  wordwise_spec hf b input (by have := hb.pos; omega) (smaller_le hb) (Nat.min_le_right _ _)

/-- An operation that combines the common words, and without one array gives the other, acts on two
    arrays as `g` exactly if at every index the two disagree nowhere between the sizes. -/
theorem merged_pointwise_iff {b input : Option ArrayOfBits} (hb : Proper b) (hx : Proper input)
    (hleft : ∀ v, g false v = v) (hright : ∀ u, g u false = u) (hnil : ∀ x, op none x = .ok x)
    (halone : ∀ b, op (some b) none = .ok (some b)) (hop : ∀ b input, op (some b) (some input) =
      wordwise f (max b.size input.size) (smaller b input) b input) :
    Pointwise op g b input ↔ ∀ b' ∈ b, ∀ x ∈ input, ∀ i : Nat, ¬ Dropped b' x i ∧
      (Spare b' i → (i : Int) < x.size → g true (x.bit i) = x.bit i) ∧
      (Spare x i → (i : Int) < b'.size → g (b'.bit i) true = b'.bit i) := by
  rcases b with _ | b
  · refine (pointwise_iff hb hx hx (hnil _)).trans ⟨fun _ => nofun, fun _ i => ?_⟩
    rw [mem_none, hleft]
  rcases input with _ | input
  · refine (pointwise_iff hb hx hb (halone b)).trans ⟨fun _ _ _ => nofun, fun _ i => ?_⟩
    rw [mem_none, hright]
  obtain ⟨c, hmerge, hwf, hmem⟩ := merged_spec hf (hb b rfl) input
  refine (pointwise_iff hb hx hwf.proper ((hop b input).trans hmerge)).trans ?_
  simp only [Option.mem_some_iff, forall_eq']
  refine forall_congr' fun i => ?_
  rw [hmem, mem_some, mem_some]
  simp only [smaller, lt_max_iff, lt_min_iff, Dropped, Spare, ← not_lt]
  have hlb := (hb b rfl).lt_words (i := i)
  have hzb := @bit_of_ge b i
  have hzx := @bit_of_ge input i
  clear hmem hmerge hop hnil halone hb hx hf
  grind

end

theorem or_pointwise_iff {b input : Option ArrayOfBits} (hb : Proper b) (hx : Proper input) :
    Pointwise or (· || ·) b input ↔ OrFits b input := by
  rw [merged_pointwise_iff (fun _ _ _ _ => BitVec.getLsbD_or) hb hx Bool.false_or Bool.or_false
    (fun _ => rfl) (fun _ => rfl) fun _ _ => rfl]
  cases b <;> cases input <;> simp [OrFits]

theorem xor_pointwise_iff {b input : Option ArrayOfBits} (hb : Proper b) (hx : Proper input) :
    Pointwise xor Bool.xor b input ↔ XorFits b input := by
  rw [merged_pointwise_iff (fun _ _ _ _ => BitVec.getLsbD_xor) hb hx Bool.false_xor Bool.xor_false
    (fun _ => rfl) (fun _ => rfl) fun _ _ => rfl]
  cases b <;> cases input <;> simp [XorFits]

/-- **`And` is right on two arrays**: it ends with the smaller size. -/
theorem and_spec (hb : WF b) (hx : WF input) :
    ∃ c, and (some b) (some input) = .ok (some c) ∧ WF c ∧
      ∀ i, mem (some c) i = (mem (some b) i && mem (some input) i) := by
  have hpos : 0 < min b.size input.size := lt_min hb.pos hx.pos
  have hnum := numElements_toNat hpos
  have hwords := hx.words
  obtain ⟨c, hop, hwf, hmem⟩ := @wordwise_spec (· &&& ·) (· && ·)
    (fun _ _ _ _ => BitVec.getLsbD_and) b input _ hpos _ le_rfl (by omega)
  refine ⟨c, hop, hwf, fun i => ?_⟩
  rw [hmem, mem_some, mem_some]
  have hword : (i : Int) < min b.size input.size →
    i / 64 < (numElements (min b.size input.size)).toNat := fun hi => by omega
  simp only [lt_min_iff] at hword ⊢
  grind

/-- **`And` is right on all arrays.** -/
theorem and_pointwise {b input : Option ArrayOfBits} (hb : Proper b) (hx : Proper input) :
    Pointwise and (· && ·) b input := by
  rcases b with _ | b
  · refine (pointwise_iff hb hx proper_none rfl).mpr fun i => ?_
    rw [mem_none, Bool.false_and]
  rcases input with _ | input
  · refine (pointwise_iff hb hx proper_none rfl).mpr fun i => ?_
    rw [mem_none, Bool.and_false]
  obtain ⟨c, hop, hwf, hmem⟩ := and_spec (hb b rfl) (hx input rfl)
  exact (pointwise_iff hb hx hwf.proper hop).mpr hmem

theorem subtract_spec (hb : WF b) (input : ArrayOfBits) :
    ∃ c, subtract (some b) (some input) = .ok (some c) ∧ WF c ∧ ∀ i : Nat, mem (some c) i =
      (decide ((i : Int) < b.size) && if i / 64 < smaller b input then b.bit i && !input.bit i
        else b.bit i) := by
  have hnum := numElements_toNat hb.pos
  have hwords := hb.words
  have hle : smaller b input ≤ b.elements.length := Nat.min_le_left _ _
  exact wordwise_spec (g := fun u v => u && !v) (fun e x j hj => by simp [hj]) b input hb.pos
    (by omega) (Nat.min_le_right _ _)

theorem subtract_pointwise_iff {b input : Option ArrayOfBits} (hb : Proper b) (hx : Proper input) :
    Pointwise subtract (fun u v => u && !v) b input ↔ SubtractFits b input := by
  rcases b with _ | b
  · refine (pointwise_iff hb hx proper_none rfl).trans ⟨fun _ => trivial, fun _ i => ?_⟩
    rw [mem_none, Bool.false_and]
  rcases input with _ | input
  · refine (pointwise_iff hb hx proper_none rfl).trans (forall_congr' fun i => ?_)
    rw [mem_none, Bool.not_false, Bool.and_true]
    by_cases hi : (i : Int) < b.size
    · rw [mem_of_lt hi]
      exact ⟨fun h _ => h.symm, fun h => (h hi).symm⟩
    · exact ⟨fun _ h => absurd h hi, fun _ => (mem_outside (b := some b) hi).symm⟩
  obtain ⟨c, hop, hwf, hmem⟩ := subtract_spec (hb b rfl) input
  refine (pointwise_iff hb hx hwf.proper hop).trans (forall_congr' fun i => ?_)
  rw [hmem, mem_some, mem_some]
  have hlb := (hb b rfl).lt_words (i := i)
  have hzx := @bit_of_ge input i
  simp only [smaller, lt_min_iff, Spare, ← not_lt]
  clear hmem hop hb hx
  grind

theorem WF.map (h : WF b) (f : BitVec 64 → BitVec 64) :
    WF { b with elements := b.elements.map f } :=
  ⟨h.pos, (congrArg Nat.cast (length_map f)).trans h.words⟩

theorem not_proper {b : Option ArrayOfBits} (h : Proper b) : Proper (not b) := by
  cases b with
  | none => exact proper_none
  | some b => exact ((h b rfl).map _).proper

/-- **`Not` is right below the size**; above it there is no index as before. -/
theorem not_pointwise {b : Option ArrayOfBits} (h : Proper b) (i : Nat) :
    mem (not b) i = (decide ((i : Int) < sizeOf? b) && !mem b i) := by
  rcases b with _ | b
  · rw [mem_none]; rfl
  show mem (some { b with elements := b.elements.map (~~~ ·) }) i = _
  show _ = (decide ((i : Int) < b.size) && _)
  by_cases hi : (i : Int) < b.size
  · have hword := (h b rfl).lt_words hi
    rw [mem_of_lt hi, mem_some, decide_eq_true hi, Bool.true_and, Bool.true_and, bit, bit,
      getD_eq_getElem?_getD, getD_eq_getElem?_getD, List.getElem?_map,
      List.getElem?_eq_getElem hword]
    show (~~~b.elements[i / 64]).getLsbD (i % 64) = _
    rw [BitVec.getLsbD_not, decide_eq_true (Nat.mod_lt _ (by decide)), Bool.true_and]
    rfl
  · rw [decide_eq_false hi, Bool.false_and]
    exact mem_outside hi

/-! ## 4. The tests -/

/-- An array without an index has no bit beyond its size either. -/
def EmptyFits : Option ArrayOfBits → Prop
  | none => True
  | some b => (∀ i, ¬ Spare b i) ∨ ∃ i, mem (some b) i = true

theorem isEmpty_some_iff : isEmpty (some b) = true ↔ ∀ i, b.bit i = false := by
  show b.elements.all (· = 0) = true ↔ _
  rw [all_eq_true]
  constructor
  · intro h i
    by_cases hi : i / 64 < b.elements.length
    · have hzero := of_decide_eq_true (h _ (getElem_mem hi))
      rw [bit, getD_eq_getElem?_getD, List.getElem?_eq_getElem hi, Option.getD_some, hzero]
      exact BitVec.getLsbD_zero
    · exact bit_of_ge (Nat.le_of_not_lt hi)
  · intro h e he
    obtain ⟨k, hk, rfl⟩ := getElem_of_mem he
    refine decide_eq_true (BitVec.eq_of_getLsbD_eq fun j hj => ?_)
    exact (bit_word hk hj).symm.trans ((h _).trans BitVec.getLsbD_zero.symm)

/-- **`IsEmpty` tells whether there is an index exactly if no bit is left beyond the size of an
    array without one.** -/
theorem isEmpty_iff_fits (b : Option ArrayOfBits) :
    (isEmpty b = true ↔ ∀ i, mem b i = false) ↔ EmptyFits b := by
  rcases b with _ | b
  · exact ⟨fun _ => trivial, fun _ => ⟨fun _ _ => mem_none, fun _ => rfl⟩⟩
  rw [isEmpty_some_iff]
  constructor
  · intro h
    by_cases hidx : ∃ i, mem (some b) i = true
    · exact .inr hidx
    · refine .inl fun i hi => ?_
      have hnone := h.mpr fun i => Bool.eq_false_iff.mpr fun hi => hidx ⟨i, hi⟩
      exact Bool.false_ne_true ((hnone i).symm.trans hi.2)
  · intro hfits
    refine ⟨fun h i => ?_, fun h i => ?_⟩
    · rw [mem_some, h i, Bool.and_false]
    obtain hspare | ⟨j, hj⟩ := hfits
    · by_cases hlt : (i : Int) < b.size
      · rw [← mem_of_lt hlt, h i]
      · exact Bool.eq_false_iff.mpr fun hbit => hspare i ⟨not_lt.mp hlt, hbit⟩
    · rw [h j] at hj
      cases hj

/-- The test of the last word: its lowest `k` bits are set. -/
theorem low_ones_iff (e : BitVec 64) {k : Nat} (hk : k ≤ 64) :
    (e + 1) &&& ((1#64 <<< k) - 1) = 0 ↔ ∀ j < k, e.getLsbD j = true := by
  have hmask : ((1#64 <<< k) - 1).toNat = 2 ^ k - 1 := by
    obtain rfl | hlt := Nat.eq_or_lt_of_le hk
    · rfl
    have hpow : 2 ^ k < 2 ^ 64 := Nat.pow_lt_pow_right (by decide) hlt
    have hpos : 0 < 2 ^ k := Nat.two_pow_pos k
    rw [BitVec.toNat_sub, BitVec.toNat_shiftLeft, Nat.shiftLeft_eq]
    show (2 ^ 64 - 1 + 1 * 2 ^ k % 2 ^ 64) % 2 ^ 64 = _
    omega
  -- adding one carries out of the lowest bits exactly if all of them are set
  have hcarry : (e + 1) &&& ((1#64 <<< k) - 1) = 0 ↔ e.setWidth k = BitVec.allOnes k := by
    rw [← BitVec.neg_one_eq_allOnes, eq_neg_iff_add_eq_zero, ← BitVec.toNat_inj,
      ← BitVec.toNat_inj, BitVec.toNat_and, hmask, Nat.and_two_pow_sub_one_eq_mod, BitVec.toNat_add,
      Nat.mod_mod_of_dvd _ (Nat.pow_dvd_pow 2 hk), BitVec.toNat_add, BitVec.toNat_setWidth]
    simp [Nat.add_mod]
  rw [hcarry]
  constructor
  · intro h j hj
    have hbit := congrArg (BitVec.getLsbD · j) h
    simpa [hj] using hbit
  · intro h
    refine BitVec.eq_of_getLsbD_eq fun j hj => ?_
    simp [hj, h j hj]

/-- A word without a zero. -/
theorem not_eq_zero_iff (e : BitVec 64) : ~~~e = 0 ↔ ∀ j < 64, e.getLsbD j = true := by
  constructor
  · intro h j hj
    have hbit := congrArg (BitVec.getLsbD · j) h
    simpa [hj] using hbit
  intro h
  refine BitVec.eq_of_getLsbD_eq fun j hj => ?_
  rw [BitVec.getLsbD_not, h j hj]
  simp

/-- **`IsFull` tells whether every index is set**: it looks at the last word up to the size only. -/
theorem isFull_spec {b : Option ArrayOfBits} (h : Proper b) :
    ∃ full, isFull b = .ok full ∧
      (full = true ↔ ∀ i : Nat, (i : Int) < sizeOf? b → mem b i = true) := by
  rcases b with _ | b
  · refine ⟨true, rfl, fun _ i hi => ?_, fun _ => rfl⟩
    have hlt : (i : Int) < 0 := hi
    omega
  have hpos := (h b rfl).pos
  have hwords := (h b rfl).words
  have hne : b.elements ≠ [] := by
    intro hnil
    rw [hnil, length_nil] at hwords
    omega
  obtain ⟨init, last, hsplit⟩ : ∃ init last, b.elements = init ++ [last] :=
    ⟨_, _, (dropLast_append_getLast hne).symm⟩
  have hlen : b.elements.length = init.length + 1 := by
    rw [hsplit, length_append, length_singleton]
  have hmod : (b.size + 63).tmod 64 = (b.size + 63) % 64 := Int.tmod_eq_emod_of_nonneg (by omega)
  obtain ⟨k, hk, hk64, hsize⟩ : ∃ k : Nat, ((b.size + 63).tmod 64 + 1).toNat = k ∧ k ≤ 64 ∧
      b.size = 64 * init.length + k := ⟨_, rfl, by omega, by omega⟩
  refine ⟨init.all (fun e => ~~~e = 0) && decide ((last + 1) &&& ((1#64 <<< k) - 1) = 0), ?_, ?_⟩
  · simp [isFull, hsplit, hk]
  rw [Bool.and_eq_true, all_eq_true, decide_eq_true_iff, low_ones_iff last hk64]
  have hinit : ∀ w (hw : w < init.length) j, j < 64 → b.bit (64 * w + j) = init[w].getLsbD j := by
    intro w hw j hj
    rw [bit_word (by omega) hj]
    simp [hsplit, getElem_append_left hw]
  have hlast : ∀ j, j < 64 → b.bit (64 * init.length + j) = last.getLsbD j := by
    intro j hj
    rw [bit_word (by omega) hj]
    simp [hsplit]
  show _ ↔ ∀ i : Nat, (i : Int) < b.size → mem (some b) i = true
  constructor
  · intro hfull i hi
    obtain ⟨hall, hlow⟩ := hfull
    rw [mem_of_lt hi]
    by_cases hw : i / 64 < init.length
    · have hfull := (not_eq_zero_iff _).mp (of_decide_eq_true (hall _ (getElem_mem hw)))
      have hbit := hinit (i / 64) hw (i % 64) (Nat.mod_lt _ (by decide))
      rw [Nat.div_add_mod] at hbit
      exact hbit.trans (hfull _ (Nat.mod_lt _ (by decide)))
    have hj : i - 64 * init.length < k := by omega
    have hbit := hlast (i - 64 * init.length) (by omega)
    rw [show 64 * init.length + (i - 64 * init.length) = i by omega] at hbit
    exact hbit.trans (hlow _ hj)
  · intro hall
    have hbit : ∀ i : Nat, (i : Int) < b.size → b.bit i = true := by
      intro i hi
      have hmem := hall i hi
      rwa [mem_of_lt hi] at hmem
    refine ⟨fun e he => ?_, fun j hj => ?_⟩
    · obtain ⟨w, hw, rfl⟩ := getElem_of_mem he
      refine decide_eq_true ((not_eq_zero_iff _).mpr fun j hj => ?_)
      rw [← hinit w hw j hj]
      exact hbit _ (by omega)
    · rw [← hlast j (by omega)]
      exact hbit _ (by omega)

end

/-! ## 5. Chains of operations -/

/-- The arrays that a chain of operations can give. It starts with `nil`, which `NewArrayOfBits`
    makes of a size that is not positive, and with arrays of any size and contents. -/
inductive Chained : Option ArrayOfBits → Prop where
  | nil : Chained none
  | made {b : ArrayOfBits} (h : WF b) : Chained (some b)
  | or {b input c : Option ArrayOfBits} (hb : Chained b) (hx : Chained input)
      (h : or b input = .ok c) : Chained c
  | xor {b input c : Option ArrayOfBits} (hb : Chained b) (hx : Chained input)
      (h : xor b input = .ok c) : Chained c
  | and {b input c : Option ArrayOfBits} (hb : Chained b) (hx : Chained input)
      (h : and b input = .ok c) : Chained c
  | not {b : Option ArrayOfBits} (hb : Chained b) : Chained (not b)
  | subtract {b input c : Option ArrayOfBits} (hb : Chained b) (hx : Chained input)
      (h : subtract b input = .ok c) : Chained c

section

variable {b input : Option ArrayOfBits}

theorem proper_of_spec {r : Go (Option ArrayOfBits)} {P : ArrayOfBits → Prop}
    (hspec : ∃ c, r = .ok (some c) ∧ WF c ∧ P c) (h : r = .ok b) : Proper b := by
  obtain ⟨c, hc, hwf, -⟩ := hspec
  cases hc.symm.trans h
  exact hwf.proper

/-- **A chain keeps the words that the size needs.** -/
theorem Chained.proper (h : Chained b) : Proper b := by
  induction h with
  | nil => exact proper_none
  | made h => exact h.proper
  | @or b input c _ _ h hb hx =>
    rcases b with _ | b
    · cases h; exact hx
    cases input with
    | none => cases h; exact hb
    | some input =>
      exact proper_of_spec (merged_spec (fun _ _ _ _ => BitVec.getLsbD_or) (hb b rfl) input) h
  | @xor b input c _ _ h hb hx =>
    rcases b with _ | b
    · cases h; exact hx
    cases input with
    | none => cases h; exact hb
    | some input =>
      exact proper_of_spec (merged_spec (fun _ _ _ _ => BitVec.getLsbD_xor) (hb b rfl) input) h
  | @and b input c _ _ h hb hx =>
    rcases b with _ | b
    · cases h; exact proper_none
    cases input with
    | none => cases h; exact proper_none
    | some input =>
      exact proper_of_spec (and_spec (hb b rfl) (hx input rfl)) h
  | not _ hb => exact not_proper hb
  | @subtract b input c _ _ h hb hx =>
    rcases b with _ | b
    · cases h; exact proper_none
    cases input with
    | none => cases h; exact proper_none
    | some input =>
      exact proper_of_spec (subtract_spec (hb b rfl) input) h

/-- The operations act pointwise, and the tests and the list of indices agree with `GetIndex` below
    the size. -/
structure BitLaws (b input : Option ArrayOfBits) : Prop where
  or : Pointwise or (· || ·) b input
  xor : Pointwise xor Bool.xor b input
  and : Pointwise and (· && ·) b input
  not : ∀ i : Nat, getIndex? (not b) i = do
    pure (decide ((i : Int) < sizeOf? b) && !(← getIndex? b i))
  subtract : Pointwise subtract (fun u v => u && !v) b input
  isEmpty : isEmpty b = true ↔ ∀ i : Nat, (i : Int) < sizeOf? b → getIndex? b i = .ok false
  isFull : ∃ full, isFull b = .ok full ∧
    (full = true ↔ ∀ i : Nat, (i : Int) < sizeOf? b → getIndex? b i = .ok true)
  getTrueIndices : ∃ l, getTrueIndices? b = .ok l ∧ l.Nodup ∧
    ∀ i : Nat, i ∈ l ↔ (i : Int) < sizeOf? b ∧ getIndex? b i = .ok true

/-- What the laws need of the arrays. -/
structure BitFits (b input : Option ArrayOfBits) : Prop where
  or : OrFits b input
  xor : XorFits b input
  subtract : SubtractFits b input
  isEmpty : EmptyFits b
  present : b ≠ none

theorem getTrueIndices_some {a : ArrayOfBits} (h : WF a) :
    ∃ l, getTrueIndices? (some a) = .ok l ∧ l.Nodup ∧
      ∀ i : Nat, i ∈ l ↔ (i : Int) < a.size ∧ mem (some a) i = true := by
  refine ⟨_, getTrueIndices_wf h, getTrueIndices_nodup (getTrueIndices_wf h), fun i => ?_⟩
  rw [mem_filter, mem_range, Int.lt_toNat]
  exact and_congr_right fun hi => by rw [mem_of_lt hi]

/-- **On the arrays that chains of operations give, the laws hold exactly if no bit beyond the size
    of one array is within that of the other, no index is in a word that only the argument has, an
    array without an index has no bit at all, and none is `nil` where that has no answer.** -/
theorem bitLaws_iff (hb : Chained b) (hx : Chained input) : BitLaws b input ↔ BitFits b input := by
  have hpb := hb.proper
  have hpx := hx.proper
  have hread : ∀ i v, getIndex? b i = .ok v ↔ mem b i = v := by
    intro i v
    rw [getIndex?_proper hpb]
    exact ⟨Except.ok.inj, congrArg _⟩
  have hempty : (∀ i : Nat, (i : Int) < sizeOf? b → getIndex? b i = .ok false) ↔
      ∀ i, mem b i = false := by
    refine ⟨fun h i => ?_, fun h i _ => (hread i false).mpr (h i)⟩
    by_cases hi : (i : Int) < sizeOf? b
    · exact (hread i false).mp (h i hi)
    · exact mem_outside hi
  constructor
  · intro h
    refine ⟨(or_pointwise_iff hpb hpx).mp h.or, (xor_pointwise_iff hpb hpx).mp h.xor,
      (subtract_pointwise_iff hpb hpx).mp h.subtract, ?_, ?_⟩
    · exact (isEmpty_iff_fits b).mp (h.isEmpty.trans hempty)
    · rintro rfl
      obtain ⟨l, hl, -⟩ := h.getTrueIndices
      cases hl
  · intro h
    obtain ⟨full, hfull, hiff⟩ := isFull_spec hpb
    refine ⟨(or_pointwise_iff hpb hpx).mpr h.or, (xor_pointwise_iff hpb hpx).mpr h.xor,
      and_pointwise hpb hpx, fun i => ?_, (subtract_pointwise_iff hpb hpx).mpr h.subtract,
      ((isEmpty_iff_fits b).mpr h.isEmpty).trans hempty.symm, ⟨full, hfull, ?_⟩, ?_⟩
    · rw [getIndex?_proper (not_proper hpb), not_pointwise hpb, getIndex?_proper hpb]
      rfl
    · exact hiff.trans (forall_congr' fun i => imp_congr_right fun _ => (hread i true).symm)
    · obtain ⟨a, rfl⟩ := Option.ne_none_iff_exists'.mp h.present
      obtain ⟨l, hl, hnodup, hmem⟩ := getTrueIndices_some (hpb a rfl)
      exact ⟨l, hl, hnodup, fun i => (hmem i).trans (and_congr_right fun _ => (hread i true).symm)⟩

end

/-! ## 6. Arrays of one and two words -/

/-- Three votes, and the array of one vote. -/
def votes : ArrayOfBits := ⟨3, [5]⟩

def oneVote : ArrayOfBits := ⟨1, [1]⟩

/-- Two words, with one index in the second. -/
def late : ArrayOfBits := ⟨128, [0, 1#64 <<< 36]⟩

/-- The laws at two arrays of the same size. -/
theorem bitLaws_iff_votes : Chained (some votes) ∧ BitLaws (some votes) (some votes) := by
  have hwf : WF votes := ⟨by decide, by decide⟩
  have hbit : ∀ i : Nat, votes.size ≤ i → votes.bit i = false := by
    intro i hi
    by_cases hw : i < 64
    · have hcase : ∀ j : Fin 64, 3 ≤ (j : Nat) → votes.bit j = false := by decide
      exact hcase ⟨i, hw⟩ (Int.ofNat_le.mp hi)
    · exact bit_of_ge (show 1 ≤ i / 64 by omega)
  have hspare : ∀ i, ¬ Spare votes i := fun i h => Bool.false_ne_true ((hbit i h.1).symm.trans h.2)
  have hdropped : ∀ i, ¬ Dropped votes votes i := by
    intro i h
    exact Bool.false_ne_true ((bit_of_ge h.1).symm.trans h.2.2)
  refine ⟨.made hwf, (bitLaws_iff (.made hwf) (.made hwf)).mpr
    ⟨?_, ?_, ?_, .inl hspare, Option.some_ne_none _⟩⟩
  · exact fun i => ⟨hdropped i, fun h => absurd h (hspare i), fun h => absurd h (hspare i)⟩
  · exact fun i => ⟨hdropped i, fun h => absurd h (hspare i), fun h => absurd h (hspare i)⟩
  · exact fun i h => absurd h (hspare i)

/-- **`Or` forgets an index that only the longer array has, and the negation of a full array is not
    empty.** -/
theorem lost_vote :
    (∃ c, or (some votes) (some late) = .ok c ∧ getIndex? (some late) 100 = .ok true ∧
      getIndex? c 100 = .ok false) ∧
    isFull (some oneVote) = .ok true ∧ getIndex? (not (some oneVote)) 0 = .ok false ∧
    isEmpty (not (some oneVote)) = false := by
  exact ⟨⟨_, rfl, by decide, by decide⟩, by decide, by decide, by decide⟩

end ArrayOfBits

end GoMoi
