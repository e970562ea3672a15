/-
  File:      GoMoi/Common/ArrayOfBits.lean
  Subject:   The bit array of `common/arrayofbits.go`, as far as votes and certificates use it.

  `ArrayOfBits` is a size and a list of 64-bit words, and nothing in the type ties the two
  together: an array built by `NewArrayOfBits` has the words its size needs (`WF`), an array
  decoded from a peer's message has whatever it has. The operations are therefore defined on
  every pair, with the panics Go raises on the ill-formed ones, and their meaning as a SET OF
  INDICES is proved on the well-formed ones.

  * `bit` -- the abstract reading: is index `i` in the set?
  * **`getTrueIndices_wf`** -- on a well-formed array `GetTrueIndices` lists exactly the indices
    below the size whose bit is set, in increasing order.

  Allocation failure is not modelled: a slice of any non-negative capacity can be made. In Go the
  `make` of `GetTrueIndices` panics at a `Size` above the allocation limit too.
-/
import GoMoi.Lib.Go
import Mathlib.Data.BitVec

namespace GoMoi

open List

/-- `type ArrayOfBits struct`, without its mutex. -/
structure ArrayOfBits where
  size : Int
  elements : List (BitVec 64)
  deriving DecidableEq, Repr

namespace ArrayOfBits

/-! ## 1. The operations -/

def numElements (bits : Int) : Int := (bits + 63).tdiv 64

/-- `NewArrayOfBits`; `nil` for a size that is not positive. -/
def new (size : Int) : Option ArrayOfBits :=
  if size ≤ 0 then none
  else some ⟨size, List.replicate (numElements size).toNat 0⟩

/-- `getIndex`. -/
def getIndex (b : ArrayOfBits) (index : Nat) : Go Bool :=
  if b.size ≤ index then pure false
  else do
    let e ← sliceAt b.elements (index / 64 : Nat)
    pure (e.getLsbD (index % 64))

/-- `setIndex`: the array after the write, and whether the index was in range. -/
def setIndex (b : ArrayOfBits) (index : Nat) (v : Bool) : Go (ArrayOfBits × Bool) :=
  if b.size ≤ index then pure (b, false)
  else do
    let e ← sliceAt b.elements (index / 64 : Nat)
    let mask : BitVec 64 := 1#64 <<< (index % 64)
    let e' := if v then e ||| mask else e &&& ~~~mask
    pure ({ b with elements := b.elements.set (index / 64) e' }, true)

/-- The positions below `n` whose bit is set in one word, counted from `curBit`. A shift past the
    word yields zero, so a position of 64 or more is never set. -/
def wordIndices (e : BitVec 64) (n curBit : Nat) : List Nat :=
  ((List.range n).filter e.getLsbD).map (curBit + ·)

/-- The loop of `GetTrueIndices` over all words but the last. -/
def fullWords : List (BitVec 64) → Nat → List Nat
  | [], _ => []
  | e :: es, curBit => (if e = 0 then [] else wordIndices e 64 curBit) ++ fullWords es (curBit + 64)

/-- `GetTrueIndices`. It makes a slice of capacity `Size` first, and reads the last word
    whatever the number of words is. -/
def getTrueIndices (b : ArrayOfBits) : Go (List Nat) :=
  if b.size < 0 then .error .makeslice
  else match b.elements.getLast? with
    | none => .error .indexOutOfRange
    | some lastElem =>
      let curBit := 64 * (b.elements.length - 1)
      let numFinalSize := (b.size - curBit).toNat
      .ok (fullWords b.elements.dropLast 0 ++ wordIndices lastElem numFinalSize curBit)

/-! ## 2. Well-formed arrays as sets of indices -/

/-- The array has the words its positive size needs. -/
structure WF (b : ArrayOfBits) : Prop where
  pos : 0 < b.size
  words : (b.elements.length : Int) = (b.size + 63) / 64

/-- The bit at index `i`, where every word past the end reads as zero. -/
def bit (b : ArrayOfBits) (i : Nat) : Bool := (b.elements.getD (i / 64) 0).getLsbD (i % 64)

variable {b : ArrayOfBits}

theorem new_eq_some {size : Int} (h : new size = some b) :
    WF b ∧ b.size = size ∧ ∀ i, b.bit i = false := by
  unfold new at h
  split at h
  · cases h
  rename_i hs
  cases h
  have hn : numElements size = (size + 63) / 64 := Int.tdiv_eq_ediv_of_nonneg (by omega)
  refine ⟨⟨by simpa using hs, ?_⟩, rfl, fun i => ?_⟩
  · simp only [length_replicate, hn]
    omega
  · simp only [bit, getD_eq_getElem?_getD, List.getElem?_replicate]
    split <;> simp

theorem new_of_pos {n : Nat} (hn : 0 < n) : ∃ b, new (n : Int) = some b := by
  unfold new
  rw [if_neg (by omega)]
  exact ⟨_, rfl⟩

variable {i : Nat}

theorem WF.lt_words (h : WF b) (hi : (i : Int) < b.size) : i / 64 < b.elements.length := by
  have := h.words
  omega

theorem WF.sliceAt_word (h : WF b) (hi : (i : Int) < b.size) :
    sliceAt b.elements (i / 64 : Nat) = .ok (b.elements.getD (i / 64) 0) := by
  apply sliceAt_natCast
  rw [getD_eq_getElem?_getD, List.getElem?_eq_getElem (h.lt_words hi)]
  rfl

/-- The bit of a word after `|= mask` or `&= ^mask`. -/
theorem getLsbD_mask (e : BitVec 64) (v : Bool) {k j : Nat} (hk : k < 64) (hj : j < 64) :
    (if v then e ||| (1#64 <<< k) else e &&& ~~~(1#64 <<< k)).getLsbD j =
      if j = k then v else e.getLsbD j := by
  have hm : (1#64 <<< k).getLsbD j = decide (j = k) := by
    by_cases e : j = k
    · simp [e, hk]
    simp only [e, decide_false]
    by_cases hlt : j < k
    · simp [hlt]
    · have : ¬ (j - k = 0) := by omega
      simp [this]
  cases v with
  | true =>
    simp only [if_true, BitVec.getLsbD_or, hm]
    by_cases e : j = k <;> simp [e]
  | false =>
    simp only [Bool.false_eq_true, if_false, BitVec.getLsbD_and, BitVec.getLsbD_not, hm, hj]
    by_cases e : j = k <;> simp [e]

/-- **Writing an index of a well-formed array changes that index and no other.** -/
theorem setIndex_spec (h : WF b) (hi : (i : Int) < b.size) (v : Bool) :
    ∃ b', b.setIndex i v = .ok (b', true) ∧ WF b' ∧ b'.size = b.size ∧
      ∀ j, b'.bit j = if j = i then v else b.bit j := by
  unfold setIndex
  rw [if_neg (by omega), h.sliceAt_word hi]
  refine ⟨_, rfl, ⟨h.pos, ?_⟩, rfl, fun j => ?_⟩
  · simpa using h.words
  have hw := h.lt_words hi
  simp only [bit, getD_eq_getElem?_getD]
  by_cases hji : j / 64 = i / 64
  · rw [hji, List.getElem?_set_self hw, Option.getD_some,
      getLsbD_mask _ _ (Nat.mod_lt _ (by decide)) (Nat.mod_lt _ (by decide))]
    have : (j % 64 = i % 64) ↔ j = i := by omega
    simp [this]
  · rw [List.getElem?_set_ne (by omega)]
    have : j ≠ i := fun e => hji (by rw [e])
    rw [if_neg this]

/-! ## 3. `GetTrueIndices` lists the set -/

theorem wordIndices_eq (e : BitVec 64) (n curBit : Nat) (p : Nat → Bool)
    (hp : ∀ j < n, p (curBit + j) = e.getLsbD j) :
    wordIndices e n curBit = ((List.range n).map (curBit + ·)).filter p := by
  rw [wordIndices, filter_map]
  congr 1
  refine filter_congr fun j hj => ?_
  exact (hp j (mem_range.mp hj)).symm

/-- The words before the last contribute the set bits of their 64 positions each. -/
theorem fullWords_eq (es : List (BitVec 64)) (curBit : Nat) (p : Nat → Bool)
    (hp : ∀ k < es.length, ∀ j < 64, p (curBit + 64 * k + j) = (es.getD k 0).getLsbD j) :
    fullWords es curBit = ((List.range (64 * es.length)).map (curBit + ·)).filter p := by
  induction es generalizing curBit with
  | nil => rfl
  | cons e es ih =>
    have he : ∀ j < 64, p (curBit + j) = e.getLsbD j := fun j hj => hp 0 (by simp) j hj
    have hw : (if e = 0 then [] else wordIndices e 64 curBit) =
        ((List.range 64).map (curBit + ·)).filter p := by
      rw [← wordIndices_eq e 64 curBit p he]
      split
      · rename_i h0
        subst h0
        simp [wordIndices]
      · rfl
    have hr := ih (curBit + 64) fun k hk j hj => by
      have := hp (k + 1) (by simpa using hk) j hj
      rw [getD_cons_succ] at this
      rw [← this]
      congr 1
      omega
    rw [fullWords, hw, hr, ← filter_append, length_cons, Nat.mul_succ,
      Nat.add_comm (64 * es.length) 64, range_add, map_append, map_map]
    congr 3
    funext j
    simp only [Function.comp_apply]
    omega

/-- **On a well-formed array `GetTrueIndices` is the increasing list of the set's members.** -/
theorem getTrueIndices_wf (h : WF b) :
    b.getTrueIndices = .ok ((List.range b.size.toNat).filter b.bit) := by
  have hpos := h.pos
  have hwords := h.words
  have hne : b.elements ≠ [] := by
    intro e
    rw [e] at hwords
    simp at hwords
    omega
  obtain ⟨init, last, hsplit⟩ : ∃ init last, b.elements = init ++ [last] :=
    ⟨_, _, (dropLast_append_getLast hne).symm⟩
  have hlen : b.elements.length = init.length + 1 := by rw [hsplit]; simp
  unfold getTrueIndices
  rw [if_neg (by omega)]
  simp only [hsplit, List.getLast?_append, List.getLast?_singleton, Option.some_or,
    dropLast_concat, length_append, length_singleton, Nat.add_sub_cancel]
  -- the words before the last hold the indices below `64 * init.length`, the last word the rest
  have hsize : b.size.toNat = 64 * init.length + (b.size - (64 * init.length : Nat)).toNat := by
    omega
  have hinit : fullWords init 0 = (List.range (64 * init.length)).filter b.bit := by
    rw [fullWords_eq init 0 b.bit]
    · simp
    intro k hk j hj
    have h1 : (0 + 64 * k + j) / 64 = k := by omega
    have h2 : (0 + 64 * k + j) % 64 = j := by omega
    rw [bit, h1, h2, hsplit, getD_eq_getElem?_getD, List.getElem?_append_left hk,
      getD_eq_getElem?_getD]
  have hlast := wordIndices_eq last (b.size - (64 * init.length : Nat)).toNat (64 * init.length)
    b.bit fun j hj => by
      have h1 : (64 * init.length + j) / 64 = init.length := by omega
      have h2 : (64 * init.length + j) % 64 = j := by omega
      rw [bit, h1, h2, hsplit]
      simp
  rw [hinit, hlast, hsize, range_add, filter_append]

theorem wordIndices_sublist (e : BitVec 64) (n curBit : Nat) :
    (wordIndices e n curBit).Sublist ((List.range n).map (curBit + ·)) :=
  filter_sublist.map _

theorem fullWords_sublist (es : List (BitVec 64)) (curBit : Nat) :
    (fullWords es curBit).Sublist ((List.range (64 * es.length)).map (curBit + ·)) := by
  induction es generalizing curBit with
  | nil => exact .refl _
  | cons e es ih =>
    rw [length_cons, Nat.mul_succ, Nat.add_comm, range_add, map_append, map_map]
    refine List.Sublist.append ?_ ?_
    · split
      · exact nil_sublist _
      · exact wordIndices_sublist e 64 curBit
    · have hrest := ih (curBit + 64)
      simpa only [Function.comp_def, Nat.add_assoc] using hrest

/-- **`GetTrueIndices` never lists an index twice**, whatever the array is. -/
theorem getTrueIndices_nodup {l : List Nat} (h : b.getTrueIndices = .ok l) : l.Nodup := by
  unfold getTrueIndices at h
  split at h
  · cases h
  split at h
  · cases h
  rename_i lastElem hlast
  simp only [Except.ok.injEq] at h
  subst h
  have hinit := fullWords_sublist b.elements.dropLast 0
  simp only [Nat.zero_add, map_id', length_dropLast] at hinit
  refine (hinit.append (wordIndices_sublist lastElem _ _)).nodup ?_
  rw [← range_add]
  exact nodup_range

end ArrayOfBits

end GoMoi
