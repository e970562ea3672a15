/-
  File:      GoMoi/State/TreeFlush.lean
  Subject:   `KramaHashTree.Flush` and `TreeDB.Flush` (`state/tree`) when writes fail.

  `Flush` writes the dirty nodes, forgets them whether or not the write has failed, and then
  writes the pre-images. A tree without dirty nodes is not flushed. So after a failure the nodes are
  forgotten, and the next `Flush` finds a clean tree and returns nil.

  * `Write` -- how a batch ends, and which of its entries are in the database;
  * `TreeOnDisk` -- dirty nodes, pre-images, the database, and as a record that no code reads the
    nodes set since the last `Flush` that returned nil;
  * `Guarantee` -- what is expected of a `Flush`; `Covered` -- the condition on the writes;
  * `guarantee_iff` -- in every run all flushes give the guarantee iff all are covered.

  What `Update` and `Delete` of the Merkle tree ask of the database and how they end is part of the
  event, so nothing is assumed of them. Nodes and pre-images have different prefixes.
-/
import GoMoi.Lib.Run
import GoMoi.Common.Types

namespace GoMoi

/-! ## 1. Writes -/

/-- How the write of a batch ends: a batch that fails may be there in part. -/
structure Write (K : Type) where
  err : Option Err
  landed : K → Bool
  complete : err = none → ∀ k, landed k = true

/-- A write that succeeds. -/
def Write.done {K : Type} : Write K := ⟨none, fun _ => true, fun _ _ => rfl⟩

/-- The database after the write. -/
def Write.apply {K : Type} [DecidableEq K] (w : Write K) (entries : GoMap K Bytes)
    (db : K → Option Bytes) : K → Option Bytes :=
  fun k => if w.landed k then (entries.lookup k).or (db k) else db k

/-- The entries are in the database. -/
def Within {K : Type} [DecidableEq K] (entries : GoMap K Bytes) (db : K → Option Bytes) : Prop :=
  ∀ k v, entries.lookup k = some v → db k = some v

/-- After a write the entries are there iff each has landed or was there before. -/
theorem within_apply {K : Type} [DecidableEq K] (w : Write K) (entries : GoMap K Bytes)
    (db : K → Option Bytes) : Within entries (w.apply entries db) ↔
      ∀ k v, entries.lookup k = some v → w.landed k = true ∨ db k = some v := by
  refine forall₃_congr fun k v hkv => ?_
  cases hl : w.landed k <;> simp [Write.apply, hl, hkv]

/-! ## 2. The tree and its database -/

/-- What the Merkle tree asks of `TreeDB`: `Set`, or `Delete` if there is no value. -/
structure NodeCall where
  key : Bytes
  value : Option Bytes

def NodeCall.apply (c : NodeCall) (m : GoMap Bytes Bytes) : GoMap Bytes Bytes :=
  match c.value with
  | some value => m.insert c.key value
  | none => m.erase c.key

theorem NodeCall.lookup_apply (c : NodeCall) (m : GoMap Bytes Bytes) (k : Bytes) :
    (c.apply m).lookup k = if k = c.key then c.value else m.lookup k := by
  unfold apply
  by_cases hk : k = c.key
  · subst hk
    cases c.value <;> simp
  · cases c.value with
    | some value => simp [hk, AList.lookup_insert_ne hk]
    | none => simp [hk, AList.lookup_erase_ne hk]

structure TreeOnDisk where
  dirty : GoMap Bytes Bytes
  preImages : GoMap Hash Bytes
  nodes : Bytes → Option Bytes
  images : Hash → Option Bytes
  /-- the nodes set since the last `Flush` that returned nil -/
  since : GoMap Bytes Bytes

inductive TreeEvent where
  | set (key value : Bytes) (calls : List NodeCall) (err : Option Err)
  | delete (key : Bytes) (calls : List NodeCall) (err : Option Err)
  | commit (rootHash rawData : Bytes)
  | flush (nodes : Write Bytes) (images : Write Hash)

namespace TreeOnDisk

/-- A tree as it is opened. -/
def opened (nodes : Bytes → Option Bytes) (images : Hash → Option Bytes) : TreeOnDisk :=
  ⟨∅, ∅, nodes, images, ∅⟩

def nodeCall (s : TreeOnDisk) (c : NodeCall) : TreeOnDisk :=
  { s with dirty := c.apply s.dirty, since := c.apply s.since }

/-- `Flush`, with what it returns. -/
def flush (w : Write Bytes) (i : Write Hash) (s : TreeOnDisk) : Option Err × TreeOnDisk :=
  if s.dirty.keys.length = 0 then (none, { s with since := ∅ })
  else
    -- `TreeDB.Flush` makes the dirty map anew in deferred code
    let s' := { s with dirty := ∅, nodes := w.apply s.dirty s.nodes }
    match w.err with
    | some e => (some e, s')
    | none => (i.err, { s' with
        images := i.apply s.preImages s.images
        since := if i.err = none then ∅ else s.since })

variable (hashKey : Bytes → Hash)

/-- `Set`, `Delete`, `Commit` and `Flush`. -/
def step (s : TreeOnDisk) : TreeEvent → TreeOnDisk
  | .set key value calls err =>
    if key.length = 0 ∨ value.length = 0 then s
    else
      let s' := calls.foldl nodeCall s
      if err = none then { s' with preImages := s'.preImages.insert (hashKey key) key } else s'
  | .delete key calls err =>
    let s' := calls.foldl nodeCall s
    if err = none then { s' with preImages := s'.preImages.erase (hashKey key) } else s'
  | .commit rootHash rawData =>
    if s.dirty.keys.length = 0 then s else s.nodeCall ⟨rootHash, some rawData⟩
  | .flush w i => (s.flush w i).2

/-! ## 3. The guarantee and its condition -/

/-- What was set and recorded up to `s` is in the database of `s'`. -/
def Written (s s' : TreeOnDisk) : Prop :=
  Within s.since s'.nodes ∧ Within s.preImages s'.images

/-- **The guarantee**: nil says that everything is there, and after an error the next `Flush` with
    a working database writes what is missing. -/
def Guarantee (s : TreeOnDisk) (w : Write Bytes) (i : Write Hash) : Prop :=
  ((s.flush w i).1 = none → Written s (s.flush w i).2) ∧
    ((s.flush w i).1 ≠ none → Written s ((s.flush w i).2.flush .done .done).2)

/-- What the writes leave out is in the database already. -/
def Covered (s : TreeOnDisk) (w : Write Bytes) (i : Write Hash) : Prop :=
  (∀ k v, s.dirty.lookup k = some v → w.landed k = true ∨ s.nodes k = some v) ∧
    ∀ h key, s.preImages.lookup h = some key →
      (s.dirty.keys.length ≠ 0 ∧ w.err = none ∧ i.landed h = true) ∨ s.images h = some key

def GuaranteeAt (s : TreeOnDisk) : TreeEvent → Prop
  | .flush w i => Guarantee s w i
  | _ => True

def CoveredAt (s : TreeOnDisk) : TreeEvent → Prop
  | .flush w i => Covered s w i
  | _ => True

/-- The dirty nodes are among those set since, and the others are in the database. -/
structure Kept (s : TreeOnDisk) : Prop where
  dirty : ∀ k v, s.dirty.lookup k = some v → s.since.lookup k = some v
  since : ∀ k v, s.since.lookup k = some v → s.dirty.lookup k = some v ∨ s.nodes k = some v

variable {s : TreeOnDisk} {w : Write Bytes} {i : Write Hash}

theorem lookup_of_clean (h : s.dirty.keys.length = 0) (k : Bytes) : s.dirty.lookup k = none := by
  have hnil : s.dirty.keys = [] := List.eq_nil_of_length_eq_zero h
  exact AList.lookup_eq_none.mpr fun hk => by
    rw [AList.mem_keys, hnil] at hk
    cases hk

theorem flush_clean (h : s.dirty.keys.length = 0) : s.flush w i = (none, { s with since := ∅ }) :=
  if_pos h

/-- A `Flush` leaves a clean tree, so the next one changes nothing in the database. -/
theorem flush_twice (s : TreeOnDisk) (w : Write Bytes) (i : Write Hash) (w' : Write Bytes)
    (i' : Write Hash) : ((s.flush w i).2.flush w' i').2.nodes = (s.flush w i).2.nodes ∧
      ((s.flush w i).2.flush w' i').2.images = (s.flush w i).2.images := by
  have hclean : (s.flush w i).2.dirty.keys.length = 0 := by
    by_cases hd : s.dirty.keys.length = 0
    · rw [flush_clean hd]
      exact hd
    · rw [flush, if_neg hd]
      cases w.err <;> rfl
  rw [flush_clean hclean]
  exact ⟨rfl, rfl⟩

/-- So the two halves of the guarantee come to one. -/
theorem guarantee_eq (s : TreeOnDisk) (w : Write Bytes) (i : Write Hash) :
    Guarantee s w i ↔ Written s (s.flush w i).2 := by
  obtain ⟨hnodes, himages⟩ := flush_twice s w i .done .done
  unfold Guarantee Written
  rw [hnodes, himages]
  exact ⟨fun h => (Classical.em ((s.flush w i).1 = none)).elim h.1 h.2, fun h => ⟨fun _ => h,
    fun _ => h⟩⟩

theorem Kept.within_since (hk : s.Kept) : Within s.since (w.apply s.dirty s.nodes) ↔
    ∀ k v, s.dirty.lookup k = some v → w.landed k = true ∨ s.nodes k = some v := by
  rw [← within_apply]
  refine ⟨fun h k v hkv => h k v (hk.dirty k v hkv), fun h k v hkv => ?_⟩
  cases hd : s.dirty.lookup k with
  | some v' =>
    have hv := (hk.dirty k v' hd).symm.trans hkv
    exact h k v (hd.trans hv)
  | none =>
    have hnode := (hk.since k v hkv).resolve_left fun h' => by
      rw [hd] at h'
      cases h'
    simp [Write.apply, hd, hnode]

/-- **One `Flush`.** -/
theorem Kept.guarantee_iff_covered (hk : s.Kept) : Guarantee s w i ↔ Covered s w i := by
  rw [guarantee_eq]
  unfold Written Covered
  by_cases hd : s.dirty.keys.length = 0
  · have hnone := lookup_of_clean hd
    rw [flush_clean hd]
    refine and_congr ⟨fun _ k v h => ?_, fun _ k v h => ?_⟩
      (forall₃_congr fun h key _ => ⟨.inr, fun h => h.resolve_left fun h => h.1 hd⟩)
    · cases (hnone k).symm.trans h
    · exact (hk.since k v h).resolve_left fun h => nomatch (hnone k).symm.trans h
  rw [flush, if_neg hd]
  cases hw : w.err with
  | some e =>
    exact and_congr hk.within_since
      (forall₃_congr fun h key _ => ⟨.inr, fun h => h.resolve_left fun h => nomatch h.2.1⟩)
  | none =>
    refine and_congr hk.within_since ((within_apply i _ _).trans (forall₃_congr fun h key _ => ?_))
    exact or_congr_left ⟨fun h => ⟨hd, rfl, h⟩, fun h => h.2.2⟩

/-! ## 4. Runs -/

theorem Kept.nodeCall (hk : s.Kept) (c : NodeCall) : (s.nodeCall c).Kept := by
  have hdirty := c.lookup_apply s.dirty
  have hsince := c.lookup_apply s.since
  refine ⟨fun k v => ?_, fun k v => ?_⟩
  all_goals
    simp only [TreeOnDisk.nodeCall, hdirty, hsince]
    split
  · exact id
  · exact hk.dirty k v
  · exact .inl
  · exact hk.since k v

theorem Kept.nodeCalls (hk : s.Kept) (cs : List NodeCall) :
    (cs.foldl TreeOnDisk.nodeCall s).Kept := by
  induction cs generalizing s with
  | nil => exact hk
  | cons c cs ih => exact ih (hk.nodeCall c)

/-- After a `Flush` that gives the guarantee nothing is dirty and what was set is there. -/
theorem Kept.flush (hk : s.Kept) (h : Covered s w i) : (s.flush w i).2.Kept := by
  have hwritten := (guarantee_eq s w i).mp (hk.guarantee_iff_covered.mpr h)
  by_cases hd : s.dirty.keys.length = 0
  · have hnone := lookup_of_clean hd
    rw [flush_clean hd]
    exact ⟨fun k v h => (nomatch (hnone k).symm.trans h), fun k v h => nomatch h⟩
  rw [TreeOnDisk.flush, if_neg hd] at hwritten ⊢
  rcases hw : w.err with _ | e
  swap
  · rw [hw] at hwritten
    exact ⟨fun k v h => (nomatch h), fun k v h => .inr (hwritten.1 k v h)⟩
  rw [hw] at hwritten
  refine ⟨fun k v h => (nomatch h), fun k v h => .inr (hwritten.1 k v ?_)⟩
  cases hi : i.err with
  | some e => simpa [hi] using h
  | none => simp [hi] at h

/-- **One event.** -/
theorem Kept.step (hashKey : Bytes → Hash) (hk : s.Kept) (e : TreeEvent) (h : CoveredAt s e) :
    (s.step hashKey e).Kept := by
  cases e with
  | set key value calls err =>
    have hcalls := hk.nodeCalls calls
    simp only [TreeOnDisk.step]
    split
    · exact hk
    · split
      · exact ⟨hcalls.dirty, hcalls.since⟩
      · exact hcalls
  | delete key calls err =>
    have hcalls := hk.nodeCalls calls
    simp only [TreeOnDisk.step]
    split
    · exact ⟨hcalls.dirty, hcalls.since⟩
    · exact hcalls
  | commit rootHash rawData =>
    simp only [TreeOnDisk.step]
    split
    · exact hk
    · exact hk.nodeCall _
  | flush w i => exact hk.flush h

/-- **Flushes and failures.** For every tree and every pattern of failures, all flushes give the
    guarantee iff of each what its writes leave out is in the database already. -/
theorem guarantee_iff (hashKey : Bytes → Hash) (nodes : Bytes → Option Bytes)
    (images : Hash → Option Bytes) (es : List TreeEvent) :
    Along (step hashKey) GuaranteeAt (opened nodes images) es ↔
      Along (step hashKey) CoveredAt (opened nodes images) es := by
  refine Along.congr (I := Kept) (fun s e hk h => hk.step hashKey e h) (fun s e hk => ?_) es
    ⟨fun _ _ h => (nomatch h), fun _ _ h => nomatch h⟩
  cases e with
  | flush w i => exact hk.guarantee_iff_covered
  | _ => exact Iff.rfl

end TreeOnDisk

namespace TreeFlushSample

open TreeOnDisk

/-- A batch of which nothing is written. -/
def failing {K : Type} : Write K := ⟨some (.new "disk full"), fun _ => false, nofun⟩

/-- A key is set in an empty tree, with one node. The write of the nodes fails: they are forgotten,
    and the next `Flush` writes nothing. -/
theorem nodes_lost : ¬ Along (step fun _ => ⟨1⟩) GuaranteeAt (opened (fun _ => none) fun _ => none)
    [.set [7] [5] [⟨[1], some [2]⟩] none, .flush failing .done] := by
  intro h
  have hnode := (h.2.1.2 (by decide)).1 [1] [2] (by decide)
  cases hnode

end TreeFlushSample

end GoMoi
