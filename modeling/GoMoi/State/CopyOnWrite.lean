/-
  File:      GoMoi/State/CopyOnWrite.lean
  Subject:   The copies of the system object behave as if `Copy` copied everything, as long as no
             setter leaves between its new reference and the assignment of its list.

  A reference says at least how many objects hold it, and two objects with different references
  share no array and no validator. A setter either writes new cells only, or writes in place to the
  cells of an object that holds its reference alone; in both cases the other objects keep what they
  show.

  * `Store.Owns`, `Apart`, `Writes` -- what a slice shows, slices without a common cell, and what a
    setter may write;
  * `Refines` -- the objects with their shared lists, and the objects of the deep copies;
    `Refines.step`;
  * `World.completes` -- the condition on a call;
  * `copies_refine` -- every run whose calls all meet it;
  * a run in which a callback fails on a shared list, and a later update of one object shows in the
    other.
-/
import GoMoi.State.SystemObject

namespace GoMoi.SystemCopies

open RefCount List Family Cells Plain Slice

variable {st st' : Store} {s s' t u : Slice (Ptr Validator)} {l l' m : List Validator}

/-! ## 1. What a slice shows -/

/-- The slice shows `l`, with a cell for each validator. -/
structure Store.Owns (st : Store) (s : Slice (Ptr Validator)) (l : List Validator) : Prop where
  ok : s.Ok st.arrays
  reads : (s.elems st.arrays).map st.validators.read = l.map some
  nodup : (s.elems st.arrays).Nodup

theorem Store.Owns.list (h : st.Owns s l) : st.list s = l := by
  have hmap := congrArg (List.filterMap id) h.reads
  rw [filterMap_map, filterMap_map] at hmap
  exact hmap.trans (filterMap_some ..)

theorem Store.Owns.length (h : st.Owns s l) : l.length = s.len := by
  have hlen := congrArg List.length h.reads
  rw [length_map, length_map, length_elems h.ok] at hlen
  exact hlen.symm

theorem Store.Owns.has (h : st.Owns s l) {p : Ptr Validator} (hp : p ∈ s.elems st.arrays) :
    st.validators.Has p := by
  have hmem : st.validators.read p ∈ l.map some := h.reads ▸ mem_map_of_mem hp
  obtain ⟨v, -, hv⟩ := mem_map.mp hmem
  exact has_iff_read.mpr ⟨v, hv.symm⟩

/-- A new validator does not change what the slice shows. -/
theorem Store.Owns.reads_alloc (h : st.Owns s l) (v : Validator) :
    (s.elems st.arrays).map (st.validators.alloc v).2.read = l.map some := by
  rw [← h.reads]
  exact map_congr_left fun p hp => (Cells.Kept.new _ v).read_eq (h.has hp)

/-- No common array and no common validator. -/
def Apart (st : Store) (s t : Slice (Ptr Validator)) : Prop :=
  s.array ≠ t.array ∧ ∀ p ∈ s.elems st.arrays, p ∉ t.elems st.arrays

theorem Apart.symm (h : Apart st s t) : Apart st t s :=
  ⟨h.1.symm, fun p hp hs => h.2 p hs hp⟩

/-- Only arrays of `A` and validators of `V` were written; the slice `s'` is made of them and of new
    cells, and shows `l'`. -/
structure Writes (A : Ptr (Backing (Ptr Validator)) → Prop) (V : Ptr Validator → Prop)
    (st st' : Store) (s' : Slice (Ptr Validator)) (l' : List Validator) : Prop where
  arrays : Cells.KeptOff A st.arrays st'.arrays
  validators : Cells.KeptOff V st.validators st'.validators
  array : A s'.array ∨ ¬ st.arrays.Has s'.array
  elems : ∀ p ∈ s'.elems st'.arrays, V p ∨ ¬ st.validators.Has p
  owns : st'.Owns s' l'

/-- Everything written is new. -/
abbrev WritesNew (st st' : Store) (s' : Slice (Ptr Validator)) (l' : List Validator) : Prop :=
  Writes (fun _ => False) (fun _ => False) st st' s' l'

/-- What is written is new or belongs to the slice `s`. -/
abbrev WritesTo (s : Slice (Ptr Validator)) (st st' : Store) (s' : Slice (Ptr Validator))
    (l' : List Validator) : Prop :=
  Writes (· = s.array) (· ∈ s.elems st.arrays) st st' s' l'

namespace Writes

variable {A : Ptr (Backing (Ptr Validator)) → Prop} {V : Ptr Validator → Prop}

section

variable (h : Writes A V st st' s' l') (ht : st.Owns t m) (hA : ¬ A t.array)
include h ht hA

/-- A slice outside of what is written keeps its cells. -/
theorem elems_eq : t.elems st'.arrays = t.elems st.arrays :=
  elems_congr (h.arrays.2 _ ht.ok.has hA)

theorem owns_other (hV : ∀ p ∈ t.elems st.arrays, ¬ V p) : st'.Owns t m := by
  have helems := h.elems_eq ht hA
  refine ⟨ht.ok.congr (h.arrays.2 _ ht.ok.has hA), ?_, ?_⟩
  · rw [helems, ← ht.reads]
    exact map_congr_left fun p hp => h.validators.2 p (ht.has hp) (hV p hp)
  · rw [helems]
    exact ht.nodup

theorem apart_other (hV : ∀ p ∈ t.elems st.arrays, ¬ V p) : Apart st' s' t := by
  constructor
  · intro e
    rcases h.array with hin | hnew
    · exact hA (e ▸ hin)
    · exact hnew (e ▸ ht.ok.has)
  · intro p hp hpt
    rw [h.elems_eq ht hA] at hpt
    rcases h.elems p hp with hin | hnew
    · exact hV p hpt hin
    · exact hnew (ht.has hpt)

end

end Writes

/-! ## 2. New slices -/

theorem newValidators_spec (st : Store) (vs : List Validator) :
    (st.newValidators vs).2.arrays = st.arrays
      ∧ (st.newValidators vs).2.references = st.references
      ∧ st.validators.Kept (st.newValidators vs).2.validators
      ∧ (st.newValidators vs).1.map (st.newValidators vs).2.validators.read = vs.map some
      ∧ (∀ p ∈ (st.newValidators vs).1, ¬ st.validators.Has p)
      ∧ (st.newValidators vs).1.Nodup := by
  induction vs generalizing st with
  | nil => exact ⟨rfl, rfl, Cells.Kept.refl _, rfl, fun p hp => absurd hp not_mem_nil, .nil⟩
  | cons v vs ih =>
    obtain ⟨harr, href, hkept, hreads, hnew, hnodup⟩ :=
      ih { st with validators := (st.validators.alloc v).2 }
    have hold : st.validators.Kept (st.validators.alloc v).2 := .new _ v
    have hhead : (st.validators.alloc v).2.Has (st.validators.alloc v).1 :=
      has_alloc.mpr (.inr rfl)
    refine ⟨harr, href, hold.trans hkept, ?_, ?_, ?_⟩
    · simp only [Store.newValidators, map_cons]
      rw [hreads, hkept.read read_alloc_new]
    · exact forall_mem_cons.mpr ⟨not_has_alloc v, fun p hp h => hnew p hp (hold.has h)⟩
    · exact nodup_cons.mpr ⟨fun hp => hnew _ hp hhead, hnodup⟩

/-- **A new slice** writes new cells only. -/
theorem newSlice_spec (st : Store) (vs : List Validator) :
    WritesNew st (st.newSlice vs).2 (st.newSlice vs).1 vs
      ∧ (st.newSlice vs).2.references = st.references := by
  obtain ⟨harr, href, hkept, hreads, hnew, hnodup⟩ := newValidators_spec st vs
  have helems : (st.newSlice vs).1.elems (st.newSlice vs).2.arrays = (st.newValidators vs).1 :=
    elems_make
  refine ⟨⟨?_, hkept.keptOff, .inr ?_, ?_, ⟨make_ok, ?_, ?_⟩⟩, href⟩
  · rw [← harr]
    exact make_kept.keptOff
  · rw [← harr]
    exact make_new
  · rw [helems]
    exact fun p hp => .inr (hnew p hp)
  · rw [helems]
    exact hreads
  · rw [helems]
    exact hnodup

/-! ## 3. Writes in place -/

theorem append_spec (h : st.Owns s l) (v : Validator) (spare : Nat) :
    WritesTo s st
      { st with
        validators := (st.validators.alloc v).2
        arrays := (s.append (st.validators.alloc v).1 spare st.arrays).2 }
      (s.append (st.validators.alloc v).1 spare st.arrays).1 (l ++ [v]) := by
  obtain ⟨helems, hok⟩ := elems_append h.ok (st.validators.alloc v).1 spare
  obtain ⟨hframe, harray⟩ := append_frame h.ok (st.validators.alloc v).1 spare
  refine ⟨hframe, (Cells.Kept.new _ v).keptOff, harray, ?_, hok, ?_, ?_⟩
  · rw [helems]
    exact forall_mem_append.mpr ⟨fun _ hp => .inl hp,
      forall_mem_singleton.mpr (.inr (not_has_alloc v))⟩
  · show List.map _ (elems _ _) = _
    rw [helems, map_append, map_append, h.reads_alloc]
    exact congrArg (l.map some ++ [·]) read_alloc_new
  show (elems _ _).Nodup
  rw [helems]
  refine nodup_append.mpr ⟨h.nodup, nodup_singleton _, fun p hp q hq e => ?_⟩
  rw [mem_singleton.mp hq] at e
  exact not_has_alloc v (e ▸ h.has hp)

theorem store_spec (h : st.Owns s l) (v : Validator) (i : Nat) :
    WritesTo s st
      { st with
        validators := (st.validators.alloc v).2
        arrays := s.store i (st.validators.alloc v).1 st.arrays }
      s (l.set i v) := by
  obtain ⟨helems, hok⟩ := elems_store h.ok (st.validators.alloc v).1 i
  refine ⟨keptOff_modify _, (Cells.Kept.new _ v).keptOff, .inl rfl, ?_, hok, ?_, ?_⟩
  · intro p hp
    rw [helems] at hp
    rcases mem_or_eq_of_mem_set hp with hp | rfl
    · exact .inl hp
    · exact .inr (not_has_alloc v)
  · show List.map _ (elems _ _) = _
    rw [helems, map_set, map_set, read_alloc_new, h.reads_alloc]
  · show (elems _ _).Nodup
    rw [helems]
    exact h.nodup.set fun hmem => not_has_alloc v (h.has hmem)

/-- **The loop over the cells** does what the loop over the list does, and writes to these cells
    alone. -/
theorem everyValidator_spec (f : SystemObject.Callback) {ps : List (Ptr Validator)}
    {c : Cells Validator} (seen : List Validator) (hreads : ps.map c.read = l.map some)
    (hnodup : ps.Nodup) :
    (SystemObject.everyValidator f seen ps c).1 = (everyValidator f seen l).1
      ∧ ps.map (SystemObject.everyValidator f seen ps c).2.read
          = (everyValidator f seen l).2.map some
      ∧ Cells.KeptOff (· ∈ ps) c (SystemObject.everyValidator f seen ps c).2 := by
  induction ps generalizing l c seen with
  | nil =>
    obtain rfl : l = [] := by simpa using hreads.symm
    exact ⟨rfl, rfl, Cells.KeptOff.refl c⟩
  | cons p ps ih =>
    obtain ⟨v, vs, rfl⟩ : ∃ v vs, l = v :: vs := by
      cases l with
      | nil => cases hreads
      | cons v vs => exact ⟨v, vs, rfl⟩
    obtain ⟨hp, hps⟩ := List.cons.inj hreads
    obtain ⟨hnot, hnodup⟩ := nodup_cons.mp hnodup
    have hhead : (c.modify p fun _ => (f seen v).1).read p = some (f seen v).1 := by
      rw [read_modify, if_pos rfl, hp]
      rfl
    have hrest : ps.map (c.modify p fun _ => (f seen v).1).read = vs.map some := by
      rw [← hps]
      refine map_congr_left fun q hq => ?_
      have hne : q ≠ p := fun e => hnot (e ▸ hq)
      rw [read_modify, if_neg hne]
    have hframe : Cells.KeptOff (· ∈ p :: ps) c (c.modify p fun _ => (f seen v).1) :=
      (keptOff_modify _).mono fun q hq => mem_cons.mpr (.inl hq)
    simp only [SystemObject.everyValidator, everyValidator, hp]
    rcases hf : (f seen v).2 with _ | _
    · refine ⟨rfl, ?_, hframe⟩
      rw [map_cons, hhead, hrest]
      rfl
    obtain ⟨hres, hmap, hkept⟩ := ih (seen ++ [v]) hrest hnodup
    refine ⟨?_, ?_, hframe.trans (hkept.mono fun q hq => mem_cons_of_mem p hq)⟩
    · simp [hres]
    · have hp' := hkept.2 p (has_iff_read.mpr ⟨_, hhead⟩) hnot
      simp [hmap, hp', hhead]

theorem every_spec (f : SystemObject.Callback) (h : st.Owns s l) :
    WritesTo s st
      { st with
        validators := (SystemObject.everyValidator f [] (s.elems st.arrays) st.validators).2 }
      s (everyValidator f [] l).2 := by
  obtain ⟨-, hmap, hkept⟩ := everyValidator_spec f [] h.reads h.nodup
  exact ⟨Cells.KeptOff.refl _, hkept, .inl rfl, fun p hp => .inl hp, h.ok, hmap, h.nodup⟩

/-! ## 4. The objects and their deep copies -/

/-- The references of all objects. -/
def World.handles (w : World) : Family (Ptr Nat) :=
  w.objects.map (Option.map SystemObject.reference)

variable {w : World} {so : SystemObject}

theorem World.live_handles {o : Nat} (h : w.objects.live o = some so) :
    w.handles.live o = some so.reference := by
  rw [World.handles, live_map, h]
  rfl

/-- **The abstraction**: every object shows the list of its deep copy, references say enough, and
    objects with different references share no cell. -/
structure Refines (w : World) (d : Family Plain) : Prop where
  length : w.objects.length = d.length
  owns : ∀ o so, w.objects.live o = some so →
    ∃ l, w.store.Owns so.vals l ∧ d.live o = some ⟨l, so.dirty⟩
  gone : ∀ o, w.objects.live o = none → d.live o = none
  apart : ∀ o o' so so', o ≠ o' → w.objects.live o = some so → w.objects.live o' = some so' →
    so.reference ≠ so'.reference → Apart w.store so.vals so'.vals
  counted : Counted w.handles w.store.references

namespace Refines

variable {w : World} {d : Family Plain} {o : Nat} {so so' : SystemObject}
  {A : Ptr (Backing (Ptr Validator)) → Prop} {V : Ptr Validator → Prop}

theorem start : Refines World.start [] :=
  ⟨rfl, fun o so h => absurd h (by simp [World.start, live]), fun _ _ => rfl,
    fun o o' so so' _ h => absurd h (by simp [World.start, live]), Counted.start⟩

variable {objects : Family SystemObject} {d' : Family Plain}

section

variable (h : Refines w d)
include h

/-- The lists after a change of the objects where each one is either as it was, outside of what was
    written, or the one that was written. -/
theorem of_writes (o : Nat) (so' : SystemObject) (hw : Writes A V w.store st' so'.vals l')
    (hlen : objects.length = d'.length)
    (hlive : ∀ j, objects.live j = if j = o then some so' else w.objects.live j)
    (hd : ∀ j, d'.live j = if j = o then some ⟨l', so'.dirty⟩ else d.live j)
    (hout : ∀ j sj, j ≠ o → w.objects.live j = some sj →
      ¬ A sj.vals.array ∧ ∀ p ∈ sj.vals.elems w.store.arrays, ¬ V p)
    (hcount : Counted (World.handles ⟨objects, st'⟩) st'.references) :
    Refines ⟨objects, st'⟩ d' := by
  -- an object that is not the written one
  have hother : ∀ j sj, j ≠ o → objects.live j = some sj → w.objects.live j = some sj := by
    intro j sj hj hlivej
    rwa [hlive, if_neg hj] at hlivej
  have hframe : ∀ j sj, j ≠ o → w.objects.live j = some sj →
      Apart st' so'.vals sj.vals
        ∧ sj.vals.elems st'.arrays = sj.vals.elems w.store.arrays := by
    intro j sj hj hlivej
    obtain ⟨m, hm, -⟩ := h.owns j sj hlivej
    obtain ⟨hA, hV⟩ := hout j sj hj hlivej
    exact ⟨hw.apart_other hm hA hV, hw.elems_eq hm hA⟩
  refine ⟨hlen, ?_, ?_, ?_, hcount⟩
  · intro j sj hj
    by_cases e : j = o
    · rw [hlive, if_pos e] at hj
      obtain rfl := Option.some.inj hj
      exact ⟨l', hw.owns, by rw [hd, if_pos e]⟩
    have hj' := hother j sj e hj
    obtain ⟨m, hm, hdm⟩ := h.owns j sj hj'
    obtain ⟨hA, hV⟩ := hout j sj e hj'
    exact ⟨m, hw.owns_other hm hA hV, by rw [hd, if_neg e, hdm]⟩
  · intro j hj
    rw [hlive] at hj
    rw [hd]
    split at hj
    case isTrue => cases hj
    case isFalse e =>
      rw [if_neg e]
      exact h.gone j hj
  · intro j k sj sk hjk hj hk href
    by_cases ej : j = o
    · have ek : k ≠ o := fun e => hjk (ej.trans e.symm)
      rw [hlive, if_pos ej] at hj
      obtain rfl := Option.some.inj hj
      exact (hframe k sk ek (hother k sk ek hk)).1
    have hj' := hother j sj ej hj
    by_cases ek : k = o
    · rw [hlive, if_pos ek] at hk
      obtain rfl := Option.some.inj hk
      exact (hframe j sj ej hj').1.symm
    have hk' := hother k sk ek hk
    have hap := h.apart j k sj sk hjk hj' hk' href
    refine ⟨hap.1, fun p hp => ?_⟩
    rw [(hframe j sj ej hj').2] at hp
    rw [(hframe k sk ek hk').2]
    exact hap.2 p hp

section

variable (ho : w.objects.live o = some so)
include ho

/-- An object that is given a list. -/
theorem put (so' : SystemObject) (hw : Writes A V w.store st' so'.vals l')
    (hout : ∀ j sj, j ≠ o → w.objects.live j = some sj →
      ¬ A sj.vals.array ∧ ∀ p ∈ sj.vals.elems w.store.arrays, ¬ V p)
    (hcount : Counted (w.handles.put o so'.reference) st'.references) :
    Refines ⟨w.objects.put o so', st'⟩ (d.put o ⟨l', so'.dirty⟩) := by
  have hlt := lt_of_live ho
  refine h.of_writes o so' hw ?_ (fun j => live_put hlt)
    (fun j => live_put (h.length ▸ hlt)) hout ?_
  · rw [length_put, length_put, h.length]
  · rw [World.handles, map_put]
    exact hcount

/-- A list of new cells. -/
theorem put_new (so' : SystemObject) (hw : WritesNew w.store st' so'.vals l')
    (hcount : Counted (w.handles.put o so'.reference) st'.references) :
    Refines ⟨w.objects.put o so', st'⟩ (d.put o ⟨l', so'.dirty⟩) :=
  h.put ho so' hw (fun _ _ _ _ => ⟨id, fun _ _ => id⟩) hcount

/-- A write in place by an object that holds its reference alone. -/
theorem put_own (hsolo : refs w.store.references so.reference ≤ 1)
    (hw : WritesTo so.vals w.store st' s' l') (href : st'.references = w.store.references)
    (dirty : Dirty) : Refines ⟨w.objects.put o { so with vals := s', dirty := dirty }, st'⟩
      (d.put o ⟨l', dirty⟩) := by
  refine h.put ho { so with vals := s', dirty := dirty } hw ?_ ?_
  · intro j sj hj hlive
    have hne : so.reference ≠ sj.reference := by
      intro e
      have hjh := World.live_handles hlive
      rw [← e] at hjh
      exact hj (h.counted.solo hsolo hjh (World.live_handles ho))
    have hap := h.apart o j so sj (Ne.symm hj) ho hlive hne
    exact ⟨fun e => hap.1 e.symm, fun p hp hpo => hap.2 p hpo hp⟩
  · rw [put_live (World.live_handles ho), href]
    exact h.counted

/-- **A setter goes on with a list of its own.** -/
theorem writable :
    Refines ⟨w.objects.put o { (so.writable w.store).2.1 with vals := (so.writable w.store).1 },
        (so.writable w.store).2.2⟩ d
      ∧ refs (so.writable w.store).2.2.references (so.writable w.store).2.1.reference ≤ 1
      ∧ (so.writable w.store).2.1.dirty = so.dirty := by
  obtain ⟨l, hl, hd⟩ := h.owns o so ho
  obtain rfl := hl.list
  unfold SystemObject.writable
  split
  case isTrue =>
    obtain ⟨hnew, href⟩ := newSlice_spec w.store (w.store.list so.vals)
    refine ⟨?_, ?_, rfl⟩
    · rw [← put_live hd]
      refine h.put_new ho { so with vals := _, reference := _ } ?_ ?_
      · exact ⟨hnew.arrays, hnew.validators, hnew.array, hnew.elems,
          hnew.owns.ok, hnew.owns.reads, hnew.owns.nodup⟩
      · simp only [SystemObject.copyValidators, href]
        exact h.counted.detach (World.live_handles ho)
    · show refs (alloc _ 1).2 (alloc _ 1).1 ≤ 1
      rw [refs_alloc, if_pos rfl]
  case isFalse hle =>
    refine ⟨?_, Nat.le_of_not_lt hle, rfl⟩
    rw [put_live ho]
    exact h

end

/-- Objects that each show the list of an object from before, under its reference. -/
theorem of_origin {references : Cells Nat} (hlen : objects.length = d'.length)
    (horigin : ∀ j sj, objects.live j = some sj → ∃ i si, w.objects.live i = some si
      ∧ sj.vals = si.vals ∧ sj.reference = si.reference ∧ sj.dirty = si.dirty
      ∧ d'.live j = d.live i) (hgone : ∀ j, objects.live j = none → d'.live j = none)
    (hcount : Counted (World.handles ⟨objects, w.store⟩) references) :
    Refines ⟨objects, { w.store with references := references }⟩ d' := by
  refine ⟨hlen, ?_, hgone, ?_, hcount⟩
  · intro j sj hj
    obtain ⟨i, si, hi, hvals, -, hdirty, hd⟩ := horigin j sj hj
    obtain ⟨l, hl, hdi⟩ := h.owns i si hi
    refine ⟨l, ?_, ?_⟩
    · rw [hvals]
      exact ⟨hl.ok, hl.reads, hl.nodup⟩
    · rw [hd, hdi, hdirty]
  · intro j k sj sk _ hj hk href
    obtain ⟨i, si, hi, hvals, hrefi, -, -⟩ := horigin j sj hj
    obtain ⟨i', si', hi', hvals', hrefi', -, -⟩ := horigin k sk hk
    rw [hrefi, hrefi'] at href
    have hne : i ≠ i' := by
      intro e
      subst e
      obtain rfl := Option.mem_unique hi hi'
      exact href rfl
    have hap := h.apart i i' si si' hne hi hi' href
    rw [hvals, hvals']
    exact ⟨hap.1, hap.2⟩

/-- A call on an object that is there, or on none. -/
theorem onObject {call : SystemObject → World} {call' : Plain → Family Plain}
    (hcall : ∀ so l, w.objects.live o = some so → w.store.Owns so.vals l →
      d.live o = some ⟨l, so.dirty⟩ → Refines (call so) (call' ⟨l, so.dirty⟩)) :
    Refines (w.onObject o call) (onObject d o call') := by
  unfold World.onObject Plain.onObject
  rcases ho : w.objects.live o with _ | so
  · simp only [h.gone o ho]
    exact h
  obtain ⟨l, hl, hd⟩ := h.owns o so ho
  simp only [hd]
  exact hcall so l ho hl hd

end

/-! ## 5. Every call -/

section

variable (h : Refines w d)
include h

theorem newSystemObject : Refines (w.step .newSystemObject) (step d .newSystemObject) := by
  obtain ⟨hnew, -⟩ := newSlice_spec w.store []
  have hw : WritesNew w.store (SystemCopies.newSystemObject w.store).2
      (SystemCopies.newSystemObject w.store).1.vals [] :=
    ⟨hnew.arrays, hnew.validators, hnew.array, hnew.elems,
      hnew.owns.ok, hnew.owns.reads, hnew.owns.nodup⟩
  refine h.of_writes w.objects.length _ hw ?_ (fun j => live_add) ?_
    (fun _ _ _ _ => ⟨id, fun _ _ => id⟩) ?_
  · rw [length_add, step, length_add, h.length]
  · intro j
    rw [h.length]
    exact live_add
  · rw [World.handles, map_add]
    exact h.counted.fresh

theorem copy : Refines (w.step (.copy o)) (step d (.copy o)) := by
  refine h.onObject fun so l ho _ hd => ?_
  refine h.of_origin ?_ ?_ ?_ ?_
  · rw [length_add, length_add, h.length]
  · intro j sj hj
    rw [live_add] at hj
    rw [live_add, ← h.length]
    split at hj
    case isTrue hnew =>
      obtain rfl := Option.some.inj hj
      exact ⟨o, so, ho, rfl, rfl, rfl, by rw [if_pos hnew, hd]⟩
    case isFalse hold => exact ⟨j, sj, hj, rfl, rfl, rfl, by rw [if_neg hold]⟩
  · intro j hj
    rw [live_add] at hj
    rw [live_add, ← h.length]
    split at hj
    case isTrue => cases hj
    case isFalse hold =>
      rw [if_neg hold]
      exact h.gone j hj
  · rw [World.handles, map_add]
    show Counted (w.handles.add so.reference) _
    exact h.counted.share (World.live_handles ho)

theorem release : Refines (w.step (.release o)) (step d (.release o)) := by
  refine h.onObject fun so l ho _ hd => ?_
  have hfree : ∀ references, Counted (w.handles.free o) references →
      Refines ⟨w.objects.free o, { w.store with references := references }⟩ (d.free o) := by
    intro references hcount
    refine h.of_origin ?_ ?_ ?_ ?_
    · rw [length_free, length_free, h.length]
    · intro j sj hj
      rw [live_free] at hj
      rw [live_free]
      split at hj
      case isTrue => cases hj
      case isFalse hne => exact ⟨j, sj, hj, rfl, rfl, rfl, by rw [if_neg hne]⟩
    · intro j hj
      rw [live_free] at hj ⊢
      split
      case isTrue => rfl
      case isFalse hne =>
        rw [if_neg hne] at hj
        exact h.gone j hj
    · rw [World.handles, map_free]
      exact hcount
  unfold SystemObject.release
  split
  case isTrue => exact hfree _ (h.counted.release (World.live_handles ho))
  case isFalse => exact hfree _ (h.counted.drop (World.live_handles ho))

theorem setValidators (vals : List Validator) :
    Refines (w.step (.setValidators o vals)) (step d (.setValidators o vals)) := by
  refine h.onObject fun so l ho _ hd => ?_
  obtain ⟨hnew, href⟩ := newSlice_spec w.store vals
  refine h.put_new ho (so.setValidators vals w.store).1 hnew ?_
  show Counted (w.handles.put o so.reference) (w.store.newSlice vals).2.references
  rw [put_live (World.live_handles ho), href]
  exact h.counted

/-- The list that a setter goes on with shows what the object showed. -/
theorem writable_owns (ho : w.objects.live o = some so) (hd : d.live o = some ⟨l, so.dirty⟩) :
    (so.writable w.store).2.2.Owns (so.writable w.store).1 l := by
  obtain ⟨hr, -, -⟩ := h.writable ho
  have hlive := live_put (j := o) (lt_of_live ho)
    (a := { (so.writable w.store).2.1 with vals := (so.writable w.store).1 })
  rw [if_pos rfl] at hlive
  obtain ⟨l1, hl1, hd1⟩ := hr.owns o _ hlive
  obtain rfl : l = l1 := congrArg vals (Option.mem_unique hd hd1)
  exact hl1

/-- A setter that has its own list and writes to it in place. -/
theorem put_writable (ho : w.objects.live o = some so) {dirty : Dirty}
    (hw : WritesTo (so.writable w.store).1 (so.writable w.store).2.2 st' s' l')
    (href : st'.references = (so.writable w.store).2.2.references) :
    Refines (w.write o ({ (so.writable w.store).2.1 with vals := s', dirty := dirty }, st'))
      (d.put o ⟨l', dirty⟩) := by
  obtain ⟨hr, hsolo, -⟩ := h.writable ho
  have hlive := live_put (j := o) (lt_of_live ho)
    (a := { (so.writable w.store).2.1 with vals := (so.writable w.store).1 })
  rw [if_pos rfl] at hlive
  have hput := hr.put_own hlive hsolo hw href dirty
  rw [put_put] at hput
  exact hput

theorem appendValidator (val : Validator) (spare : Nat) :
    Refines (w.step (.appendValidator o val spare)) (step d (.appendValidator o val spare)) := by
  refine h.onObject fun so l ho _ hd => ?_
  exact h.put_writable ho (append_spec (h.writable_owns ho hd) val spare) rfl

end

end Refines

/-- Who does not share its list writes to it. -/
theorem writable_solo (h : refs st.references so.reference ≤ 1) :
    so.writable st = (so.vals, so, st) := if_neg (Nat.not_lt_of_le h)

/-! ## 6. The condition on a call -/

/-- The callback fails on none of the validators. -/
def succeeds (f : SystemObject.Callback) (seen : List Validator) : List Validator → Bool
  | [] => true
  | v :: vs =>
    match (f seen v).2 with
    | .error _ => false
    | .ok _ => succeeds f (seen ++ [v]) vs

/-- No call that ends early finds a shared list: an update of a validator has its index in the list,
    an update of every validator has a callback that succeeds, or the reference says that the object
    is alone. -/
def World.completes (w : World) : Event → Bool
  | .updateValidator o index _ =>
    match w.objects.live o with
    | none => true
    | some so => refs w.store.references so.reference ≤ 1 || index < so.vals.len
  | .updateForEveryValidator o f =>
    match w.objects.live o with
    | none => true
    | some so =>
      refs w.store.references so.reference ≤ 1 || succeeds f [] (w.store.list so.vals)
  | _ => true

theorem everyValidator_succeeds {f : SystemObject.Callback} {seen : List Validator}
    (h : succeeds f seen l) : ∃ is, (everyValidator f seen l).1 = .ok is := by
  induction l generalizing seen with
  | nil => exact ⟨[], rfl⟩
  | cons v vs ih =>
    unfold succeeds at h
    unfold everyValidator
    rcases hf : (f seen v).2 with _ | _
    · simp [hf] at h
    simp only [hf] at h
    obtain ⟨_, his⟩ := ih h
    simp only [his]
    exact ⟨_, rfl⟩

namespace Refines

variable {w : World} {d : Family Plain} {o : Nat}

theorem updateValidator (h : Refines w d) (index : Nat) (val : Validator)
    (hok : w.completes (.updateValidator o index val)) :
    Refines (w.step (.updateValidator o index val))
      (Plain.step d (.updateValidator o index val)) := by
  refine h.onObject fun so l ho hl hd => ?_
  have hown := h.writable_owns ho hd
  simp only [SystemObject.updateValidator, Plain.updateValidator, ← hown.length]
  split
  case isTrue => exact h.put_writable ho (store_spec hown val index) rfl
  case isFalse hout =>
    have hsolo : refs w.store.references so.reference ≤ 1 := by
      simpa [World.completes, ho, ← hl.length, hout] using hok
    have hw : WritesTo so.vals w.store
        { w.store with validators := (w.store.validators.alloc val).2 } so.vals l :=
      ⟨Cells.KeptOff.refl _, (Cells.Kept.new _ val).keptOff, .inl rfl,
        fun p hp => .inl hp, hl.ok, hl.reads_alloc val, hl.nodup⟩
    rw [writable_solo hsolo]
    exact h.put_own ho hsolo hw rfl so.dirty

theorem updateForEveryValidator (h : Refines w d) (f : SystemObject.Callback)
    (hok : w.completes (.updateForEveryValidator o f)) :
    Refines (w.step (.updateForEveryValidator o f))
      (Plain.step d (.updateForEveryValidator o f)) := by
  refine h.onObject fun so l ho hl hd => ?_
  have hown := h.writable_owns ho hd
  obtain ⟨hres, -, -⟩ := everyValidator_spec f [] hown.reads hown.nodup
  simp only [SystemObject.updateForEveryValidator, Plain.updateForEveryValidator, hres]
  rcases hloop : (Plain.everyValidator f [] l).1 with err | modified
  swap
  · exact h.put_writable ho (every_spec f hown) rfl
  have hsolo : refs w.store.references so.reference ≤ 1 := by
    simp only [World.completes, ho, hl.list, Bool.or_eq_true, decide_eq_true_eq] at hok
    refine hok.resolve_right fun hs => ?_
    obtain ⟨_, his⟩ := everyValidator_succeeds hs
    rw [hloop] at his
    cases his
  rw [writable_solo hsolo]
  exact h.put_own ho hsolo (every_spec f hl) rfl so.dirty

/-- **Every call** that meets the condition. -/
theorem step (h : Refines w d) (e : Event) (hok : w.completes e) :
    Refines (w.step e) (Plain.step d e) := by
  cases e with
  | newSystemObject => exact h.newSystemObject
  | copy o => exact h.copy
  | release o => exact h.release
  | setValidators o vals => exact h.setValidators vals
  | appendValidator o val spare => exact h.appendValidator val spare
  | updateValidator o index val => exact h.updateValidator index val hok
  | updateForEveryValidator o f => exact h.updateForEveryValidator f hok

end Refines

/-! ## 7. Every run -/

/-- A call whose condition is met. -/
def CompleteStep : World → Event → World → Prop :=
  Guarded (fun w e => w.completes e) fun w e w' => w' = w.step e

theorem refines_run {es : List Event} (h : Run CompleteStep World.start es w) :
    Refines w (Plain.after es) := by
  apply h.invariant
  · exact Refines.start
  rintro _ w e _ hw ⟨hok, rfl⟩
  rw [Plain.after, foldl_append]
  exact hw.step e hok

/-- **Copy on write is deep copying**: in every run whose calls meet the condition, every object
    shows the list it would have if `Copy` copied everything. -/
theorem copies_refine {es : List Event} {w : World}
    (h : Run CompleteStep World.start es w) (o : Nat) :
    w.validators o = ((after es).live o).map vals := by
  have hr := refines_run h
  unfold World.validators
  rcases ho : w.objects.live o with _ | so
  · rw [hr.gone o ho]
    rfl
  obtain ⟨l, hl, hd⟩ := hr.owns o so ho
  rw [hd, Option.map_some, hl.list]
  rfl

/-! ## 8. A run that keeps the copies apart, and one that does not -/

namespace CopySample

def validator (id : Nat) (stake : Int) : Validator :=
  ⟨id, some stake, some 0, some 0, some 0, some 0, some 0, [], ⟨0⟩, [], [], ∅, 0⟩

/-- Adds one to the stake of every validator. -/
def raise : SystemObject.Callback :=
  fun _ v => ({ v with activeStake := v.activeStake.map (· + 1) }, .ok true)

/-- Changes nothing and fails. -/
def refuse : SystemObject.Callback :=
  fun _ v => (v, .error (.new "no stake"))

/-- The stakes that an object shows. -/
def stakes (vals : Option (List Validator)) : Option (List (Option Int)) :=
  vals.map (List.map Validator.activeStake)

/-- The calls, if all of them meet the condition. -/
def played (w : World) : List Event → Option World
  | [] => some w
  | e :: es => if w.completes e then played (w.step e) es else none

theorem run_of_played {w w' : World} {es : List Event} (h : played w es = some w') :
    Run CompleteStep w es w' := by
  induction es generalizing w with
  | nil =>
    cases h
    exact .start
  | cons e es ih =>
    unfold played at h
    split at h
    case isTrue hok => exact .cons ⟨hok, rfl⟩ (ih h)
    case isFalse => cases h

/-- Two copies of an object with one validator; the stakes are raised in the first copy, the second
    one is made from it and gets a validator more, the first one is released, and the second one
    updates both. -/
def apartCalls : List Event :=
  [.newSystemObject, .appendValidator 0 (validator 0 5) 1, .copy 0,
    .updateForEveryValidator 1 raise, .copy 1, .appendValidator 2 (validator 1 7) 0, .release 1,
    .updateValidator 2 0 (validator 0 9), .updateForEveryValidator 2 raise]

theorem raised_apart :
    (∃ w, Run CompleteStep World.start apartCalls w) ∧
      ∀ w, Run CompleteStep World.start apartCalls w →
        stakes (w.validators 0) = some [some 5] ∧
          stakes (w.validators 2) = some [some 10, some 8] := by
  have hplayed : (played World.start apartCalls).isSome := by decide +kernel
  obtain ⟨w, hw⟩ := Option.isSome_iff_exists.mp hplayed
  refine ⟨⟨w, run_of_played hw⟩, fun w h => ?_⟩
  rw [copies_refine h 0, copies_refine h 2]
  decide +kernel

/-- A copy whose callback fails at once, and is then given another validator in the place of the
    first. -/
def sharedCalls : List Event :=
  [.newSystemObject, .appendValidator 0 (validator 0 5) 1, .copy 0,
    .updateForEveryValidator 1 refuse, .updateValidator 1 0 (validator 0 9)]

/-- The update through the copy shows in the object it was copied from. -/
theorem refused_shared :
    stakes ((sharedCalls.foldl World.step World.start).validators 0) = some [some 9]
      ∧ stakes (((after sharedCalls).live 0).map vals) = some [some 5] := by
  decide +kernel

end CopySample

end GoMoi.SystemCopies
