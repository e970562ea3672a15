/-
  File:      GoMoi/Lib/GoMap.lean
  Subject:   Go maps, as Mathlib's association lists with unique keys.

  The order of the entries stands for one iteration order of the map. Go fixes none, so a result
  about a map is stated for every such list, and where a function iterates twice in two orders
  for a list and a permutation of its keys. Functions that sort the keys first (`sortedKeys`)
  read the same list from every order.

  * `Order` -- an order in which one loop runs over a map, where a call has several loops;
  * `mapState` -- an iteration that replaces every value and works on a state meanwhile.
-/
import Mathlib.Data.List.AList
import Mathlib.Data.List.Sort

namespace GoMoi

open List AList

/-- `map[K]V`. -/
abbrev GoMap (K V : Type) : Type := AList fun _ : K => V

namespace GoMap

variable {K V : Type}

/-- The order in which one loop runs over the entries of a map. -/
structure Order (m : GoMap K V) where
  entries : List (Σ _ : K, V)
  perm : entries.Perm m.entries

/-- The order in which the map is written down. -/
def Order.given (m : GoMap K V) : Order m := ⟨m.entries, List.Perm.refl _⟩

variable {m : GoMap K V} {k : K} {v : V}

theorem Order.mem_iff [DecidableEq K] (o : Order m) : ⟨k, v⟩ ∈ o.entries ↔ m.lookup k = some v :=
  o.perm.mem_iff.trans mem_lookup_iff.symm

/-- The order that begins with `e`, if the map has it. -/
def Order.first [DecidableEq K] [DecidableEq V] (e : Σ _ : K, V) (m : GoMap K V) : Order m :=
  if h : e ∈ m.entries then ⟨e :: m.entries.erase e, (perm_cons_erase h).symm⟩ else given m

/-- The order that ends with `e`, if the map has it. -/
def Order.last [DecidableEq K] [DecidableEq V] (e : Σ _ : K, V) (m : GoMap K V) : Order m :=
  if h : e ∈ m.entries then
    ⟨m.entries.erase e ++ [e], perm_append_comm.trans (perm_cons_erase h).symm⟩
  else given m

theorem Order.first_entries [DecidableEq K] [DecidableEq V] (h : m.lookup k = some v) :
    (Order.first ⟨k, v⟩ m).entries = ⟨k, v⟩ :: m.entries.erase ⟨k, v⟩ := by
  rw [Order.first, dif_pos (mem_lookup_iff.mp h)]

theorem Order.last_entries [DecidableEq K] [DecidableEq V] (h : m.lookup k = some v) :
    (Order.last ⟨k, v⟩ m).entries = m.entries.erase ⟨k, v⟩ ++ [⟨k, v⟩] := by
  rw [Order.last, dif_pos (mem_lookup_iff.mp h)]

/-! ## 1. Sorted keys -/

/-- The keys in increasing order. -/
def sortedKeys [LinearOrder K] (m : GoMap K V) : List K := m.keys.insertionSort (· ≤ ·)

/-! ## 2. Maps made from maps -/

section

variable [DecidableEq K] {W : Type}

/-- The entries an iteration keeps, with new values. -/
def filterMap (m : GoMap K V) (f : K → V → Option W) : GoMap K W where
  entries := m.entries.filterMap fun e => (f e.1 e.2).map (Sigma.mk e.1)
  nodupKeys := by
    have hmem : ∀ (l : List (Σ _ : K, V)) k,
        k ∈ (l.filterMap fun e => (f e.1 e.2).map (Sigma.mk (β := fun _ : K => W) e.1)).keys →
          k ∈ l.keys := by
      intro l k hk
      obtain ⟨e, he, rfl⟩ := mem_map.mp hk
      obtain ⟨e', he', hf⟩ := mem_filterMap.mp he
      obtain ⟨w, _, rfl⟩ := Option.map_eq_some_iff.mp hf
      exact mem_map.mpr ⟨e', he', rfl⟩
    obtain ⟨l, hl⟩ := m
    induction l with
    | nil => exact nodupKeys_nil
    | cons e l ih =>
      obtain ⟨hnew, hrest⟩ := nodupKeys_cons.mp hl
      simp only [filterMap_cons]
      cases hf : f e.1 e.2 with
      | none => exact ih hrest
      | some w => exact nodupKeys_cons.mpr ⟨fun h => hnew (hmem l _ h), ih hrest⟩

/-- **A key is bound to what its old value is mapped to.** -/
theorem lookup_filterMap (m : GoMap K V) (f : K → V → Option W) (k : K) :
    (m.filterMap f).lookup k = (m.lookup k).bind (f k) := by
  obtain ⟨l, hl⟩ := m
  simp only [AList.lookup, filterMap]
  induction l with
  | nil => rfl
  | cons e l ih =>
    obtain ⟨k', v⟩ := e
    obtain ⟨hnew, hrest⟩ := nodupKeys_cons.mp hl
    simp only [filterMap_cons]
    by_cases hk : k = k'
    · subst hk
      rw [dlookup_cons_eq, Option.bind_some]
      cases hf : f k v with
      | none =>
        have hnone : List.dlookup k l = none := dlookup_eq_none.mpr hnew
        exact (ih hrest).trans (by rw [hnone]; rfl)
      | some w => exact dlookup_cons_eq _ _ _
    rw [dlookup_cons_ne _ _ hk, ← ih hrest]
    cases f k' v with
    | none => rfl
    | some w => exact dlookup_cons_ne _ _ hk

omit [DecidableEq K] in
/-- A field of the value behind a key assigned. -/
def modify (m : GoMap K V) (k : K) (f : V → V) : GoMap K V :=
  m.filterMap fun k' v => some (if k' = k then f v else v)

theorem lookup_modify (m : GoMap K V) (k k' : K) (f : V → V) :
    (m.modify k f).lookup k' = (m.lookup k').map fun v => if k' = k then f v else v := by
  rw [modify, lookup_filterMap]
  cases m.lookup k' <;> rfl

variable {m : GoMap K V} {k' : K}

theorem of_lookup_insert {v' : V} (h : (m.insert k v).lookup k' = some v') :
    (k' = k ∧ v' = v) ∨ m.lookup k' = some v' := by
  by_cases hk : k' = k
  · subst hk
    rw [lookup_insert] at h
    exact .inl ⟨rfl, (Option.some.inj h).symm⟩
  · rw [lookup_insert_ne hk] at h
    exact .inr h

theorem lookup_singleton :
    (AList.singleton k v : GoMap K V).lookup k' = if k' = k then some v else none := by
  rw [← insert_empty]
  by_cases hk : k' = k
  · rw [if_pos hk, hk, lookup_insert]
  · rw [if_neg hk, lookup_insert_ne hk]
    rfl

theorem of_lookup_singleton {v' : V} (h : (AList.singleton k v : GoMap K V).lookup k' = some v') :
    k' = k ∧ v' = v := by
  rw [lookup_singleton] at h
  split at h
  case isTrue hk => exact ⟨hk, (Option.some.inj h).symm⟩
  case isFalse => cases h

theorem of_lookup_erase (h : (m.erase k).lookup k' = some v) : m.lookup k' = some v := by
  by_cases hk : k' = k
  · rw [hk, lookup_erase] at h
    cases h
  · rwa [lookup_erase_ne hk] at h

/-- Only what is done with the bound values matters. -/
theorem filterMap_congr {f g : K → V → Option W} (h : ∀ k v, m.lookup k = some v → f k v = g k v) :
    m.filterMap f = m.filterMap g := by
  refine AList.ext (List.filterMap_congr fun e he => ?_)
  rw [h e.1 e.2 (mem_lookup_iff.mpr he)]

/-- Folding over the entries of a map, an update of one key at a time acts on each bound key
    once. -/
theorem lookup_foldl_entries (step : GoMap K W → (Σ _ : K, V) → GoMap K W)
    (f : K → Option W → V → W)
    (hstep : ∀ m e k, (step m e).lookup k =
      if k = e.1 then some (f k (m.lookup k) e.2) else m.lookup k)
    (p : GoMap K V) (m : GoMap K W) (k : K) :
    (p.entries.foldl step m).lookup k =
      match p.lookup k with
      | none => m.lookup k
      | some v => some (f k (m.lookup k) v) := by
  obtain ⟨l, hl⟩ := p
  simp only [AList.lookup]
  induction l generalizing m with
  | nil => rfl
  | cons e l ih =>
    obtain ⟨hnew, hrest⟩ := nodupKeys_cons.mp hl
    obtain ⟨k', v⟩ := e
    rw [foldl_cons, ih _ hrest]
    by_cases hk : k = k'
    · subst hk
      rw [dlookup_cons_eq, dlookup_eq_none.mpr hnew]
      exact (hstep m _ _).trans (if_pos rfl)
    rw [dlookup_cons_ne _ _ hk]
    have hsame : (step m ⟨k', v⟩).lookup k = m.lookup k := (hstep m _ _).trans (if_neg hk)
    simp only [AList.lookup] at hsame
    rw [hsame]

end

/-! ## 3. The values of a map -/

/-- The values, in the order of one iteration. -/
def values (m : GoMap K V) : List V := m.entries.map Sigma.snd

theorem mem_values [DecidableEq K] : v ∈ m.values ↔ ∃ k, m.lookup k = some v := by
  unfold values
  rw [mem_map]
  constructor
  · rintro ⟨e, he, rfl⟩
    exact ⟨e.1, mem_lookup_iff.mpr he⟩
  · rintro ⟨k, hk⟩
    exact ⟨⟨k, v⟩, mem_lookup_iff.mp hk, rfl⟩

/-- A bound value and the others. -/
theorem values_perm_erase [DecidableEq K] (h : m.lookup k = some v) :
    m.values.Perm (v :: values (m.erase k)) := by
  have hmem : k ∈ m.entries.keys := lookup_isSome.mp (by rw [h]; rfl)
  obtain ⟨w, _, _, _, hl, hk⟩ := exists_of_kerase hmem
  have hw : w = v := by
    have hin : (⟨k, w⟩ : Σ _ : K, V) ∈ m.entries := by simp [hl]
    exact Option.some.inj ((mem_lookup_iff.mpr hin).symm.trans h)
  show (m.entries.map Sigma.snd).Perm (v :: (List.kerase k m.entries).map Sigma.snd)
  rw [hk, hl, hw, map_append, map_append, map_cons]
  exact perm_middle

/-! ## 4. A map made by an iteration that works on a state -/

section

variable {W S : Type}

/-- The loop over the entries. -/
def mapEntries (f : K → V → S → W × S) : List (Σ _ : K, V) → S → List (Σ _ : K, W) × S
  | [], s => ([], s)
  | e :: l, s =>
    let r := mapEntries f l (f e.1 e.2 s).2
    (⟨e.1, (f e.1 e.2 s).1⟩ :: r.1, r.2)

theorem keys_mapEntries (f : K → V → S → W × S) (l : List (Σ _ : K, V)) (s : S) :
    (mapEntries f l s).1.keys = l.keys := by
  induction l generalizing s with
  | nil => rfl
  | cons e l ih =>
    show e.1 :: (mapEntries f l (f e.1 e.2 s).2).1.keys = e.1 :: l.keys
    rw [ih]

/-- Every value replaced, the state threaded through. -/
def mapState (f : K → V → S → W × S) (m : GoMap K V) (s : S) : GoMap K W × S :=
  (⟨(mapEntries f m.entries s).1, by
    unfold List.NodupKeys
    rw [keys_mapEntries]
    exact m.nodupKeys⟩, (mapEntries f m.entries s).2)

variable {f : K → V → S → W × S} {R : S → S → Prop} {m : GoMap K V} {s : S} {w w' : W} {k' : K}
  {l : List (Σ _ : K, V)}

theorem mem_mapState : k ∈ (m.mapState f s).1 ↔ k ∈ m := by
  show k ∈ (mapEntries f m.entries s).1.keys ↔ k ∈ m.entries.keys
  rw [keys_mapEntries]

section

variable [Std.Refl R] [IsTrans S R] (hf : ∀ k v s, R s (f k v s).2)
include hf

theorem mapEntries_related (l : List (Σ _ : K, V)) (s : S) : R s (mapEntries f l s).2 := by
  induction l generalizing s with
  | nil => exact refl_of R s
  | cons e l ih => exact trans_of R (hf e.1 e.2 s) (ih _)

/-- **A preorder that every round meets relates the first state to the last one.** -/
theorem mapState_related (m : GoMap K V) (s : S) : R s (m.mapState f s).2 :=
  mapEntries_related hf m.entries s

variable [DecidableEq K]

theorem of_dlookup_mapEntries (h : (mapEntries f l s).1.dlookup k = some w) :
    ∃ v s1, l.dlookup k = some v ∧ R s s1 ∧ R (f k v s1).2 (mapEntries f l s).2 ∧
      w = (f k v s1).1 := by
  induction l generalizing s with
  | nil => cases h
  | cons e l ih =>
    obtain ⟨k0, v0⟩ := e
    by_cases hkk : k = k0
    · subst hkk
      rw [mapEntries, dlookup_cons_eq] at h
      cases h
      exact ⟨v0, s, dlookup_cons_eq _ _ _, refl_of R s, mapEntries_related hf l _, rfl⟩
    · rw [mapEntries, dlookup_cons_ne _ _ hkk] at h
      obtain ⟨v, s1, hv, h1, h2, hw⟩ := ih h
      exact ⟨v, s1, (dlookup_cons_ne _ _ hkk).trans hv, trans_of R (hf k0 v0 s) h1, h2, hw⟩

/-- **A bound key is bound to the result of its round.** -/
theorem of_lookup_mapState (hk : (m.mapState f s).1.lookup k = some w) :
    ∃ v s1, m.lookup k = some v ∧ R s s1 ∧ R (f k v s1).2 (m.mapState f s).2 ∧ w = (f k v s1).1 :=
  of_dlookup_mapEntries hf hk

theorem lookup_mapState {v : V} (hk : m.lookup k = some v) :
    ∃ s1, R s s1 ∧ R (f k v s1).2 (m.mapState f s).2 ∧
      (m.mapState f s).1.lookup k = some (f k v s1).1 := by
  have hmem : k ∈ (m.mapState f s).1 := mem_mapState.mpr (lookup_isSome.mp (by rw [hk]; rfl))
  obtain ⟨w, hw⟩ := Option.isSome_iff_exists.mp (lookup_isSome.mpr hmem)
  obtain ⟨_, s1, hv, h1, h2, rfl⟩ := of_lookup_mapState hf hw
  cases hk.symm.trans hv
  exact ⟨s1, h1, h2, hw⟩

/-- **Of two keys one has its round when the round of the other is over.** -/
theorem mapEntries_apart (hne : k ≠ k') (h : (mapEntries f l s).1.dlookup k = some w)
    (h' : (mapEntries f l s).1.dlookup k' = some w') :
    ∃ v s1 v' s1', (l.dlookup k = some v ∧ R s s1 ∧ w = (f k v s1).1) ∧
      (l.dlookup k' = some v' ∧ R s s1' ∧ w' = (f k' v' s1').1) ∧
      (R (f k v s1).2 s1' ∨ R (f k' v' s1').2 s1) := by
  induction l generalizing s with
  | nil => cases h
  | cons e l ih =>
    obtain ⟨k0, v0⟩ := e
    have hlater : ∀ s1, R (f k0 v0 s).2 s1 → R s s1 := fun _ => trans_of R (hf k0 v0 s)
    by_cases hkk : k = k0
    · subst hkk
      rw [mapEntries, dlookup_cons_eq] at h
      rw [mapEntries, dlookup_cons_ne _ _ (Ne.symm hne)] at h'
      cases h
      obtain ⟨v', s1', hv', h1, -, hw'⟩ := of_dlookup_mapEntries hf h'
      rw [dlookup_cons_eq, dlookup_cons_ne _ _ (Ne.symm hne)]
      exact ⟨v0, s, v', s1', ⟨rfl, refl_of R s, rfl⟩, ⟨hv', hlater _ h1, hw'⟩, .inl h1⟩
    rw [mapEntries, dlookup_cons_ne _ _ hkk] at h
    rw [dlookup_cons_ne _ _ hkk]
    by_cases hkk' : k' = k0
    · subst hkk'
      rw [mapEntries, dlookup_cons_eq] at h'
      cases h'
      obtain ⟨v, s1, hv, h1, -, hw⟩ := of_dlookup_mapEntries hf h
      rw [dlookup_cons_eq]
      exact ⟨v, s1, v0, s, ⟨hv, hlater _ h1, hw⟩, ⟨rfl, refl_of R s, rfl⟩, .inr h1⟩
    rw [mapEntries, dlookup_cons_ne _ _ hkk'] at h'
    rw [dlookup_cons_ne _ _ hkk']
    obtain ⟨v, s1, v', s1', ⟨hv, h1, hw⟩, ⟨hv', h1', hw'⟩, hround⟩ := ih h h'
    exact ⟨v, s1, v', s1', ⟨hv, hlater _ h1, hw⟩, ⟨hv', hlater _ h1', hw'⟩, hround⟩

theorem rounds_apart (hne : k ≠ k') (hk : (m.mapState f s).1.lookup k = some w)
    (hk' : (m.mapState f s).1.lookup k' = some w') :
    ∃ v s1 v' s1', w = (f k v s1).1 ∧ w' = (f k' v' s1').1 ∧
      (R (f k v s1).2 s1' ∨ R (f k' v' s1').2 s1) := by
  obtain ⟨v, s1, v', s1', h, h', hround⟩ := mapEntries_apart hf hne hk hk'
  exact ⟨v, s1, v', s1', h.2.2, h'.2.2, hround⟩

end

/-- **Results that are new in every round differ from key to key.** -/
theorem mapState_injective [DecidableEq K] {O : W → S → Prop} {P : V → S → Prop}
    (hold : ∀ k v s w, O w s → O w (f k v s).2) (hnew : ∀ k v s, P v s → O (f k v s).1 (f k v s).2)
    (hok : ∀ k v s v', P v' s → P v' (f k v s).2) (hfresh : ∀ k v s, P v s → ¬ O (f k v s).1 s)
    (hm : ∀ k v, m.lookup k = some v → P v s)
    (hk : (m.mapState f s).1.lookup k = some w) (hk' : (m.mapState f s).1.lookup k' = some w) :
    k = k' := by
  by_contra hne
  let R : S → S → Prop := fun s s' => (∀ w, O w s → O w s') ∧ ∀ v, P v s → P v s'
  have : IsPreorder S R :=
    { refl := fun _ => ⟨fun _ h => h, fun _ h => h⟩
      trans := fun _ _ _ h h' => ⟨fun w hw => h'.1 w (h.1 w hw), fun v hv => h'.2 v (h.2 v hv)⟩ }
  obtain ⟨v, s1, v', s1', ⟨hv, h1, rfl⟩, ⟨hv', h1', hw⟩, hround⟩ :=
    mapEntries_apart (R := R) (fun k v s => ⟨hold k v s, hok k v s⟩) hne hk hk'
  have hP := h1.2 v (hm k v hv)
  have hP' := h1'.2 v' (hm k' v' hv')
  -- what the earlier round has made is not new in the later one
  rcases hround with h | h
  · exact hfresh k' v' s1' hP' (hw ▸ h.1 _ (hnew k v s1 hP))
  · exact hfresh k v s1 hP (hw ▸ h.1 _ (hnew k' v' s1' hP'))

/-- **Results that can be read back in every later state give the map back.** -/
theorem filterMap_mapState [Std.Refl R] [IsTrans S R] (hf : ∀ k v s, R s (f k v s).2)
    {g : S → K → W → Option V}
    (hg : ∀ k v s s', R (f k v s).2 s' → g s' k (f k v s).1 = some v) (m : GoMap K V) {s' : S}
    (hs : R (m.mapState f s).2 s') : (m.mapState f s).1.filterMap (g s') = m := by
  have key : ∀ (l : List (Σ _ : K, V)) s, R (mapEntries f l s).2 s' →
      ((mapEntries f l s).1.filterMap fun e => (g s' e.1 e.2).map (Sigma.mk e.1)) = l := by
    intro l
    induction l with
    | nil =>
      intro s _
      rfl
    | cons e l ih =>
      intro s h
      have hround := hg e.1 e.2 s s' (trans_of R (mapEntries_related hf l _) h)
      simp only [mapEntries, filterMap_cons, hround, Option.map_some]
      rw [ih _ h]
  exact AList.ext (key m.entries s hs)

end

end GoMap

end GoMoi
