/-
  File:      GoMoi/Lattice/Recorded.lean
  Subject:   Which participants of a tesseract are recorded after `AddTesseract` has returned `nil`.

  A participant is recorded if the hash of the tesseract stands under its height and its account
  meta information is at that height (`RecordedAt`). A call writes one participant after the other,
  so that a call that fails, or a call for a single participant, leaves some of them recorded. The
  first loop of `addParticipantsData` then takes one stored participant for all of them.

  * `RecordsKept` -- no record is lost by a call, however it ends; `history_keeps` is the same for
    every history of calls;
  * `wp_addTesseract_all` -- a call for all participants that returns `nil` has recorded them, or
    had found one of them stored;
  * `addsAll_iff` -- every such call records every participant that has to be, whatever fails,
    exactly if none of them was stored or all of them were recorded before it.
-/
import GoMoi.Lattice.Manager
import GoMoi.Lib.Run

namespace GoMoi

open FaultyStore Disk Proc List

/-! ## 1. Records -/

/-- The participant has to record the tesseract. -/
structure MustRecord (ts : Tesseract) (id : Identifier) (st : State) : Prop where
  participant : ts.participants.lookup id = some st
  included : st.stateHash ≠ nilHash
  locked : ts.lockedWeaker id = false

/-- The tesseract is recorded for the account. -/
structure RecordedAt (E : MetaCodec) (m : Entries) (id : Identifier) (height : UInt64)
    (tsHash : Hash) : Prop where
  heightEntry : m.lookup (tesseractHeightKey id height) = some tsHash.bytes
  metaInfo : HasMetaAt E m id height

/-- What `m` has recorded, `m'` has too. -/
structure RecordsKept (E : MetaCodec) (m m' : Entries) : Prop where
  heights : ∀ id height v, m.lookup (tesseractHeightKey id height) = some v →
    m'.lookup (tesseractHeightKey id height) = some v
  metas : MetaGrown E m m'

namespace RecordsKept

variable {E : MetaCodec} {m m' m'' : Entries}

theorem refl (m : Entries) : RecordsKept E m m := ⟨fun _ _ _ h => h, .rfl⟩

theorem of_eq (h : m' = m) : RecordsKept E m m' := by
  rw [h]
  exact refl m

section

variable (h : RecordsKept E m m')
include h

theorem trans (h' : RecordsKept E m' m'') : RecordsKept E m m'' :=
  ⟨fun id height v hv => h'.heights id height v (h.heights id height v hv),
    fun id height hh => h'.metas id height (h.metas id height hh)⟩

theorem recordedAt {id : Identifier} {height : UInt64} {tsHash : Hash}
    (hr : RecordedAt E m id height tsHash) : RecordedAt E m' id height tsHash :=
  ⟨h.heights id height _ hr.heightEntry, h.metas id height hr.metaInfo⟩

/-- **Records are not touched under keys of other lengths.** -/
theorem insert {k v : Bytes} (h41 : k.length ≠ 41) (h48 : k.length ≠ 48) :
    RecordsKept E m (m'.insert k v) := by
  refine ⟨fun id height w hw => ?_, fun id height hh => ?_⟩
  · rw [AList.lookup_insert_ne (ne_of_apply_ne List.length (by simpa using h41.symm))]
    exact h.heights id height w hw
  · exact (h.metas id height hh).insert_ne (ne_of_apply_ne List.length (by simpa using h48.symm))

theorem putAll {ws : List (Bytes × Bytes)} (hws : ∀ w ∈ ws, w.1.length ≠ 41 ∧ w.1.length ≠ 48) :
    RecordsKept E m (FaultyStore.putAll m' ws) :=
  putAll_induction (fun w hw _ hm => hm.insert (hws w hw).1 (hws w hw).2) h

end

end RecordsKept

/-! ## 2. Recording one participant -/

/-- The entries that an object is flushed in: nodes of its trees, the keys behind the hashed keys,
    and its dirty entries. -/
inductive IsFlushWrite (id : Identifier) (o : StateObject) : Bytes × Bytes → Prop where
  | node {tag : PrefixTag} {d : Hash} {n : Bytes} (htag : tag.isTree = true) :
      IsFlushWrite id o (dbKey id tag d.bytes, n)
  | preImage {d : Hash} {key : Bytes} : IsFlushWrite id o (preImageKey id d, key)
  | record {e : ObjectRecord × Hash × Bytes} (h : e ∈ o.dirtyEntries) :
      IsFlushWrite id o (dbKey id e.1.tag e.2.1.bytes, e.2.2)

theorem IsFlushWrite.key_length {id : Identifier} {o : StateObject} {w : Bytes × Bytes}
    (h : IsFlushWrite id o w) : w.1.length = 65 := by
  cases h with
  | node htag => exact dbKey_hash_length (PrefixTag.isAccountBasedKey_of_isTree htag) id _
  | @preImage d _ => exact @dbKey_hash_length .preImage rfl id d
  | @record e => exact dbKey_hash_length (by cases e.1 <;> rfl) id _

section

variable {I : Entries → Prop} {id : Identifier} {o : StateObject} {tag : PrefixTag}

theorem flushDirty_keeps {es : List (ObjectRecord × Hash × Bytes)}
    (h : ∀ e ∈ es, ∀ m, I m → I (m.insert (dbKey id e.1.tag e.2.1.bytes) e.2.2)) :
    Keeps I (flushDirty id es) := by
  induction es with
  | nil => exact .pure _
  | cons e es ih =>
    refine .bindErr (insert_keeps fun m _ => h e mem_cons_self m) .pure ?_
    exact ih fun e' he' => h e' (mem_cons_of_mem e he')

variable (h : ∀ w m, IsFlushWrite id o w → I m → I (m.insert w.1 w.2))
include h

theorem flushTree_keeps (htag : tag.isTree = true) (t : TreeDB) : Keeps I (flushTree id tag t) := by
  refine .ite (.pure _) (.bindErr (writeBatch_keeps fun w hw m => ?_) .pure
    (writeBatch_keeps fun w hw m => ?_))
  · obtain ⟨e, _, rfl⟩ := mem_map.mp hw
    exact h _ m (.node htag)
  · obtain ⟨e, _, rfl⟩ := mem_map.mp hw
    exact h _ m .preImage

theorem flushTree?_keeps (htag : tag.isTree = true) (t : Option TreeDB) :
    Keeps I (flushTree? id tag t) := by
  cases t with
  | none => exact .pure _
  | some t => exact flushTree_keeps h htag t

theorem flushTrees_keeps (ts : List TreeDB) : Keeps I (flushTrees id ts) := by
  induction ts with
  | nil => exact .pure _
  | cons t ts ih => exact .bindErr (flushTree_keeps h rfl t) .pure ih

theorem flushStorageTrees_keeps : Keeps I (flushStorageTrees id o) := by
  unfold flushStorageTrees
  cases o.metaStorageTree with
  | none => exact .pure _
  | some t =>
    exact .bindErr (flushTrees_keeps h _) .pure (flushTree_keeps h rfl t)

/-- **A flush writes nodes, preimages and dirty entries** and nothing else. -/
theorem flushObject_keeps : Keeps I (flushObject id o) := by
  refine .bindErr (flushTree?_keeps h rfl _) .pure ?_
  refine .bindErr (flushTree?_keeps h rfl _) .pure ?_
  refine .bindErr (flushStorageTrees_keeps h) .pure ?_
  exact flushDirty_keeps fun e he m => h _ m (.record he)

end

namespace ChainManager

variable {E : ChainEnv}

/-- A call that loses no record, however it ends, and of which `Q` holds if it returns. -/
abbrev KeepsRecords {A : Type} (E : ChainEnv) (x : Proc Disk A) (Q : A → Disk → Prop) (s : Disk) :
    Prop :=
  wp x (fun r s' => RecordsKept E.metas s.entries s'.entries ∧ Q r s')
    (fun s' => RecordsKept E.metas s.entries s'.entries) s

/-- An update of the meta information, seen with the entries of the heights. -/
theorem wp_updateAccMetaInfo_kept (u : MetaUpdate) (s : Disk) :
    KeepsRecords E (updateAccMetaInfo E.metas u)
      (fun r s' => r.2.2 = none → HasMetaAt E.metas s'.entries u.id u.height) s := by
  have hheights : Keeps (fun m' => ∀ id height v,
      s.entries.lookup (tesseractHeightKey id height) = some v →
        m'.lookup (tesseractHeightKey id height) = some v) (updateAccMetaInfo E.metas u) := by
    refine updateAccMetaInfo_keeps (fun m v hm id height w hw => ?_) fun m v hm id height w hw => ?_
    · rw [AList.lookup_insert_ne (ne_of_apply_ne List.length (by simp))]
      exact hm id height w hw
    · rw [AList.lookup_insert_ne (ne_of_apply_ne List.length (by simp))]
      exact hm id height w hw
  refine wp_mono (wp_and (wp_updateAccMetaInfo (E := E.metas) u s)
    (hheights.to_wp (s := s) fun _ _ _ h => h)) (fun r s' h => ?_) fun s' h => ?_
  · exact ⟨⟨h.2, h.1.1⟩, h.1.2⟩
  · exact ⟨h.2, h.1⟩

variable {id : Identifier} {tsHash : Hash} {st : State} {ts : Tesseract} {m : Entries}
  {l : List (Σ _ : Identifier, State)} {a : ChainAnswers} {I : Entries → Prop}
  {allParticipants : Bool} {t : LoadedTesseract}

/-- **A participant that is added without an error is recorded**, and no record is lost. -/
theorem wp_addParticipant {commitHash : Hash} {transition : ChainTransition} (s : Disk) :
    KeepsRecords E (addParticipant E id tsHash commitHash st transition)
      (fun err s' => err = none → RecordedAt E.metas s'.entries id st.height tsHash) s := by
  unfold addParticipant
  simp only [wp_bind]
  refine wp_ofGo.mpr ⟨fun o _ => ?_, fun _ _ => .refl _⟩
  have hflush : Keeps (RecordsKept E.metas s.entries) (flushObject id o) :=
    flushObject_keeps fun w m hw hm => hm.insert (by rw [hw.key_length]; omega)
      (by rw [hw.key_length]; omega)
  refine wp_post (hflush.to_wp (RecordsKept.refl _)) fun err s1 h1 => ?_
  rcases err with _ | e
  swap
  · exact ⟨h1, by simp⟩
  rw [wp_bind]
  -- both ways of a successful insertion end with the entry of the height
  have hmeta : ∀ m' fs, RecordsKept E.metas s.entries m' →
      m'.lookup (tesseractHeightKey id st.height) = some tsHash.bytes →
      wp (updateAccMetaInfo E.metas (metaUpdate E id tsHash commitHash st o) >>= fun r =>
          pure (GoError.wrapErr r.2.2 "account meta info update failed"))
        (fun err s' => RecordsKept E.metas s.entries s'.entries ∧
          (err = none → RecordedAt E.metas s'.entries id st.height tsHash))
        (fun s' => RecordsKept E.metas s.entries s'.entries) ⟨m', fs⟩ := by
    intro m' fs hkept hentry
    rw [wp_bind]
    refine wp_mono (wp_updateAccMetaInfo_kept _ ⟨m', fs⟩) (fun r s' h => ?_)
      fun s' h => hkept.trans h
    refine ⟨hkept.trans h.1, fun hnone => ⟨h.1.heights _ _ _ hentry, h.2 ?_⟩⟩
    exact Option.map_eq_none_iff.mp hnone
  refine wp_insert (fun e fs => ⟨h1, by simp⟩) (fun hthere fs => ?_)
    fun hnone fs => ?_
  · exact hmeta _ fs h1 hthere
  refine hmeta _ fs ⟨fun id' height' v hv => ?_, fun id' height' h => ?_⟩
    (AList.lookup_insert _)
  · have hv1 := h1.heights id' height' v hv
    have hne : tesseractHeightKey id' height' ≠ tesseractHeightKey id st.height := by
      intro heq
      rw [heq, hnone] at hv1
      cases hv1
    rw [AList.lookup_insert_ne hne]
    exact hv1
  · exact (h1.metas id' height' h).insert_ne (ne_of_apply_ne List.length (by simp))

/-! ## 3. Recording all of them -/

/-- The second loop stops here for a participant. -/
def Records (ts : Tesseract) (p : Σ _ : Identifier, State) : Prop :=
  p.2.stateHash ≠ nilHash ∧ ts.lockedWeaker p.1 = false

section

variable {p : Σ _ : Identifier, State}

theorem addParticipants_cons (h : Records ts p) {transition : ChainTransition} :
    addParticipants E ts transition (p :: l) = (do
      let tsHash ← ofGo (ts.hash E.codec)
      match ← addParticipant E p.1 tsHash (E.commitHash ts) p.2 transition with
      | some e => pure (some e)
      | none => addParticipants E ts transition l) := by
  rw [addParticipants, if_neg h.1, h.2]
  exact if_neg Bool.false_ne_true

theorem anyStored_cons (h : Records ts p) :
    anyStored E ts (p :: l) = (do
      if ← hasAccMetaInfoAt E.metas p.1 (ts.height p.1) then pure true else anyStored E ts l) := by
  rw [anyStored, h.2, if_neg Bool.false_ne_true, if_neg h.1]

variable (h : ¬ Records ts p)
include h

theorem addParticipants_skip {transition : ChainTransition} :
    addParticipants E ts transition (p :: l) = addParticipants E ts transition l := by
  grind [addParticipants, Records]

theorem anyStored_skip : anyStored E ts (p :: l) = anyStored E ts l := by
  grind [anyStored, Records]

end

/-- **The loop that ends without an error has recorded everyone it had to.** -/
theorem wp_addParticipants {transition : ChainTransition} (l : List (Σ _ : Identifier, State))
    (s : Disk) :
    KeepsRecords E (addParticipants E ts transition l)
      (fun err s' => err = none → ∀ p ∈ l, Records ts p → ∃ tsHash, ts.hash E.codec = .ok tsHash ∧
        RecordedAt E.metas s'.entries p.1 p.2.height tsHash) s := by
  induction l generalizing s with
  | nil => exact ⟨.refl _, nofun⟩
  | cons p rest ih =>
    by_cases hp : Records ts p
    · rw [addParticipants_cons hp, KeepsRecords, wp_bind]
      refine wp_ofGo.mpr ⟨fun tsHash hhash => ?_, fun _ _ => .refl _⟩
      rw [wp_bind]
      refine wp_post (wp_addParticipant s) fun err s1 h1 => ?_
      rcases err with _ | e
      swap
      · exact ⟨h1.1, nofun⟩
      refine wp_mono (ih s1) (fun err s' h => ⟨h1.1.trans h.1, fun hnone q hq hrec => ?_⟩)
        fun _ h => h1.1.trans h
      obtain rfl | hq := mem_cons.mp hq
      · exact ⟨tsHash, hhash, h.1.recordedAt (h1.2 rfl)⟩
      · exact h.2 hnone q hq hrec
    · rw [addParticipants_skip hp]
      refine wp_post (ih s) fun err s' h => ⟨h.1, fun hnone q hq hrec => ?_⟩
      obtain rfl | hq := mem_cons.mp hq
      · exact absurd hrec hp
      · exact h.2 hnone q hq hrec

/-- The first loop writes nothing, and stops at a participant that is stored. -/
theorem wp_anyStored (l : List (Σ _ : Identifier, State)) (s : Disk) :
    wp (anyStored E ts l)
      (fun stored s' => s'.entries = s.entries ∧ (stored = true → ∃ p ∈ l, Records ts p ∧
        HasMetaAt E.metas s.entries p.1 (ts.height p.1))) (fun _ => False) s := by
  induction l generalizing s with
  | nil => exact ⟨rfl, nofun⟩
  | cons p rest ih =>
    have hrest : ∀ s' : Disk, s'.entries = s.entries → wp (anyStored E ts rest)
        (fun stored s' => s'.entries = s.entries ∧ (stored = true → ∃ q ∈ p :: rest,
          Records ts q ∧ HasMetaAt E.metas s.entries q.1 (ts.height q.1))) (fun _ => False) s' := by
      intro s' hs'
      refine wp_post (ih s') fun stored s'' h => ⟨h.1.trans hs', fun hst => ?_⟩
      obtain ⟨q, hq, hrec, hmeta⟩ := h.2 hst
      exact ⟨q, mem_cons_of_mem p hq, hrec, hs' ▸ hmeta⟩
    by_cases hp : Records ts p
    · rw [anyStored_cons hp, wp_bind]
      refine wp_hasAccMetaInfoAt (fun fs => hrest _ rfl) fun hmeta fs => ⟨rfl, fun _ => ?_⟩
      exact ⟨p, mem_cons_self, hp, hmeta⟩
    · rw [anyStored_skip hp]
      exact hrest s rfl

/-- On a store that does not fail, the first loop finds a participant that is stored. -/
theorem anyStored_sound (h : ∃ p ∈ l, Records ts p ∧ HasMetaAt E.metas m p.1 (ts.height p.1)) :
    anyStored E ts l (sound m) = (.ok true, sound m) := by
  induction l with
  | nil =>
    obtain ⟨p, hp, _⟩ := h
    cases hp
  | cons p rest ih =>
    have hrest : ¬ (Records ts p ∧ HasMetaAt E.metas m p.1 (ts.height p.1)) →
        anyStored E ts rest (sound m) = (.ok true, sound m) := by
      intro hnot
      refine ih ?_
      obtain ⟨q, hq, hstored⟩ := h
      obtain rfl | hq := mem_cons.mp hq
      · exact absurd hstored hnot
      · exact ⟨q, hq, hstored⟩
    by_cases hp : Records ts p
    · rw [anyStored_cons hp]
      obtain ⟨b, hb, hiff⟩ := @hasAccMetaInfoAt_sound E.metas m p.1 (ts.height p.1)
      refine (bind_of_ok hb).trans ?_
      cases b with
      | true => rfl
      | false => exact hrest fun hstored => Bool.false_ne_true (hiff.mpr hstored.2)
    · rw [anyStored_skip hp]
      exact hrest fun hstored => hp hstored.1

variable {s : Disk} {m' : Entries}

/-- Loops over participants that have nothing to record do nothing. -/
theorem anyStored_skipped (h : ∀ p ∈ l, ¬ Records ts p) : anyStored E ts l s = (.ok false, s) := by
  induction l with
  | nil => rfl
  | cons p rest ih =>
    rw [anyStored_skip (h p mem_cons_self)]
    exact ih fun q hq => h q (mem_cons_of_mem p hq)

theorem addParticipants_skipped {transition : ChainTransition} (h : ∀ p ∈ l, ¬ Records ts p) :
    addParticipants E ts transition l s = (.ok none, s) := by
  induction l with
  | nil => rfl
  | cons p rest ih =>
    rw [addParticipants_skip (h p mem_cons_self)]
    exact ih fun q hq => h q (mem_cons_of_mem p hq)

/-- Every participant that has to record the tesseract has. -/
def AllRecorded (E : ChainEnv) (ts : Tesseract) (m : Entries) : Prop :=
  ∀ id st, MustRecord ts id st → ∃ tsHash, ts.hash E.codec = .ok tsHash ∧
    RecordedAt E.metas m id st.height tsHash

/-- No participant that has to record the tesseract is stored up to its height. -/
def NoneStored (E : ChainEnv) (ts : Tesseract) (m : Entries) : Prop :=
  ∀ id st, MustRecord ts id st → ¬ HasMetaAt E.metas m id st.height

theorem AllRecorded.kept (h : AllRecorded E ts m) (hk : RecordsKept E.metas m m') :
    AllRecorded E ts m' := by
  intro id st hmust
  obtain ⟨tsHash, hhash, hr⟩ := h id st hmust
  exact ⟨tsHash, hhash, hk.recordedAt hr⟩

theorem height_of_participant (h : ts.participants.lookup id = some st) :
    ts.height id = st.height := by
  rw [Tesseract.height, h]

/-- A participant that the loops stop at, and one that has to record the tesseract. -/
theorem mustRecord_iff (o : GoMap.Order ts.participants) :
    MustRecord ts id st ↔ ⟨id, st⟩ ∈ o.entries ∧ Records ts ⟨id, st⟩ :=
  ⟨fun h => ⟨o.mem_iff.mpr h.participant, h.included, h.locked⟩,
    fun h => ⟨o.mem_iff.mp h.1, h.2.1, h.2.2⟩⟩

/-- **What a call for all participants has recorded**: all, unless it found one of them stored. -/
theorem wp_addParticipantsData_all {transition : ChainTransition} (s : Disk) :
    KeepsRecords E (addParticipantsData E a id ts transition true)
      (fun err s' => err = none → NoneStored E ts s.entries → AllRecorded E ts s'.entries) s := by
  unfold addParticipantsData
  rw [if_neg (by simp), KeepsRecords, wp_bind]
  refine wp_ofGo.mpr ⟨fun ps hps => ?_, fun _ _ => .refl _⟩
  cases hps
  refine wp_seq_total (wp_anyStored _ s) fun stored s1 h1 => ?_
  simp only [wp_ite, wp_pure]
  refine ⟨fun hst => ⟨.of_eq h1.1, fun _ hfresh => ?_⟩, fun _ => ?_⟩
  · obtain ⟨p, hp, hrec, hmeta⟩ := h1.2 hst
    have hmust : MustRecord ts p.1 p.2 := (mustRecord_iff _).mpr ⟨hp, hrec⟩
    rw [height_of_participant hmust.participant] at hmeta
    exact absurd hmeta (hfresh p.1 p.2 hmust)
  refine wp_mono (wp_addParticipants _ s1) (fun err s' h => ?_) fun s' h => h1.1 ▸ h
  refine ⟨h1.1 ▸ h.1, fun hnone _ id st hmust => ?_⟩
  obtain ⟨hmem, hrec⟩ := (mustRecord_iff (a.recording ts.participants)).mp hmust
  exact h.2 hnone ⟨id, st⟩ hmem hrec

/-! ## 4. Adding the tesseract -/

/-- What recording a participant writes: its state, its height, its meta information. -/
def RecordKey (k : Bytes) : Prop := k.length = 65 ∨ k.length = 41 ∨ k.length = 48 ∨ k.length = 16

/-- The entries of the participants: what their objects are flushed in, and others. -/
inductive IsParticipantWrite (transition : ChainTransition) : Bytes × Bytes → Prop where
  | flush {id : Identifier} {o : StateObject} {w : Bytes × Bytes}
    (ho : transition.object id = .ok o)
      (hw : IsFlushWrite id o w) : IsParticipantWrite transition w
  | height {w : Bytes × Bytes} (h : w.1.length = 41) : IsParticipantWrite transition w
  | metaInfo {w : Bytes × Bytes} (h : w.1.length = 48 ∨ w.1.length = 16) :
      IsParticipantWrite transition w

theorem IsParticipantWrite.recordKey {transition : ChainTransition} {w : Bytes × Bytes}
    (h : IsParticipantWrite transition w) : RecordKey w.1 := by
  cases h with
  | flush _ hw => exact .inl hw.key_length
  | height h => exact .inr (.inl h)
  | metaInfo h => exact .inr (.inr h)

/-- **Recording participants touches no other entries.** -/
theorem addParticipants_keeps {transition : ChainTransition}
    (h : ∀ w m, IsParticipantWrite transition w → I m → I (m.insert w.1 w.2))
    (l : List (Σ _ : Identifier, State)) : Keeps I (addParticipants E ts transition l) := by
  have hone : ∀ id tsHash commitHash st,
      Keeps I (addParticipant E id tsHash commitHash st transition) := by
    intro id tsHash commitHash st
    refine .ofGo_bind fun o ho =>
      .bindErr (flushObject_keeps fun w m hw => h w m (.flush ho hw)) .pure ?_
    refine .bindErr (insert_keeps fun m _ => ?_) .pure ?_
    · exact h (_, _) m (.height (tesseractHeightKey_length id _))
    · refine .bind (updateAccMetaInfo_keeps (fun m v => ?_) fun m v => ?_) .pure
      · exact h (_, v) m (.metaInfo (.inl (bucketKey_length _)))
      · exact h (_, v) m (.metaInfo (.inr (bucketCountKey_length _)))
  induction l with
  | nil => exact .pure _
  | cons p rest ih =>
    exact .ite ih (.ite ih (.bind (.ofGo _) fun tsHash =>
      .bindErr (hone _ _ _ _) .pure ih))

theorem anyStored_keeps (l : List (Σ _ : Identifier, State)) : Keeps I (anyStored E ts l) := by
  intro s hs
  refine Keeps.of_wp (wp_total (wp_anyStored l s) fun _ s' h => ?_)
  rw [h.1]
  exact hs

theorem addParticipantsData_keeps {transition : ChainTransition}
    (h : ∀ ps, Keeps I (addParticipants E ts transition (a.recording ps).entries)) :
    Keeps I (addParticipantsData E a id ts transition allParticipants) :=
  .ite (.pure _) (.bind (.ofGo _) fun ps => .bind (anyStored_keeps _) fun _ =>
    .ite (.pure _) (h ps))

theorem addParticipantsData_kept {transition : ChainTransition} :
    Keeps (RecordsKept E.metas m) (addParticipantsData E a id ts transition allParticipants) := by
  refine addParticipantsData_keeps fun ps s hs => ?_
  refine Keeps.of_wp (wp_mono (wp_addParticipants _ s) (fun _ s' h => ?_) fun s' h => ?_)
  · exact hs.trans h.1
  · exact hs.trans h

/-- The writes of a tesseract are no records of participants. -/
theorem Written.kept (h : Written (IsTesseractWrite E t tsHash) m m') :
    RecordsKept E.metas m m' := by
  obtain ⟨ws, hws, rfl⟩ := h
  refine (RecordsKept.refl m).putAll fun w hw => ?_
  have hlen := (hws w hw).key_length
  omega

/-- A tesseract that is there, or that can be encoded. -/
def Storable (E : ChainEnv) (t : LoadedTesseract) (m : Entries) : Prop :=
  ∃ tsHash, t.hash E.codec = .ok tsHash ∧
    ((m.lookup (tesseractKey tsHash)).isSome = true ∨ Nonempty (Encoding E t))

/-- **A tesseract that is there after a call without an error could be stored**; no record is
    lost. -/
theorem wp_ensureTesseract (s : Disk) :
    KeepsRecords E (ensureTesseract E a t) (fun err _ => err = none →
      Storable E t s.entries) s := by
  unfold ensureTesseract
  simp only [wp_bind]
  refine wp_ofGo.mpr ⟨fun tsHash hhash => ?_, fun _ _ => .refl _⟩
  refine wp_has (fun e fs => ?_) fun hfound fs => ?_
  · refine wp_total wp_storeTesseract fun err s' h => ?_
    refine ⟨Written.kept h.1, fun hnone => ?_⟩
    obtain ⟨enc, _⟩ := h.2 hnone
    exact ⟨tsHash, hhash, .inr ⟨enc⟩⟩
  · exact ⟨.refl _, fun _ => ⟨tsHash, hhash, .inl hfound⟩⟩

theorem poolReset_keeps : Keeps I (poolReset E a t allParticipants) := by
  have hloop : ∀ l, Keeps I (allStored E l) := by
    intro l
    induction l with
    | nil => exact .pure _
    | cons p rest ih =>
      refine .bind (fun s hs => Keeps.of_wp ?_) fun b => .ite ih (.pure _)
      exact wp_hasAccMetaInfoAt (fun _ => hs) fun _ _ => hs
  exact .ite (.pure _) (hloop _)

/-- **A call for all participants.** However it ends, no record is lost; if it returns `nil`, then
    the tesseract could be stored, and unless a participant was stored before all are recorded. -/
theorem wp_addTesseract_all {transition : ChainTransition} (s : Disk) :
    KeepsRecords E (addTesseract E a id t transition true)
      (fun r s' => r.1 = none → Storable E t s.entries ∧
        (NoneStored E t.toTesseract s.entries → AllRecorded E t.toTesseract s'.entries)) s := by
  have hframe : Keeps (fun m => ∀ tsHash, m.lookup (tesseractKey tsHash) =
      s.entries.lookup (tesseractKey tsHash))
      (addParticipantsData E a id t.toTesseract transition true) := by
    refine addParticipantsData_keeps fun ps => addParticipants_keeps (fun w m hw hm tsHash => ?_) _
    have hne : tesseractKey tsHash ≠ w.1 := by
      intro heq
      have hlen := tesseractKey_length tsHash
      have hkey := hw.recordKey
      rw [← heq] at hkey
      unfold RecordKey at hkey
      omega
    rw [AList.lookup_insert_ne hne]
    exact hm tsHash
  unfold addTesseract
  rw [KeepsRecords, wp_bind]
  refine wp_mono (wp_and (wp_addParticipantsData_all s)
    (hframe.to_wp (s := s) fun _ => rfl)) (fun err s1 h1 => ?_) fun _ h => h.1
  obtain ⟨⟨hkept, hrec⟩, hts⟩ := h1
  rcases err with _ | e
  swap
  · exact ⟨hkept, nofun⟩
  rw [wp_bind]
  refine wp_mono (wp_ensureTesseract s1) (fun err s2 h2 => ?_) fun _ h => hkept.trans h
  cases err with
  | some e => exact ⟨hkept.trans h2.1, nofun⟩
  | none =>
    refine ⟨hkept.trans h2.1, fun _ => ⟨?_, fun hfresh => (hrec rfl hfresh).kept h2.1⟩⟩
    obtain ⟨tsHash, hhash, hst⟩ := h2.2 rfl
    rw [hts tsHash] at hst
    exact ⟨tsHash, hhash, hst⟩

/-! ## 5. Histories of calls -/

/-- A call of `AddTesseract`. -/
structure AddCall where
  answers : ChainAnswers
  id : Identifier
  tesseract : LoadedTesseract
  transition : ChainTransition
  allParticipants : Bool

/-- The store after a call, whatever the call returned. -/
def AddCall.Step (E : ChainEnv) (s : Disk) (c : AddCall) (s' : Disk) : Prop :=
  s' = (addTesseract E c.answers c.id c.tesseract c.transition c.allParticipants s).2

/-- One call loses no record. -/
theorem AddCall.Step.kept {s' : Disk} {c : AddCall} (h : AddCall.Step E s c s') :
    RecordsKept E.metas s.entries s'.entries := by
  have hcall : Keeps (RecordsKept E.metas s.entries)
      (addTesseract E c.answers c.id c.tesseract c.transition c.allParticipants) := by
    refine .bindErr addParticipantsData_kept .pure (.bindErr (fun s1 h1 => ?_)
      .pure (.bind poolReset_keeps .pure))
    exact Keeps.of_wp (wp_mono (wp_ensureTesseract s1) (fun _ s2 h2 => h1.trans h2.1)
      fun s2 h2 => h1.trans h2)
  rw [h]
  exact hcall s (.refl _)

/-- **No history of calls loses a record**, whatever the calls are for and wherever they fail. -/
theorem history_keeps {s0 : Disk} {cs : List AddCall} (h : Run (AddCall.Step E) s0 cs s) :
    RecordsKept E.metas s0.entries s.entries :=
  h.related (R := fun a b => RecordsKept E.metas a.entries b.entries) (fun _ => .refl _)
    (fun _ _ _ => RecordsKept.trans) fun _ _ _ => AddCall.Step.kept

/-! ## 6. What a call for all participants achieves -/

/-- Every call for all participants on the entries `m` that returns `nil`, whatever fails meanwhile,
    leaves every participant recorded that has to be. -/
def AddsAll (E : ChainEnv) (t : LoadedTesseract) (m : Entries) : Prop :=
  ∀ a id transition faults reset s',
    addTesseract E a id t transition true ⟨m, faults⟩ = (.ok (none, reset), s') →
      AllRecorded E t.toTesseract s'.entries

/-- The writes of a tesseract are not those of a record, read backwards. -/
theorem AllRecorded.of_putAll {e : Encoding E t}
    (h : AllRecorded E t.toTesseract (putAll m (e.writes tsHash))) :
    AllRecorded E t.toTesseract m := by
  have hsame : ∀ k : Bytes, k.length = 41 ∨ k.length = 48 →
      (putAll m (e.writes tsHash)).lookup k = m.lookup k := by
    intro k hk
    refine lookup_putAll_of_notMem fun w hw heq => ?_
    have hlen := (e.isTesseractWrite hw).key_length
    rw [heq] at hlen
    omega
  intro id st hmust
  obtain ⟨h', hhash, hrec⟩ := h id st hmust
  refine ⟨h', hhash, ?_, hrec.metaInfo.congr (hsame _ (.inr (bucketKey_length id))).symm⟩
  rw [← hsame _ (.inl (tesseractHeightKey_length id st.height))]
  exact hrec.heightEntry

/-- A call that meets no failure: the loops run in the order of the map, `senatus` agrees. -/
def untroubled : ChainAnswers where
  probing := GoMap.Order.given
  recording := GoMap.Order.given
  counting := GoMap.Order.given
  settling := GoMap.Order.given
  updateWalletCount _ _ := none

theorem updateInclusivity_untroubled (ps : ParticipantsState) :
    updateInclusivity untroubled ps = none := by
  have hnone : ∀ d : DeltaGroup, updateNodeInclusivity untroubled d = none := by
    simp [updateNodeInclusivity, untroubled]
  unfold updateInclusivity GoError.wrapErr
  rw [Option.map_eq_none_iff, List.findSome?_eq_none_iff]
  intro p _
  cases p.2.contextDelta with
  | none => rfl
  | some d => exact hnone d

/-- On a store that does not fail, nothing is written for the participants if one of them is
    stored, or if none has to record the tesseract. -/
theorem addParticipantsData_sound (id : Identifier) (transition : ChainTransition)
    (h : (∃ p st, MustRecord ts p st ∧ HasMetaAt E.metas m p st.height) ∨
      ∀ p st, ¬ MustRecord ts p st) :
    addParticipantsData E untroubled id ts transition true (sound m) = (.ok none, sound m) := by
  obtain ⟨p, st, hmust, hmeta⟩ | hnone := h
  · obtain ⟨hmem, hrec⟩ := (mustRecord_iff (untroubled.probing ts.participants)).mp hmust
    rw [← height_of_participant hmust.participant] at hmeta
    exact (bind_of_ok (anyStored_sound ⟨⟨p, st⟩, hmem, hrec, hmeta⟩)).trans rfl
  have hskip : ∀ p ∈ (untroubled.probing ts.participants).entries, ¬ Records ts p :=
    fun p hp hrec => hnone p.1 p.2 ((mustRecord_iff _).mpr ⟨hp, hrec⟩)
  refine (bind_of_ok (anyStored_skipped hskip)).trans ?_
  exact addParticipants_skipped hskip

/-- The tesseract is found, or it is written now. -/
theorem ensureTesseract_sound (hhash : t.hash E.codec = .ok tsHash) :
    ((m.lookup (tesseractKey tsHash)).isSome = true →
      ensureTesseract E untroubled t (sound m) = (.ok none, sound m)) ∧
    ((m.lookup (tesseractKey tsHash)).isSome = false → ∀ e : Encoding E t,
      ensureTesseract E untroubled t (sound m) =
        (.ok none, sound (putAll m (e.writes tsHash)))) := by
  have hgo : (ofGo (t.hash E.codec) : Proc Disk _) (sound m) = (.ok tsHash, sound m) := by
    rw [hhash]
    rfl
  have hhas : has (tesseractKey tsHash) (sound m) =
      (.ok ((m.lookup (tesseractKey tsHash)).isSome, none), sound m) := rfl
  unfold ensureTesseract
  rw [bind_of_ok hgo, bind_of_ok hhas]
  refine ⟨fun hfound => ?_, fun habsent e => ?_⟩
  · rw [hfound]
    rfl
  · rw [habsent, if_neg Bool.false_ne_true, storeTesseract_sound e, updateInclusivity_untroubled]

/-- **On a store that does not fail, a call that finds a participant stored returns `nil`**, and
    writes at most the tesseract. -/
theorem addTesseract_stored (id : Identifier) (transition : ChainTransition) {p : Identifier}
    (hmust : MustRecord t.toTesseract p st) (hmeta : HasMetaAt E.metas m p st.height)
    (hst : Storable E t m) :
    ∃ m', addTesseract E untroubled id t transition true (sound m) = (.ok (none, true), sound m') ∧
      (AllRecorded E t.toTesseract m' → AllRecorded E t.toTesseract m) := by
  have hdata := addParticipantsData_sound id transition (.inl ⟨p, st, hmust, hmeta⟩)
  obtain ⟨tsHash, hhash, hst⟩ := hst
  obtain ⟨hfound, habsent⟩ := ensureTesseract_sound (m := m) hhash
  cases hl : (m.lookup (tesseractKey tsHash)).isSome with
  | true =>
    refine ⟨m, ?_, fun h => h⟩
    exact (bind_of_ok hdata).trans ((bind_of_ok (hfound hl)).trans rfl)
  | false =>
    rw [hl] at hst
    obtain ⟨enc⟩ := hst.resolve_left Bool.false_ne_true
    refine ⟨putAll m (enc.writes tsHash), ?_, AllRecorded.of_putAll⟩
    exact (bind_of_ok hdata).trans ((bind_of_ok (habsent hl enc)).trans rfl)

/-- **A call for all participants records them all exactly if none of them was stored before it or
    all of them were recorded**, on every store a tesseract can be stored on: if some are stored and
    some are not, then the call takes the stored ones for all. -/
theorem addsAll_iff (E : ChainEnv) (t : LoadedTesseract) (m : Entries) :
    AddsAll E t m ↔ NoneStored E t.toTesseract m ∨ AllRecorded E t.toTesseract m ∨
      ¬ Storable E t m := by
  constructor
  · intro hadds
    by_contra hcond
    simp only [not_or, not_not] at hcond
    obtain ⟨hstored, hnot, hst⟩ := hcond
    simp only [NoneStored, not_forall, not_not] at hstored
    obtain ⟨p, _, hmust, hmeta⟩ := hstored
    obtain ⟨m', hcall, hback⟩ := addTesseract_stored nilIdentifier ⟨none, ∅⟩ hmust hmeta hst
    exact hnot (hback (hadds untroubled nilIdentifier ⟨none, ∅⟩ _ true (sound m') hcall))
  · intro hcond a id transition faults reset s' hcall
    obtain ⟨hkept, hret⟩ := wp_of_eq hcall (wp_addTesseract_all _)
    obtain ⟨hst, hrec⟩ := hret rfl
    obtain hfresh | hall | hnot := hcond
    · exact hrec hfresh
    · exact hall.kept hkept
    · exact absurd hst hnot

/-! ## 7. One participant added before the others -/

namespace OneByOne

def first : Identifier := ⟨1⟩

def second : Identifier := ⟨2⟩

/-- What the tesseract records for both. -/
def recorded : State where
  height := 1
  transitiveLink := ⟨3⟩
  lockedContext := ⟨4⟩
  contextDelta := none
  stateHash := ⟨5⟩

def tesseract : LoadedTesseract where
  participants := AList.insert second recorded (AList.insert first recorded ∅)
  interactionsHash := nilHash
  receiptsHash := nilHash
  epoch := 0
  timestamp := 1
  fuelUsed := 0
  fuelLimit := 0
  consensusInfo := ⟨[], nilHash, nilHash, 1, ∅, ∅, ∅, nilHash, []⟩
  sealBytes := []
  sealBy := []
  commitInfo := none
  ixns := []
  receipts := ∅

/-- The meta information of the first account. -/
def record : AccountMetaRecord where
  id := first
  height := 1
  tesseractHash := ⟨7⟩
  contextHash := nilHash
  commitHash := nilHash
  inheritedAccount := nilIdentifier
  type := .regularAccount
  stateHash := ⟨5⟩
  consensusNodesHash := nilHash
  positionInContextSet := 0

def chain : ChainEnv where
  codec := ⟨fun _ => .ok [1], fun _ => .ok [2], fun _ => ⟨7⟩⟩
  metas := MetaCodec.single record
  kramaID := []
  tesseractBytes _ := .ok [3]
  interactionsBytes _ := .ok [4]
  receiptsBytes _ := .ok [5]
  commitInfoBytes _ := .ok [6]

def object : StateObject where
  accType := .regularAccount
  contextHash := nilHash
  consensusNodesHash := nilHash
  inheritedAccount := nilIdentifier
  assetTree := none
  logicTree := none
  storageTrees := []
  metaStorageTree := none
  dirtyEntries := []

def transition : ChainTransition where
  systemObject := none
  objects := AList.insert second object (AList.insert first object ∅)

/-- The store after the tesseract was added for the first account. -/
def afterFirst : Disk :=
  (addTesseract chain untroubled first tesseract transition false (sound ∅)).2

/-- The store after it was then added for all. -/
def afterAll : Disk :=
  (addTesseract chain untroubled nilIdentifier tesseract transition true afterFirst).2

end OneByOne

open OneByOne in
/-- **Added for one account and then for all, both times with `nil`: the other account has neither
    entry.** -/
theorem second_account_unrecorded :
    MustRecord tesseract.toTesseract second recorded ∧
    addTesseract chain untroubled first tesseract transition false (sound ∅) =
      (.ok (none, false), afterFirst) ∧
    addTesseract chain untroubled nilIdentifier tesseract transition true afterFirst =
      (.ok (none, true), afterAll) ∧
    afterAll.entries.lookup (tesseractHeightKey second recorded.height) = none ∧
    ¬ HasMetaAt chain.metas afterAll.entries second recorded.height := by
  refine ⟨⟨rfl, by decide, rfl⟩, Prod.ext (by rfl) rfl, Prod.ext (by rfl) rfl, by rfl, ?_⟩
  rintro ⟨r, hr, _⟩
  cases hr

open OneByOne in
theorem history_keeps_first : RecordsKept chain.metas afterFirst.entries afterAll.entries := by
  have hrun : Run (AddCall.Step chain) afterFirst
      [⟨untroubled, nilIdentifier, tesseract, transition, true⟩] afterAll := .snoc .start _ rfl
  exact history_keeps hrun

end ChainManager

end GoMoi
