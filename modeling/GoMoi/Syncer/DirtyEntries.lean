/-
  File:      GoMoi/Syncer/DirtyEntries.lean
  Subject:   The extra entries that a peer attaches to a tesseract (`extractDirtyEntries` of
             `syncer/forage/syncer.go`, `AddTesseractWithState` of `lattice/manager.go`).

  A tesseract message carries a map from strings to bytes. The entries under the locked contexts are
  read when the committee is built and then deleted from the map; what is left is written to the
  database, every value under the hash that its string stands for. Nobody hashes the values. The
  keys of the database that are made so are bare hashes, and so are the keys under which the
  tesseract of an interaction is looked up.

  * `extras_bare` -- whatever is attached, no entry is touched whose key is not a bare hash;
  * `extras_iff` -- the entries that come to the database this way lie under the hash of their
    content exactly if those of the map do that are left after the committee is built;
  * `forged_lookup` -- the tesseract of an interaction, told by a peer.
-/
import GoMoi.Lattice.Recorded

namespace GoMoi

open FaultyStore Disk ChainManager Proc List AList GoMap.Order

/-! ## 1. Strings and hashes -/

/-- `has0xPrefix`, cut off. -/
def trim0x : List Char → List Char
  | '0' :: 'x' :: rest => rest
  | '0' :: 'X' :: rest => rest
  | s => s

/-- `BytesToHash`: the last 32 bytes, with zeros before them if there are fewer. -/
def bytesToHash (b : Bytes) : Hash := ⟨BitVec.ofNat 256 (ofBigEndian b)⟩

/-- `HexToHash`; `Hex2Bytes` panics on a string that is not hexadecimal. -/
def hexToHash (s : List Char) : Go Hash :=
  match decodeString (trim0x s) with
  | .error _ => .error (.explicit "encoding/hex")
  | .ok b => .ok (bytesToHash b)

/-! ## 2. The map of a message -/

/-- `map[string][]byte`, the extra entries of a message. -/
abbrev Extras : Type := GoMap (List Char) Bytes

/-- `type TesseractInfo struct`. -/
structure TesseractInfo where
  accountID : Identifier
  tesseract : LoadedTesseract
  shouldExecute : Bool
  committee : Option ICSCommittee
  ixnsHashes : List Hash
  delta : Extras

/-- What building a committee answers: from the store, or from the contexts of the message. -/
structure CommitteeAnswers where
  getICSCommittee : Go (Except Err ICSCommittee)
  getICSCommitteeFromRawContext : Go (Except Err ICSCommittee)

/-- The contexts that are deleted from the map once they are read. -/
def Tesseract.lockedContexts (ts : Tesseract) : List Hash :=
  ts.accountIDs.filterMap fun id => (ts.state id).bind fun ps =>
    if ps.lockedContext = nilHash then none else some ps.lockedContext

/-- The deletions of `GetICSCommitteeFromRawContext`. -/
def dropContexts (ts : Tesseract) (delta : Extras) : Extras :=
  ts.lockedContexts.foldl (fun delta hash => delta.erase hash.string) delta

namespace TesseractInfo

/-- `extractICSNodeset`: the map that is left, or `none` if there is no committee. The first locked
    context that is met decides where the contexts are read. -/
def extractICSNodeset (ti : TesseractInfo) (c : CommitteeAnswers)
    (order : GoMap.Order ti.tesseract.participants) : Go (Option Extras) :=
  match order.entries.find? fun e => e.2.lockedContext ≠ nilHash with
  | none => .ok (some ti.delta)
  | some e =>
    if (ti.delta.lookup e.2.lockedContext.string).isSome then do
      match ← c.getICSCommitteeFromRawContext with
      | .error _ => pure none
      | .ok _ => pure (some (dropContexts ti.tesseract.toTesseract ti.delta))
    else do
      match ← c.getICSCommittee with
      | .error _ => pure none
      | .ok _ => pure (some ti.delta)

/-- The map after `msg.committee == nil && !msg.extractICSNodeset(s)`. -/
def leftover (ti : TesseractInfo) (c : CommitteeAnswers)
    (order : GoMap.Order ti.tesseract.participants) : Go (Option Extras) :=
  if ti.committee = none then ti.extractICSNodeset c order else .ok (some ti.delta)

end TesseractInfo

/-- `extractDirtyEntries`, over the entries of the map in some order: of two strings for one hash
    the last one counts. -/
def extractDirtyEntries : List (Σ _ : List Char, Bytes) → GoMap Hash Bytes → Go (GoMap Hash Bytes)
  | [], dirty => .ok dirty
  | e :: es, dirty => do
    let hash ← hexToHash e.1
    extractDirtyEntries es (dirty.insert hash e.2)

/-- The orders in which the loops over the extra entries run. -/
structure ExtrasOrder where
  contexts : (m : ParticipantsState) → GoMap.Order m
  extracting : (m : Extras) → GoMap.Order m
  writing : (m : GoMap Hash Bytes) → GoMap.Order m

/-- How a tesseract of a message is added in `syncTesseract` and `processTesseract`: the committee,
    the extra entries, `AddTesseractWithState`. Without a committee nothing is added. -/
def addWithExtras (E : ChainEnv) (c : CommitteeAnswers) (o : ExtrasOrder) (a : ChainAnswers)
    (ti : TesseractInfo) (id : Identifier) (transition : ChainTransition) (allParticipants : Bool) :
    Proc Disk (Option Err) := do
  match ← ofGo (ti.leftover c (o.contexts ti.tesseract.participants)) with
  | none => pure none
  | some delta => do
    let dirty ← ofGo (extractDirtyEntries (o.extracting delta).entries ∅)
    addTesseractWithState E a id (o.writing dirty).entries ti.tesseract transition allParticipants

/-! ## 3. What the loops do -/

variable {l : List (Σ _ : List Char, Bytes)}

/-- **The extracted entries are those of the map**, and every string of the map was hexadecimal. -/
theorem extractDirtyEntries_ok {dirty dirty' : GoMap Hash Bytes}
    (h : extractDirtyEntries l dirty = .ok dirty') :
    (∀ e ∈ l, ∃ hash, hexToHash e.1 = .ok hash) ∧ ∀ hash v, dirty'.lookup hash = some v →
      dirty.lookup hash = some v ∨ ∃ e ∈ l, hexToHash e.1 = .ok hash ∧ e.2 = v := by
  induction l generalizing dirty with
  | nil =>
    cases h
    exact ⟨nofun, fun _ _ hv => .inl hv⟩
  | cons e es ih =>
    obtain ⟨hash, hhash, h⟩ := Go.bind_eq_ok.mp h
    obtain ⟨hhex, hfrom⟩ := ih h
    refine ⟨fun e' he' => ?_, fun hash' v hv => ?_⟩
    · obtain rfl | he' := mem_cons.mp he'
      · exact ⟨hash, hhash⟩
      · exact hhex e' he'
    obtain hv | ⟨e', he', hrest⟩ := hfrom hash' v hv
    · obtain ⟨rfl, rfl⟩ | hv := GoMap.of_lookup_insert hv
      · exact .inr ⟨e, mem_cons_self, hhash, rfl⟩
      · exact .inl hv
    · exact .inr ⟨e', mem_cons_of_mem e he', hrest⟩

/-- The entry that is extracted last. -/
theorem extractDirtyEntries_last (dirty : GoMap Hash Bytes)
    (hl : ∀ e ∈ l, ∃ hash, hexToHash e.1 = .ok hash) {e : Σ _ : List Char, Bytes} {hash : Hash}
    (he : hexToHash e.1 = .ok hash) :
    ∃ dirty', extractDirtyEntries (l ++ [e]) dirty = .ok dirty' ∧
      dirty'.lookup hash = some e.2 := by
  induction l generalizing dirty with
  | nil =>
    refine ⟨dirty.insert hash e.2, ?_, lookup_insert _⟩
    show (hexToHash e.1 >>= _) = _
    rw [he]
    rfl
  | cons e' l ih =>
    obtain ⟨hash', hhash'⟩ := hl e' mem_cons_self
    obtain ⟨dirty', hd, hv⟩ := ih (dirty.insert hash' e'.2) fun e'' he'' =>
      hl e'' (mem_cons_of_mem e' he'')
    refine ⟨dirty', ?_, hv⟩
    show (hexToHash e'.1 >>= _) = _
    rw [hhash']
    exact hd

theorem createEntries_keeps {I : Entries → Prop} {l : List (Σ _ : Hash, Bytes)}
    (h : ∀ e ∈ l, ∀ m, I m → I (m.insert e.1.bytes e.2)) : Keeps I (createEntries l) := by
  induction l with
  | nil => exact .pure _
  | cons e es ih =>
    refine .bind (insert_keeps fun m _ => h e mem_cons_self m) fun r => ?_
    cases r with
    | some err => exact .pure _
    | none => exact ih fun e' he' => h e' (mem_cons_of_mem e he')

/-- On a store that does not fail and has none of the keys, every entry is written. -/
theorem createEntries_sound {l : List (Σ _ : Hash, Bytes)} (hl : (l.map Sigma.fst).Nodup)
    {m : Entries} (hm : ∀ e ∈ l, m.lookup e.1.bytes = none) :
    ∃ m', createEntries l (sound m) = (.ok none, sound m') ∧
      (∀ k, (∀ e ∈ l, e.1.bytes ≠ k) → m'.lookup k = m.lookup k) ∧
      ∀ e ∈ l, m'.lookup e.1.bytes = some e.2 := by
  induction l generalizing m with
  | nil => exact ⟨m, rfl, fun _ _ => rfl, nofun⟩
  | cons e es ih =>
    obtain ⟨hnew, hrest⟩ := nodup_cons.mp hl
    have hne : ∀ e' ∈ es, e'.1.bytes ≠ e.1.bytes := by
      intro e' he' heq
      rw [← Hash.bytes_injective heq] at hnew
      exact hnew (mem_map_of_mem he')
    have hins : Disk.insert e.1.bytes e.2 (sound m) =
        (.ok none, sound (AList.insert e.1.bytes e.2 m)) := by
      show (read e.1.bytes >>= _) (sound m) = _
      rw [bind_of_ok (read_sound m e.1.bytes), hm e mem_cons_self]
      rfl
    obtain ⟨m', hrun, hother, hin⟩ := ih hrest (m := AList.insert e.1.bytes e.2 m) fun e' he' => by
      rw [lookup_insert_ne (hne e' he')]
      exact hm e' (mem_cons_of_mem e he')
    refine ⟨m', (bind_of_ok hins).trans hrun, fun k hk => ?_, fun e' he' => ?_⟩
    · rw [hother k fun e' he' => hk e' (mem_cons_of_mem e he'),
        lookup_insert_ne (hk e mem_cons_self).symm]
    · obtain rfl | he' := mem_cons.mp he'
      · rw [hother _ hne, lookup_insert]
      · exact hin e' he'

/-! ## 4. The map that is left -/

/-- The maps that building the committee may leave of the one in the message. -/
inductive Remaining (ti : TesseractInfo) (c : CommitteeAnswers) : Extras → Prop
  | known : ti.committee ≠ none → Remaining ti c ti.delta
  | unlocked : ti.committee = none →
      (∀ id st, ti.tesseract.participants.lookup id = some st → st.lockedContext = nilHash) →
      Remaining ti c ti.delta
  | attached {id : Identifier} {st : State} {ics : ICSCommittee} : ti.committee = none →
      ti.tesseract.participants.lookup id = some st → st.lockedContext ≠ nilHash →
      (ti.delta.lookup st.lockedContext.string).isSome = true →
      c.getICSCommitteeFromRawContext = .ok (.ok ics) →
      Remaining ti c (dropContexts ti.tesseract.toTesseract ti.delta)
  | stored {id : Identifier} {st : State} {ics : ICSCommittee} : ti.committee = none →
      ti.tesseract.participants.lookup id = some st → st.lockedContext ≠ nilHash →
      (ti.delta.lookup st.lockedContext.string).isSome = false →
      c.getICSCommittee = .ok (.ok ics) → Remaining ti c ti.delta

section

variable {ti : TesseractInfo} {c : CommitteeAnswers} {delta : Extras}

theorem Remaining.of_leftover {order : GoMap.Order ti.tesseract.participants}
    (h : ti.leftover c order = .ok (some delta)) : Remaining ti c delta := by
  unfold TesseractInfo.leftover at h
  split at h
  case isFalse hknown =>
    cases h
    exact .known hknown
  case isTrue hnone =>
    unfold TesseractInfo.extractICSNodeset at h
    split at h
    case h_1 hfind =>
      cases h
      refine .unlocked hnone fun id st hst => ?_
      have hnil := List.find?_eq_none.mp hfind ⟨id, st⟩ (order.mem_iff.mpr hst)
      simpa using hnil
    case h_2 e hfind =>
      have hst := order.mem_iff.mp (mem_of_find?_eq_some hfind)
      have hlocked : e.2.lockedContext ≠ nilHash := by simpa using List.find?_some hfind
      split at h
      case isTrue hin =>
        obtain ⟨r, hr, h⟩ := Go.bind_eq_ok.mp h
        rcases r with e | ics
        · cases h
        cases h
        exact .attached hnone hst hlocked hin hr
      case isFalse hout =>
        obtain ⟨r, hr, h⟩ := Go.bind_eq_ok.mp h
        rcases r with e | _
        · cases h
        cases h
        exact .stored hnone hst hlocked (Bool.eq_false_iff.mpr hout) hr

theorem Remaining.leftover (h : Remaining ti c delta) :
    ∃ contexts : (m : ParticipantsState) → GoMap.Order m,
      ti.leftover c (contexts ti.tesseract.participants) = .ok (some delta) := by
  -- in the order that begins with the participant, it decides where the contexts are read
  have hfirst : ∀ {id st}, ti.tesseract.participants.lookup id = some st →
      st.lockedContext ≠ nilHash →
      (first ⟨id, st⟩ ti.tesseract.participants).entries.find?
        (fun e => e.2.lockedContext ≠ nilHash) = some ⟨id, st⟩ := by
    intro id st hst hlocked
    rw [first_entries hst, List.find?_cons_of_pos (by simpa using hlocked)]
  cases h with
  | known hknown => exact ⟨given, if_neg hknown⟩
  | unlocked hnone hnil =>
    refine ⟨given, (if_pos hnone).trans ?_⟩
    unfold TesseractInfo.extractICSNodeset
    rw [List.find?_eq_none.mpr]
    intro e he
    simpa using hnil e.1 e.2 ((given _).mem_iff.mp he)
  | @attached id st ics hnone hst hlocked hin hr =>
    refine ⟨first ⟨id, st⟩, (if_pos hnone).trans ?_⟩
    unfold TesseractInfo.extractICSNodeset
    rw [hfirst hst hlocked]
    show (if _ then _ else _) = _
    rw [if_pos hin, hr]
    rfl
  | @stored id st ics hnone hst hlocked hout hr =>
    refine ⟨first ⟨id, st⟩, (if_pos hnone).trans ?_⟩
    unfold TesseractInfo.extractICSNodeset
    rw [hfirst hst hlocked]
    show (if _ then _ else _) = _
    rw [if_neg (Bool.eq_false_iff.mp hout), hr]
    rfl

end

/-! ## 5. Where the extra entries end up -/

/-- Every string of the map stands for the hash of its value. -/
def Addressed (blake2b : Bytes → Hash) (delta : Extras) : Prop :=
  ∀ s v, delta.lookup s = some v → hexToHash s = .ok (blake2b v)

/-- Some string of the map is not hexadecimal. -/
def Malformed (delta : Extras) : Prop :=
  ∃ s v, delta.lookup s = some v ∧ ∀ hash, hexToHash s ≠ .ok hash

/-- No extra entry is written, or all of them lie under the hashes of their contents. -/
def Harmless (blake2b : Bytes → Hash) (ti : TesseractInfo) (c : CommitteeAnswers) : Prop :=
  ti.tesseract.commitInfo = none ∨
    ∀ delta, Remaining ti c delta → Malformed delta ∨ Addressed blake2b delta

/-- What is in the store after the message and is neither there before nor written by `AddTesseract`
    lies under the hash of its content. -/
def ExtrasAddressed (E : ChainEnv) (ti : TesseractInfo) (c : CommitteeAnswers) : Prop :=
  ∀ o a id transition all s k v,
    (addWithExtras E c o a ti id transition all s).2.entries.lookup k = some v →
      s.entries.lookup k = some v ∨
      (addTesseract E a id ti.tesseract transition all s).2.entries.lookup k = some v ∨
      k = (E.codec.blake2b v).bytes

section

variable {E : ChainEnv} {c : CommitteeAnswers} {o : ExtrasOrder} {a : ChainAnswers}
  {ti : TesseractInfo} {id : Identifier} {transition : ChainTransition} {all : Bool}

/-- What is left of the map is extracted, and the tesseract added with it. -/
theorem addWithExtras_eq {delta : Extras} {dirty : GoMap Hash Bytes}
    (hleft : ti.leftover c (o.contexts ti.tesseract.participants) = .ok (some delta))
    (hdirty : extractDirtyEntries (o.extracting delta).entries ∅ = .ok dirty) (s : Disk) :
    addWithExtras E c o a ti id transition all s =
      addTesseractWithState E a id (o.writing dirty).entries ti.tesseract transition all s := by
  unfold addWithExtras
  rw [hleft]
  show (ofGo (extractDirtyEntries (o.extracting delta).entries ∅) >>= _ : Proc Disk _) s = _
  rw [hdirty]
  rfl

variable (E c o a ti id transition all) in
/-- **What `addWithExtras` can do**: leave the store, leave what `AddTesseract` made of it, or go on
    from there with the extra entries of a map that building the committee may leave. -/
theorem addWithExtras_cases (s : Disk) :
    (addWithExtras E c o a ti id transition all s).2 = s ∨
    (addWithExtras E c o a ti id transition all s).2 =
      (addTesseract E a id ti.tesseract transition all s).2 ∨
    ti.tesseract.commitInfo ≠ none ∧ ∃ delta dirty, Remaining ti c delta ∧
      extractDirtyEntries (o.extracting delta).entries ∅ = .ok dirty ∧
      (addWithExtras E c o a ti id transition all s).2 = (createEntries (o.writing dirty).entries
        (addTesseract E a id ti.tesseract transition all s).2).2 := by
  cases hleft : ti.leftover c (o.contexts ti.tesseract.participants) with
  | error p =>
    refine .inl ?_
    unfold addWithExtras
    rw [hleft]
    rfl
  | ok r =>
  cases r with
  | none =>
    refine .inl ?_
    unfold addWithExtras
    rw [hleft]
    rfl
  | some delta =>
  rcases hdirty : extractDirtyEntries (o.extracting delta).entries ∅ with p | dirty
  · refine .inl ?_
    unfold addWithExtras
    rw [hleft]
    show ((ofGo (extractDirtyEntries (o.extracting delta).entries ∅) >>= _ :
      Proc Disk _) s).2 = s
    rw [hdirty]
    rfl
  rw [addWithExtras_eq hleft hdirty]
  unfold addTesseractWithState
  split
  case isTrue => exact .inl rfl
  case isFalse hcommit =>
    cases hadd : addTesseract E a id ti.tesseract transition all s with
    | mk r s1 =>
      rcases r with p | r
      · exact .inr (.inl (by rw [bind_of_error hadd]))
      rw [bind_of_ok hadd]
      cases hr : r.1 with
      | some e => exact .inr (.inl rfl)
      | none =>
        exact .inr (.inr ⟨hcommit, delta, dirty, .of_leftover hleft, hdirty, rfl⟩)

/-- **Whatever is attached, no entry is touched whose key is not a bare hash.** -/
theorem extras_bare (s : Disk) {k : Bytes} (hk : k.length ≠ 32) :
    (addWithExtras E c o a ti id transition all s).2.entries.lookup k = s.entries.lookup k ∨
    (addWithExtras E c o a ti id transition all s).2.entries.lookup k =
      (addTesseract E a id ti.tesseract transition all s).2.entries.lookup k := by
  obtain h | h | ⟨-, _, _, -, -, h⟩ := addWithExtras_cases E c o a ti id
    transition all s
  · exact .inl (by rw [h])
  · exact .inr (by rw [h])
  refine .inr ?_
  rw [h]
  refine createEntries_keeps (I := fun m => m.lookup k = _) (fun e _ m hm => ?_) _ rfl
  rw [lookup_insert_ne, hm]
  intro heq
  rw [heq] at hk
  exact hk (Hash.bytes_length e.1)

/-- The extra entries of a harmless message. -/
theorem Harmless.extrasAddressed (h : Harmless E.codec.blake2b ti c) : ExtrasAddressed E ti c := by
  intro o a id transition all s k v hv
  obtain heq | heq | ⟨hcommit, delta, dirty, hrem, hdirty, heq⟩ := addWithExtras_cases E c o a
    ti id transition all s
  · rw [heq] at hv
    exact .inl hv
  · rw [heq] at hv
    exact .inr (.inl hv)
  obtain ⟨hhex, hfrom⟩ := extractDirtyEntries_ok hdirty
  have haddr : Addressed E.codec.blake2b delta := by
    refine (h.resolve_left hcommit delta hrem).resolve_left ?_
    intro ⟨s', v', hv', hno⟩
    obtain ⟨hash, hhash⟩ := hhex ⟨s', v'⟩ ((o.extracting delta).mem_iff.mpr hv')
    exact hno hash hhash
  have hdirtyAddr : ∀ e ∈ (o.writing dirty).entries, e.1 = E.codec.blake2b e.2 := by
    intro e he
    obtain hnone | ⟨e', he', hhash, hval⟩ := hfrom e.1 e.2 ((o.writing dirty).mem_iff.mp he)
    · cases hnone
    · have hkey := haddr e'.1 e'.2 ((o.extracting delta).mem_iff.mp he')
      rw [hhash, hval] at hkey
      exact Except.ok.inj hkey
  rw [heq] at hv
  refine .inr (createEntries_keeps (I := fun m => ∀ k v, m.lookup k = some v →
    (addTesseract E a id ti.tesseract transition all s).2.entries.lookup k = some v ∨
      k = (E.codec.blake2b v).bytes)
    (fun e he m hm k' v' hv' => ?_) _ (fun _ _ hv' => .inl hv') k v hv)
  obtain ⟨rfl, rfl⟩ | hold := GoMap.of_lookup_insert hv'
  · exact .inr (congrArg Hash.bytes (hdirtyAddr e he))
  · exact hm k' v' hold

/-- What the encodings must be able to do for the tesseract: it has a hash, and there are records
    for accounts at every height. -/
structure TesseractEncodable (E : ChainEnv) (t : LoadedTesseract) : Prop where
  hash : ∃ tsHash, t.hash E.codec = .ok tsHash
  metas : ∀ height, ∃ raw r, E.metas.fromBytes raw = .ok r ∧ height ≤ r.height

/-- **A store on which `AddTesseract` returns `nil` and writes nothing**, with no entry under a bare
    hash: the tesseract is there already. -/
theorem exists_already_added {t : LoadedTesseract} (h : TesseractEncodable E t) (id : Identifier)
    (transition : ChainTransition) :
    ∃ m : Entries, (∀ hash : Hash, m.lookup hash.bytes = none) ∧
      addTesseract E untroubled id t transition true (sound m) = (.ok (none, true), sound m) := by
  obtain ⟨tsHash, hhash⟩ := h.hash
  -- whatever `m` says of the participants, it suffices that it has the tesseract
  have hadd : ∀ m : Entries, (m.lookup (tesseractKey tsHash)).isSome = true →
      ((∃ p st, MustRecord t.toTesseract p st ∧ HasMetaAt E.metas m p st.height) ∨
        ∀ p st, ¬ MustRecord t.toTesseract p st) →
      addTesseract E untroubled id t transition true (sound m) = (.ok (none, true), sound m) := by
    intro m hfound hdata
    refine (bind_of_ok (addParticipantsData_sound id transition hdata)).trans ?_
    exact (bind_of_ok ((ensureTesseract_sound hhash).1 hfound)).trans rfl
  have hbare : ∀ hash : Hash, hash.bytes ≠ tesseractKey tsHash := by
    intro hash heq
    have hlen := congrArg List.length heq
    rw [Hash.bytes_length, tesseractKey_length] at hlen
    omega
  by_cases hmust : ∃ p st, MustRecord t.toTesseract p st
  · obtain ⟨p, st, hmust⟩ := hmust
    obtain ⟨raw, r, hraw, hheight⟩ := h.metas st.height
    have hbucket : ∀ k : Bytes, k.length ≠ 48 → k ≠ bucketKey p := by
      intro k hk heq
      rw [heq] at hk
      exact hk (bucketKey_length p)
    refine ⟨AList.insert (bucketKey p) raw (AList.insert (tesseractKey tsHash) [] ∅), ?_, ?_⟩
    · intro hash
      rw [lookup_insert_ne (hbucket _ (by rw [Hash.bytes_length]; omega)),
        lookup_insert_ne (hbare hash)]
      rfl
    refine hadd _ ?_ (.inl ⟨p, st, hmust, r, ?_, hheight⟩)
    · rw [lookup_insert_ne (hbucket _ (by rw [tesseractKey_length]; omega)), lookup_insert]
      rfl
    · rw [metaOf, lookup_insert, Option.bind_some, hraw]
      rfl
  · refine ⟨AList.insert (tesseractKey tsHash) [] ∅, fun hash => ?_, hadd _ ?_ (.inr ?_)⟩
    · rw [lookup_insert_ne (hbare hash)]
      rfl
    · rw [lookup_insert]
      rfl
    · exact fun p st hp => hmust ⟨p, st, hp⟩

/-- **The extra entries of a message come to lie under the hashes of their contents exactly if those
    do that are left of its map.** -/
theorem extras_iff (E : ChainEnv) (ti : TesseractInfo) (c : CommitteeAnswers)
    (henc : TesseractEncodable E ti.tesseract) :
    ExtrasAddressed E ti c ↔ Harmless E.codec.blake2b ti c := by
  refine ⟨fun h => ?_, Harmless.extrasAddressed⟩
  by_cases hcommit : ti.tesseract.commitInfo = none
  · exact .inl hcommit
  refine .inr fun delta hrem => ?_
  by_cases hmal : Malformed delta
  · exact .inl hmal
  refine .inr fun str v hv => ?_
  have hhex : ∀ e ∈ delta.entries, ∃ hash, hexToHash e.1 = .ok hash := by
    intro e he
    by_contra hno
    exact hmal ⟨e.1, e.2, mem_lookup_iff.mpr he, fun hash hhash => hno ⟨hash, hhash⟩⟩
  obtain ⟨hash, hhash⟩ := hhex ⟨str, v⟩ (mem_lookup_iff.mp hv)
  -- the loop meets the entry last, and the tesseract is stored already
  obtain ⟨contexts, hleft⟩ := hrem.leftover
  obtain ⟨dirty, hdirty, hlast⟩ := extractDirtyEntries_last ∅
    (fun e he => hhex e (mem_of_mem_erase he)) hhash
  rw [← last_entries hv] at hdirty
  obtain ⟨m, hfree, hadd⟩ := exists_already_added henc nilIdentifier ⟨none, ∅⟩
  obtain ⟨m', hcreate, -, hin⟩ := createEntries_sound dirty.nodupKeys (m := m) fun e _ => hfree e.1
  have hrun := h ⟨contexts, last ⟨str, v⟩, given⟩ untroubled nilIdentifier
    ⟨none, ∅⟩ true (sound m) hash.bytes v
  rw [addWithExtras_eq hleft hdirty, addTesseractWithState, if_neg hcommit, bind_of_ok hadd,
    hadd] at hrun
  have hwritten : m'.lookup hash.bytes = some v := hin ⟨hash, v⟩ (mem_lookup_iff.mp hlast)
  obtain hold | hold | heq := hrun (by
    show ((createEntries dirty.entries) (sound m)).2.entries.lookup hash.bytes = some v
    rw [hcreate]
    exact hwritten)
  · rw [show (sound m).entries = m from rfl, hfree] at hold
    cases hold
  · rw [show (sound m).entries = m from rfl, hfree] at hold
    cases hold
  · rw [hhash, Hash.bytes_injective heq]

end

/-! ## 6. The tesseract of an interaction, told by a peer -/

namespace ToldByPeer

def account : Identifier := ⟨1⟩

/-- The interaction that the peer tells about, and the tesseract it names. -/
def ixHash : Hash := ⟨5⟩

def forgedHash : Hash := ⟨9⟩

def tesseract : LoadedTesseract where
  participants := AList.insert account ⟨1, ⟨3⟩, ⟨4⟩, none, ⟨8⟩⟩ ∅
  interactionsHash := nilHash
  receiptsHash := nilHash
  epoch := 0
  timestamp := 1
  fuelUsed := 0
  fuelLimit := 0
  consensusInfo := ⟨[], nilHash, nilHash, 1, ∅, ∅, ∅, nilHash, []⟩
  sealBytes := []
  sealBy := []
  commitInfo := some ⟨none, [], [], 1, [], 0⟩
  ixns := []
  receipts := ∅

/-- The message: one extra entry, under the hash of an interaction. -/
def message : TesseractInfo where
  accountID := account
  tesseract := tesseract
  shouldExecute := false
  committee := none
  ixnsHashes := []
  delta := AList.insert ixHash.string forgedHash.bytes ∅

/-- The node finds the locked context in its own store. -/
def answers : CommitteeAnswers where
  getICSCommittee := .ok (.ok ICSCommittee.new)
  getICSCommitteeFromRawContext := .ok (.error (.new "unused"))

/-- The record of the account at a height. -/
def recordAt (height : UInt64) : AccountMetaRecord where
  id := account
  height := height
  tesseractHash := ⟨1⟩
  contextHash := nilHash
  commitHash := ⟨6⟩
  inheritedAccount := nilIdentifier
  type := .regularAccount
  stateHash := ⟨8⟩
  consensusNodesHash := nilHash
  positionInContextSet := 0

/-- Bytes hash to their number; the records of the account are encoded at one height. -/
def chain (height : UInt64) : ChainEnv where
  codec := ⟨fun _ => .ok [1], fun _ => .ok [2], bytesToHash⟩
  metas := MetaCodec.single (recordAt height)
  kramaID := []
  tesseractBytes _ := .ok [3]
  interactionsBytes _ := .ok [4]
  receiptsBytes _ := .ok [5]
  commitInfoBytes _ := .ok [6]

def object : StateObject where
  accType := .regularAccount
  contextHash := nilHash
  consensusNodesHash := nilHash
  inheritedAccount := nilIdentifier
  assetTree := none
  logicTree := none
  storageTrees := []
  metaStorageTree := none
  dirtyEntries := []

def transition : ChainTransition := ⟨none, AList.insert account object ∅⟩

def orders : ExtrasOrder where
  contexts := given
  extracting := given
  writing := given

/-- The store after the message came to an empty one. -/
def after : Disk :=
  (addWithExtras (chain 1) answers orders untroubled message account transition true (sound ∅)).2

theorem encodable : TesseractEncodable (chain 18446744073709551615) tesseract where
  hash := ⟨⟨1⟩, rfl⟩
  metas height := by
    refine ⟨[1], recordAt 18446744073709551615, rfl, UInt64.le_iff_toNat_le.mpr ?_⟩
    have hlt := height.toNat_lt
    show height.toNat ≤ 18446744073709551615
    omega

end ToldByPeer

open ToldByPeer in
/-- The condition at one message. -/
theorem extras_iff_told :
    TesseractEncodable (chain 18446744073709551615) message.tesseract ∧
    (ExtrasAddressed (chain 18446744073709551615) message answers ↔
      Harmless bytesToHash message answers) :=
  ⟨encodable, extras_iff (chain 18446744073709551615) message answers encodable⟩

open ToldByPeer in
theorem extras_bare_told :
    after.entries.lookup (tesseractKey ⟨1⟩) = none ∨
    after.entries.lookup (tesseractKey ⟨1⟩) = (addTesseract (chain 1) untroubled account tesseract
      transition true (sound ∅)).2.entries.lookup (tesseractKey ⟨1⟩) :=
  extras_bare (sound ∅) (by rw [tesseractKey_length]; decide)

open ToldByPeer in
set_option maxRecDepth 4000 in
/-- **A tesseract with one extra entry is added with `nil`, and the lookup of an interaction that is
    not in it answers what the peer has attached.** -/
theorem forged_lookup :
    (addWithExtras (chain 1) answers orders untroubled message account transition true
      (sound ∅)).1 = .ok none ∧
    (addTesseract (chain 1) untroubled account message.tesseract transition true
      (sound ∅)).2.entries.lookup ixHash.bytes = none ∧
    (Disk.getIXLookup ixHash after).1 = .ok (.ok forgedHash.bytes) ∧
    (chain 1).codec.blake2b forgedHash.bytes ≠ ixHash := by
  refine ⟨by rfl, by rfl, by rfl, by decide⟩

end GoMoi
