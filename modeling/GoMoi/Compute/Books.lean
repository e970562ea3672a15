/-
  File:      GoMoi/Compute/Books.lean
  Subject:   The books that memory shows.

  The books are read off memory: for an account of the transition what its object shows, for any
  other account what is committed. A call on an object changes one entry of them, because no amount
  is reached from two places and no asset object from two accounts.

  * `Memory.Quiet`, `Same`, `Calm` -- calls that change nothing.
-/
import GoMoi.Compute.Ledger
import GoMoi.State.AssetEffects
import GoMoi.State.Snapshot

namespace GoMoi

open Proc Memory

/-! ## 1. Books in memory -/

/-- The objects of the transition are there, each for its account, and no asset object is in the
    transactions of two of them, or there twice. -/
structure Accounts (t : Transition) (m : Memory) : Prop where
  separate : m.heap.Separate
  objects : ∀ id p, t.objects.lookup id = some p →
    ∃ o, m.objects.read p = some o ∧ o.id = id ∧ o.In m.heap
  one : ∀ id id' p p' o o' a a' q, t.objects.lookup id = some p → t.objects.lookup id' = some p' →
    m.objects.read p = some o → m.objects.read p' = some o' → o.pendingAsset a = some q →
    o'.pendingAsset a' = some q → id = id' ∧ a = a'

/-- What an object holds. -/
def Memory.holding (B : Backend) (m : Memory) (p : Ptr Object) (a : AssetID) : Holding :=
  match m.objects.read p with
  | none => .empty
  | some o => Receiver.holding B ⟨o, m.heap⟩ a

/-- The books: the accounts of the transition as their objects show, the others as in `base`. -/
def Memory.ledger (B : Backend) (t : Transition) (base : Ledger) (m : Memory) : Ledger :=
  fun id a => match t.objects.lookup id with
    | none => base id a
    | some p => m.holding B p a

/-- Memory that shows the books `L`. -/
structure At (B : Backend) (t : Transition) (base L : Ledger) (m : Memory) : Prop where
  world : Accounts t m
  ledger : m.ledger B t base = L

/-- The memory after a method on the object behind `p`. -/
def Memory.after (m : Memory) (p : Ptr Object) (s : Receiver) : Memory :=
  ⟨m.objects.modify p fun _ => s.object, s.heap⟩

section

variable {B : Backend} {t : Transition} {base L : Ledger} {m : Memory} {id : Identifier}
  {p : Ptr Object} {o : Object} {a : AssetID} {V : Ptr Int → Prop}
    {D : TokenID × Ptr MetaData → Prop}
  {s : Receiver}

theorem Accounts.id_eq (hw : Accounts t m) {id' : Identifier} (hid : t.objects.lookup id = some p)
    (hid' : t.objects.lookup id' = some p) : id = id' := by
  obtain ⟨o, ho, hoid, -⟩ := hw.objects id p hid
  obtain ⟨_, ho', hoid', -⟩ := hw.objects id' p hid'
  obtain rfl := Option.mem_unique ho ho'
  exact hoid.symm.trans hoid'

theorem Accounts.sound (hw : Accounts t m) (hid : t.objects.lookup id = some p)
    (ho : m.objects.read p = some o) : (⟨o, m.heap⟩ : Receiver).Sound := by
  obtain ⟨_, ho', -, hin⟩ := hw.objects id p hid
  obtain rfl := Option.mem_unique ho ho'
  exact ⟨hw.separate, hin⟩

/-- What a method leaves of its object: the account, and the other assets. -/
structure Receiver.Follows (a : AssetID) (s s' : Receiver) : Prop where
  id : s'.object.id = s.object.id
  data : s'.object.data = s.object.data
  other : ∀ b, b ≠ a → s'.object.pendingAsset b = s.object.pendingAsset b
  self : ∀ q, s'.object.pendingAsset a = some q → s.Fetched a q
  separate : s'.heap.Separate
  grown : ∀ q, s.heap.assets.Has q → s'.heap.assets.Has q
  pending : s'.object.In s'.heap
  hold : ∀ q, s.heap.assets.Has q → s.object.pendingAsset a ≠ some q →
    s'.heap.holdOf q = s.heap.holdOf q

theorem Touched.follows {s' : Receiver} (ht : Touched a V D s s') (hs : s.Sound) :
    s.Follows a s' := by
  rcases ht with ⟨hobj, hi⟩ | ⟨q, hw⟩
  · refine ⟨by rw [hobj], by rw [hobj], fun b _ => by rw [hobj], fun q hq => .inl (hobj ▸ hq),
      hi.separate, fun q hq => hi.kept.assets.has hq, (hs.of_idle hobj hi).pending,
        fun q hq _ => ?_⟩
    unfold Heap.holdOf
    rw [hi.viewAsset hs.separate hq]
  have hgrown : ∀ q', s.heap.assets.Has q' → s'.heap.assets.Has q' := fun _ h => hw.assets.has h
  have hhold : ∀ q', s.heap.assets.Has q' → s.object.pendingAsset a ≠ some q' →
      s'.heap.holdOf q' = s.heap.holdOf q' := by
    intro q' hq' hne
    refine hw.holdOf_other hs.separate hq' fun heq => ?_
    rcases hw.fetched with h | ⟨-, h⟩
    · exact hne (heq ▸ h)
    · exact h (heq ▸ hq')
  rcases hw.object with hobj | hobj
  · refine ⟨by rw [hobj], by rw [hobj], fun b _ => by rw [hobj], fun q' hq' => .inl (hobj ▸ hq'),
      hw.separate, hgrown, fun b q' hq' => hgrown q' (hs.pending b q' (hobj ▸ hq')), hhold⟩
  have hpend : ∀ b, s'.object.pendingAsset b = if b = a then some q else s.object.pendingAsset b :=
    fun b => by rw [hobj, pendingAsset_insert]
  refine ⟨by rw [hobj]; rfl, by rw [hobj]; rfl, fun b hb => by rw [hpend, if_neg hb],
    fun q' hq' => ?_, hw.separate, hgrown, fun b q' hq' => ?_, hhold⟩
  · rw [hpend, if_pos rfl] at hq'
    cases hq'
    exact hw.fetched
  rw [hpend] at hq'
  split at hq'
  case isTrue =>
    cases hq'
    exact hw.here
  case isFalse => exact hgrown q' (hs.pending b q' hq')

theorem Memory.read_after (p' : Ptr Object) (ho : m.objects.read p = some o) :
    (m.after p s).objects.read p' = if p' = p then some s.object else m.objects.read p' := by
  show (m.objects.modify p _).read p' = _
  rw [Cells.read_modify]
  split
  case isTrue h => rw [h, ho]; rfl
  case isFalse => rfl

variable {b : AssetID}

/-- A pending asset object after a method: it was pending there before, or it is new. -/
theorem pending_after (ho : m.objects.read p = some o) (hf : Receiver.Follows a ⟨o, m.heap⟩ s)
    {p' : Ptr Object} {o' : Object} {q : Ptr AssetObject}
    (ho' : (m.after p s).objects.read p' = some o') (hq : o'.pendingAsset b = some q) :
    (∃ o1, m.objects.read p' = some o1 ∧ o1.pendingAsset b = some q) ∨
      (p' = p ∧ b = a ∧ ¬ m.heap.assets.Has q) := by
  rw [read_after p' ho] at ho'
  split at ho'
  case isFalse => exact .inl ⟨o', ho', hq⟩
  case isTrue hp =>
    cases ho'
    by_cases hb : b = a
    · subst hb
      rcases hf.self q hq with hold | ⟨-, hnew⟩
      · exact .inl ⟨o, hp ▸ ho, hold⟩
      · exact .inr ⟨hp, rfl, hnew⟩
    · rw [hf.other b hb] at hq
      exact .inl ⟨o, hp ▸ ho, hq⟩

/-- **A method keeps the world.** -/
theorem Accounts.after (hw : Accounts t m) (hid : t.objects.lookup id = some p)
    (ho : m.objects.read p = some o) (hf : Receiver.Follows a ⟨o, m.heap⟩ s) :
    Accounts t (m.after p s) := by
  obtain ⟨o', ho', hoid, -⟩ := hw.objects id p hid
  obtain rfl := Option.mem_unique ho ho'
  have hhas : ∀ id' p' o' b q, t.objects.lookup id' = some p' → m.objects.read p' = some o' →
      o'.pendingAsset b = some q → m.heap.assets.Has q := fun id' p' o' b q hid' ho' hq =>
    (hw.sound hid' ho').pending b q hq
  refine ⟨hf.separate, fun id' p' hid' => ?_,
    fun id1 id2 p1 p2 o1 o2 a1 a2 q h1 h2 ho1 ho2 hq1 hq2 => ?_⟩
  · rw [read_after p' ho]
    by_cases hp : p' = p
    · subst hp
      rw [if_pos rfl]
      exact ⟨_, rfl, (hf.id.trans hoid).trans (hw.id_eq hid hid'), hf.pending⟩
    · obtain ⟨o1, ho1, hoid1, hin1⟩ := hw.objects id' p' hid'
      rw [if_neg hp]
      exact ⟨o1, ho1, hoid1, fun b q hq => hf.grown q (hin1 b q hq)⟩
  · rcases pending_after ho hf ho1 hq1 with ⟨b1, hb1, hold1⟩ | ⟨hp1, ha1, hnew⟩
    · rcases pending_after ho hf ho2 hq2 with ⟨b2, hb2, hold2⟩ | ⟨-, -, hnew⟩
      · exact hw.one id1 id2 p1 p2 b1 b2 a1 a2 q h1 h2 hb1 hb2 hold1 hold2
      · exact absurd (hhas id1 p1 b1 a1 q h1 hb1 hold1) hnew
    rcases pending_after ho hf ho2 hq2 with ⟨b2, hb2, hold2⟩ | ⟨hp2, ha2, -⟩
    · exact absurd (hhas id2 p2 b2 a2 q h2 hb2 hold2) hnew
    · subst hp1 hp2
      exact ⟨hw.id_eq h1 h2, ha1.trans ha2.symm⟩

theorem Receiver.holding_congr {s s' : Receiver} (hid : s'.object.id = s.object.id)
    (hdata : s'.object.data = s.object.data)
    (hpend : s'.object.pendingAsset b = s.object.pendingAsset b)
    (hhold : ∀ q, s.object.pendingAsset b = some q → s'.heap.holdOf q = s.heap.holdOf q) :
    s'.holding B b = s.holding B b := by
  cases hq : s.object.pendingAsset b with
  | some q => rw [holding_of_pending hq, holding_of_pending (hpend.trans hq), hhold q hq]
  | none =>
    unfold holding assetView Object.committedAsset
    rw [hpend, hq, hid, hdata]

/-- **A method changes one entry of the books.** -/
theorem Accounts.ledger_after (hw : Accounts t m) (hid : t.objects.lookup id = some p)
    (ho : m.objects.read p = some o) (hf : Receiver.Follows a ⟨o, m.heap⟩ s) :
    (m.after p s).ledger B t base = (m.ledger B t base).set id a (s.holding B a) := by
  funext id' b
  -- an asset object that is pending elsewhere
  have hother : ∀ id1 p1 o1 b1 q, t.objects.lookup id1 = some p1 → m.objects.read p1 = some o1 →
      o1.pendingAsset b1 = some q → ¬ (id1 = id ∧ b1 = a) → s.heap.holdOf q = m.heap.holdOf q := by
    intro id1 p1 o1 b1 q h1 ho1 hq hne
    refine hf.hold q ((hw.sound h1 ho1).pending b1 q hq) fun hpend => hne ?_
    exact hw.one id1 id p1 p o1 o b1 a q h1 hid ho1 ho hq hpend
  by_cases hkey : id' = id ∧ b = a
  · obtain ⟨rfl, rfl⟩ := hkey
    rw [Ledger.set_same]
    unfold ledger holding
    simp only [hid, read_after p ho, if_true]
    rfl
  rw [Ledger.set_of_ne hkey]
  unfold ledger
  rcases hid' : t.objects.lookup id' with _ | p'
  · rfl
  obtain ⟨o', ho', -, -⟩ := hw.objects id' p' hid'
  simp only [holding, read_after p' ho, ho']
  by_cases hp : p' = p
  · subst hp
    obtain rfl := hw.id_eq hid hid'
    obtain rfl := Option.mem_unique ho ho'
    have hb : b ≠ a := fun h => hkey ⟨rfl, h⟩
    rw [if_pos rfl]
    exact Receiver.holding_congr hf.id hf.data (hf.other b hb)
      fun q hq => hother id p' o b q hid ho hq hkey
  · rw [if_neg hp]
    exact Receiver.holding_congr rfl rfl rfl
      fun q hq => hother id' p' o' b q hid' ho' hq hkey

section

variable (hat : At B t base L m) (hid : t.objects.lookup id = some p)
include hat hid

/-- The books at an account of the transition. -/
theorem At.holding (ho : m.objects.read p = some o) (b : AssetID) :
    Receiver.holding B ⟨o, m.heap⟩ b = L id b := by
  rw [← hat.ledger]
  simp [Memory.ledger, Memory.holding, hid, ho]

/-- **A call on an account of the transition**, from what is known of the method. -/
theorem At.call {A : Type} {x : Method A} {Q : A → Memory → Prop} {R : Memory → Prop}
    (hx : ∀ o, m.objects.read p = some o → (⟨o, m.heap⟩ : Receiver).Sound →
      (∀ b, Receiver.holding B ⟨o, m.heap⟩ b = L id b) →
      wp x (fun r s => Q r (m.after p s)) (fun s => R (m.after p s)) ⟨o, m.heap⟩) :
    wp (Memory.call p x) Q R m := by
  obtain ⟨o, ho, -, -⟩ := hat.world.objects id p hid
  rw [wp_call ho]
  exact hx o ho (hat.world.sound hid ho) (hat.holding hid ho)

/-- What a method that is done leaves. -/
theorem At.done (ho : m.objects.read p = some o) {H : Holding} (hd : Done B a V D ⟨o, m.heap⟩ H s) :
    At B t base (L.set id a H) (m.after p s) := by
  have hf := hd.touched.follows (hat.world.sound hid ho)
  refine ⟨hat.world.after hid ho hf, ?_⟩
  rw [hat.world.ledger_after hid ho hf, hat.ledger, hd.holding]

end

end

/-! ## 2. Calls that change nothing -/

/-- The record of an asset is in the transaction of its account. -/
def Memory.Linked (t : Transition) (m : Memory) (a : AssetID) : Prop :=
  ∃ p o q, t.objects.lookup a = some p ∧ m.objects.read p = some o ∧ o.pendingAsset a = some q

/-- What the books are read from, of an object. -/
def Object.assetKey (o : Object) :
    Option (GoMap AssetID (Ptr AssetObject)) × Identifier × Account :=
  (o.assetTreeTxn, o.id, o.data)

/-- Nothing that has to do with assets is changed. -/
structure Memory.Quiet (m m' : Memory) : Prop where
  kept : m.heap.Kept m'.heap
  objects : ∀ p, (m'.objects.read p).map Object.assetKey = (m.objects.read p).map Object.assetKey

/-- The books are the same, and the amounts that go with a call. -/
structure Same (B : Backend) (t : Transition) (base L : Ledger) (m m' : Memory) : Prop where
  quiet : m.Quiet m'
  books : At B t base L m'
  carries : ∀ v n, m.heap.Carries v n → m'.heap.Carries v n

/-- A method that only looks: its object is the same, and there is nothing but new asset objects. -/
def Receiver.Unmoved (s s' : Receiver) : Prop := s'.object = s.object ∧ s.heap.Idle s'.heap

/-- A method that only looks, and what is known of its result. -/
abbrev Looks {A : Type} (P : A → Heap → Prop) (x : Method A) (s : Receiver) : Prop :=
  wp x (fun r s' => s.Unmoved s' ∧ P r s'.heap) s.Unmoved s

/-- However the call ends the books are the same, and `P` is known of what it returns. -/
abbrev Calm {A : Type} (B : Backend) (t : Transition) (base L : Ledger) (P : A → Heap → Prop)
    (x : Engine A) (m : Memory) : Prop :=
  wp x (fun r m' => Same B t base L m m' ∧ P r m'.heap) (fun m' => Same B t base L m m') m

/-- A method that has nothing to do with assets. -/
abbrev Outside {A : Type} (x : Method A) : Prop :=
  Fixes (fun s : Receiver => (s.heap, s.object.assetKey)) x

section

variable {B : Backend} {t : Transition} {base L : Ledger} {m m' m'' : Memory} {id : Identifier}
  {p : Ptr Object} {o : Object} {a : AssetID} {s : Receiver}

theorem Memory.Quiet.refl (m : Memory) : m.Quiet m := ⟨.refl _, fun _ => rfl⟩

theorem Memory.Quiet.trans (h : m.Quiet m') (h' : m'.Quiet m'') : m.Quiet m'' :=
  ⟨h.kept.trans h'.kept, fun p => (h'.objects p).trans (h.objects p)⟩

theorem Same.refl (hat : At B t base L m) : Same B t base L m m :=
  ⟨.refl m, hat, fun _ _ h => h⟩

theorem Same.trans (h : Same B t base L m m') (h' : Same B t base L m' m'') :
    Same B t base L m m'' :=
  ⟨h.quiet.trans h'.quiet, h'.books, fun v n hv => h'.carries v n (h.carries v n hv)⟩

theorem Object.of_assetKey {x : Option Object} (h : x.map assetKey = some o.assetKey) :
    ∃ o', x = some o' ∧ o'.id = o.id ∧ o'.data = o.data ∧
      ∀ b, o'.pendingAsset b = o.pendingAsset b := by
  obtain ⟨o', ho', hkey⟩ := Option.map_eq_some_iff.mp h
  simp only [assetKey, Prod.mk.injEq] at hkey
  refine ⟨o', ho', hkey.2.1, hkey.2.2, fun b => ?_⟩
  unfold pendingAsset
  rw [hkey.1]

/-- An object before and after. -/
theorem Memory.Quiet.object (h : m.Quiet m') (ho : m.objects.read p = some o) :
    ∃ o', m'.objects.read p = some o' ∧ o'.id = o.id ∧ o'.data = o.data ∧
      ∀ b, o'.pendingAsset b = o.pendingAsset b :=
  Object.of_assetKey ((h.objects p).trans (by rw [ho]; rfl))

/-- An object after and before. -/
theorem Memory.Quiet.object' (h : m.Quiet m') (ho : m'.objects.read p = some o) :
    ∃ o', m.objects.read p = some o' ∧ o'.id = o.id ∧ o'.data = o.data ∧
      ∀ b, o'.pendingAsset b = o.pendingAsset b :=
  Object.of_assetKey ((h.objects p).symm.trans (by rw [ho]; rfl))

theorem Memory.Quiet.linked (h : m.Quiet m') (a : AssetID) : m'.Linked t a ↔ m.Linked t a := by
  constructor
  · intro ⟨p, o, q, hp, ho, hq⟩
    obtain ⟨o', ho', -, -, hpend⟩ := h.object' ho
    exact ⟨p, o', q, hp, ho', (hpend a).trans hq⟩
  · intro ⟨p, o, q, hp, ho, hq⟩
    obtain ⟨o', ho', -, -, hpend⟩ := h.object ho
    exact ⟨p, o', q, hp, ho', (hpend a).trans hq⟩

/-- An asset object that is there shows what it showed. -/
theorem Memory.Quiet.viewAsset (h : m.Quiet m') (hs : m.heap.Separate) {q : Ptr AssetObject}
    (hq : m.heap.assets.Has q) : m'.heap.viewAsset q = m.heap.viewAsset q := by
  obtain ⟨ao, hao⟩ := Cells.has_iff_read.mp hq
  unfold Heap.viewAsset
  rw [h.kept.assets.read hao, hao]
  exact congrArg some (h.kept.viewObject (hs.closed q ao hao))

/-- **The books stay.** -/
theorem At.quiet (hat : At B t base L m) (h : m.Quiet m') (hs : m'.heap.Separate) :
    At B t base L m' := by
  refine ⟨⟨hs, fun id p hid => ?_, fun id id' p p' o o' a a' q hid hid' ho ho' hq hq' => ?_⟩, ?_⟩
  · obtain ⟨o, ho, hoid, hin⟩ := hat.world.objects id p hid
    obtain ⟨o', ho', hid', -, hpend⟩ := h.object ho
    exact ⟨o', ho', hid'.trans hoid, fun b q hq => h.kept.assets.has (hin b q (hpend b ▸ hq))⟩
  · obtain ⟨b, hb, -, -, hpend⟩ := h.object' ho
    obtain ⟨b', hb', -, -, hpend'⟩ := h.object' ho'
    exact hat.world.one id id' p p' b b' a a' q hid hid' hb hb' ((hpend a).trans hq)
      ((hpend' a').trans hq')
  rw [← hat.ledger]
  funext id b
  unfold Memory.ledger
  rcases hid : t.objects.lookup id with _ | p
  · rfl
  obtain ⟨o, ho, -, hin⟩ := hat.world.objects id p hid
  obtain ⟨_, ho', hid', hdata, hpend⟩ := h.object ho
  simp only [Memory.holding, ho, ho']
  refine Receiver.holding_congr hid' hdata (hpend b) fun q hq => ?_
  unfold Heap.holdOf
  rw [h.viewAsset hat.world.separate (hin b q hq)]

theorem Memory.quiet_after (ho : m.objects.read p = some o) (hkept : m.heap.Kept s.heap)
    (hkey : s.object.assetKey = o.assetKey) : m.Quiet (m.after p s) := by
  refine ⟨hkept, fun p' => ?_⟩
  rw [read_after p' ho]
  split
  case isTrue hp => rw [hp, ho, Option.map_some, Option.map_some, hkey]
  case isFalse => rfl

/-- **A method that only looks leaves the books.** -/
theorem At.looks (hat : At B t base L m) (ho : m.objects.read p = some o)
    (hu : Receiver.Unmoved ⟨o, m.heap⟩ s) : Same B t base L m (m.after p s) := by
  have hquiet := quiet_after (p := p) ho hu.2.kept (by rw [hu.1])
  exact ⟨hquiet, hat.quiet hquiet hu.2.separate, fun v n hv => hu.2.carries hv⟩

variable {A : Type} {x : Method A}

/-- **A method that has nothing to do with assets leaves the books**, on whatever object. -/
theorem At.outside (hat : At B t base L m) (hx : Outside x) :
    Same B t base L m (Memory.call p x m).2 := by
  unfold Memory.call
  rcases ho : m.objects.read p with _ | o
  · exact .refl hat
  have hfix := hx ⟨o, m.heap⟩
  rw [Prod.mk.injEq] at hfix
  obtain ⟨hheap, hkey⟩ := hfix
  have hquiet : m.Quiet (m.after p (x ⟨o, m.heap⟩).2) :=
    quiet_after ho (hheap ▸ .refl _) hkey
  refine ⟨hquiet, hat.quiet hquiet ?_, fun v n hv => ?_⟩
  · show (x ⟨o, m.heap⟩).2.heap.Separate
    rw [hheap]
    exact hat.world.separate
  · show (x ⟨o, m.heap⟩).2.heap.Carries v n
    rw [hheap]
    exact hv

/-- A call of a method that only looks. -/
theorem At.look {P : A → Heap → Prop} (hat : At B t base L m) (hid : t.objects.lookup id = some p)
    (hx : ∀ s : Receiver, s.Sound → (∀ b, s.holding B b = L id b) → Looks P x s) :
    Calm B t base L P (Memory.call p x) m :=
  hat.call hid fun o ho hs hh => wp_mono (hx ⟨o, m.heap⟩ hs hh)
    (fun _ _ h => ⟨hat.looks ho h.1, h.2⟩) fun _ h => hat.looks ho h

end

end GoMoi
