/-
  File:      GoMoi/Compute/AssetFrame.lean
  Subject:   Whom a call of the asset engine can change: accounts for which it was given a mutate
             lock.

  What is observable of an account are its asset objects, through their pointers. A method writes
  into cells that its own asset object leads to, so another account sees it exactly if it leads
  there as well. Amounts are never shared (`Heap.Separate`). Token metadata are: a part of a token
  is handed over with the pointer to its metadata, which the payer keeps.

  * `EngineOp.frame` -- a call; `Bank.changes_granted` -- runs.
-/
import GoMoi.Compute.Bank

namespace GoMoi

open Proc Holding Receiver Option Bank

/-! ## 1. Who leads to metadata -/

/-- The account has the metadata behind `x` for the token, in the pending record of the asset. -/
def Memory.Owns (t : Transition) (m : Memory) (id : Identifier) (a : AssetID) (tok : TokenID)
    (x : Ptr MetaData) : Prop :=
  ∃ p o, t.objects.lookup id = some p ∧ m.objects.read p = some o ∧
    (⟨o, m.heap⟩ : Receiver).OwnMeta a tok x

/-- No metadata is shared. -/
def Memory.Apart (t : Transition) (m : Memory) : Prop :=
  ∀ x id a tok id' a' tok', m.Owns t id a tok x → m.Owns t id' a' tok' x →
    id' = id ∧ a' = a ∧ tok' = tok

/-- The observable state of the accounts. -/
def Memory.shown (c : Committed) (t : Transition) (m : Memory) : Committed :=
  commitAssets ⟨c, t, m⟩

section

variable {a : AssetID} {V : Ptr Int → Prop} {D : TokenID × Ptr MetaData → Prop} {s0 s : Receiver}
  {q q' : Ptr AssetObject}

/-- **An asset object that shares no metadata** with the one at work shows what it showed. -/
theorem Work.viewAsset_other (hw : Work a V D s0 s q) (hs : s0.heap.Separate)
    (hq' : s0.heap.assets.Has q') (hne : q' ≠ q)
    (hmeta : ∀ ao tok x, s0.heap.assets.read q' = some ao → ao.tokenMetaData.lookup tok = some x →
      ¬ ∃ tok', s0.OwnMeta a tok' x) : s.heap.viewAsset q' = s0.heap.viewAsset q' := by
  obtain ⟨ao, hao⟩ := Cells.has_iff_read.mp hq'
  unfold Heap.viewAsset
  rw [hw.assets.2 q' hq' hne, hao]
  refine congrArg some (Heap.viewObject_congr (fun x hx => ?_) fun x hx => ?_)
  · obtain ⟨_, hpl⟩ := AssetOf.mem_amounts.mp hx
    exact hw.amount_other hs hne hao hpl
  · obtain ⟨tok, htok⟩ := GoMap.mem_values.mp hx
    exact hw.metas.2 x ((hs.closed q' ao hao).metas x hx) (hmeta ao tok x hao htok)

/-- The pending record of the asset, after the work. -/
theorem Work.pending_self (hw : Work a V D s0 s q) (h : s.object.pendingAsset a = some q') :
    q' = q := by
  rcases hw.object with hobj | hobj
  · rw [hobj] at h
    rcases hw.fetched with hold | ⟨hnone, -⟩
    · exact mem_unique h hold
    · rw [hnone] at h
      cases h
  · rw [hobj, pendingAsset_insert, if_pos rfl] at h
    exact (Option.some.inj h).symm

end

section

variable {a : AssetID} {V : Ptr Int → Prop} {D : TokenID × Ptr MetaData → Prop} {s s' : Receiver}
  {q : Ptr AssetObject} {tok tok' : TokenID} {x : Ptr MetaData}

section

variable (ht : Touched a V D s s')
include ht

theorem Touched.read_other (hq : s.heap.assets.Has q) (hne : s.object.pendingAsset a ≠ some q) :
    s'.heap.assets.read q = s.heap.assets.read q := by
  rcases ht with ⟨-, hi⟩ | ⟨_, hw⟩
  · exact hi.kept.assets.read_eq hq
  refine hw.assets.2 q hq fun heq => ?_
  rcases hw.fetched with h | ⟨-, h⟩
  · exact hne (heq ▸ h)
  · exact h (heq ▸ hq)

theorem Touched.viewAsset_other (hs : s.heap.Separate) (hq : s.heap.assets.Has q)
    (hne : s.object.pendingAsset a ≠ some q)
    (hmeta : ∀ ao tok x, s.heap.assets.read q = some ao → ao.tokenMetaData.lookup tok = some x →
      ¬ ∃ tok', s.OwnMeta a tok' x) : s'.heap.viewAsset q = s.heap.viewAsset q := by
  rcases ht with ⟨-, hi⟩ | ⟨_, hw⟩
  · exact hi.viewAsset hs hq
  refine hw.viewAsset_other hs hq (fun heq => ?_) hmeta
  rcases hw.fetched with h | ⟨-, h⟩
  · exact hne (heq ▸ h)
  · exact h (heq ▸ hq)

/-- Metadata of the account after a method: of before, new, or given to the method. -/
theorem Touched.ownMeta (hs : s.Sound) (h : s'.OwnMeta a tok x) :
    s.OwnMeta a tok x ∨ ¬ s.heap.metas.Has x ∨ D (tok, x) := by
  obtain ⟨q, ao, hpend, hao, hx⟩ := h
  rcases ht with ⟨hobj, hi⟩ | ⟨_, hw⟩
  · rw [hobj] at hpend
    rw [hi.kept.assets.read_eq (hs.pending a q hpend)] at hao
    exact .inl ⟨q, ao, hpend, hao, hx⟩
  · obtain rfl := hw.pending_self hpend
    exact hw.ownMeta ao tok x hao hx

/-- New metadata are there for one token. -/
theorem Touched.ownMeta_new (hs : s.Sound) (h : s'.OwnMeta a tok x) (h' : s'.OwnMeta a tok' x)
    (hnew : ¬ s.heap.metas.Has x) : tok = tok' := by
  obtain ⟨q, ao, hpend, hao, hx⟩ := h
  obtain ⟨_, _, hpend', hao', hx'⟩ := h'
  obtain rfl := mem_unique hpend hpend'
  obtain rfl := mem_unique hao hao'
  rcases ht with ⟨hobj, hi⟩ | ⟨_, hw⟩
  · rw [hobj] at hpend
    rw [hi.kept.assets.read_eq (hs.pending a q hpend)] at hao
    exact absurd ((hs.separate.closed q ao hao).metas x (AssetOf.mem_metas hx)) hnew
  · obtain rfl := hw.pending_self hpend
    exact hw.single ao tok tok' x hao hx hx' hnew

end

end

section

variable {c : Committed} {t : Transition} {m m' : Memory} {id id' : Identifier} {p : Ptr Object}
  {o : Object} {a b : AssetID} {tok : TokenID} {x : Ptr MetaData} {V : Ptr Int → Prop}
  {D : TokenID × Ptr MetaData → Prop} {s : Receiver}

theorem Memory.Owns.has (hw : Accounts t m) (h : m.Owns t id a tok x) : m.heap.metas.Has x := by
  obtain ⟨p, o, -, -, q, ao, -, hao, hx⟩ := h
  exact (hw.separate.closed q ao hao).metas x (AssetOf.mem_metas hx)

/-- What the account leads to after a method on it. -/
theorem Memory.Owns.self (hid : t.objects.lookup id = some p) (ho : m.objects.read p = some o)
    (h : (m.after p s).Owns t id a tok x) : s.OwnMeta a tok x := by
  obtain ⟨_, _, hid', ho', hown⟩ := h
  obtain rfl := mem_unique hid hid'
  rw [Memory.read_after p ho, if_pos rfl] at ho'
  cases ho'
  exact hown

section

variable (hw : Accounts t m) (hid : t.objects.lookup id = some p) (ho : m.objects.read p = some o)
include hw hid ho

/-- The object of another account, or of the same one with another asset. -/
theorem Accounts.pending_ne {p' : Ptr Object} {o' : Object} {q : Ptr AssetObject}
    (hid' : t.objects.lookup id' = some p') (ho' : m.objects.read p' = some o')
    (hq : o'.pendingAsset b = some q) (hne : ¬ (id' = id ∧ b = a)) : o.pendingAsset a ≠ some q :=
  fun h => hne (hw.one id' id p' p o' o b a q hid' hid ho' ho hq h)

/-- **Who leads to metadata after a method.** -/
theorem Accounts.owns_after (ht : Touched a V D ⟨o, m.heap⟩ s)
    (h : (m.after p s).Owns t id' b tok x) :
    m.Owns t id' b tok x ∨ (id' = id ∧ b = a ∧ (¬ m.heap.metas.Has x ∨ D (tok, x))) := by
  obtain ⟨p', o', hid', ho', q, ao, hpend, hao, hx⟩ := h
  have hs := hw.sound hid ho
  rw [Memory.read_after p' ho] at ho'
  by_cases hkey : id' = id ∧ b = a
  · obtain ⟨rfl, rfl⟩ := hkey
    obtain rfl := mem_unique hid hid'
    rw [if_pos rfl] at ho'
    cases ho'
    rcases ht.ownMeta hs ⟨q, ao, hpend, hao, hx⟩ with hold | hnew
    · exact .inl ⟨p, o, hid, ho, hold⟩
    · exact .inr ⟨rfl, rfl, hnew⟩
  -- the record was pending before, and is not the one at work
  have hold : ∃ o1, m.objects.read p' = some o1 ∧ o1.pendingAsset b = some q := by
    split at ho'
    case isTrue hp =>
      cases ho'
      have hb : b ≠ a := fun h => hkey ⟨hw.id_eq (hp ▸ hid') hid, h⟩
      exact ⟨o, hp ▸ ho, ((ht.follows hs).other b hb).symm.trans hpend⟩
    case isFalse => exact ⟨o', ho', hpend⟩
  obtain ⟨o1, ho1, hpend1⟩ := hold
  have hhas := (hw.sound hid' ho1).pending b q hpend1
  have hread := ht.read_other hhas (hw.pending_ne hid ho hid' ho1 hpend1 hkey)
  exact .inl ⟨p', o1, hid', ho1, q, ao, hpend1, hread.symm.trans hao, hx⟩

end

section

variable (hw : Accounts t m) (hap : m.Apart t) (hid : t.objects.lookup id = some p)
  (ho : m.objects.read p = some o) (ht : Touched a V D ⟨o, m.heap⟩ s)
include hw hap hid ho ht

/-- **What other accounts show after a method.** -/
theorem Accounts.view_after (hne : id' ≠ id) (b : AssetID) :
    (m.after p s).shown c t id' b = m.shown c t id' b := by
  unfold Memory.shown commitAssets
  rcases hid' : t.objects.lookup id' with _ | p'
  · rfl
  have hp : p' ≠ p := fun h => hne (hw.id_eq (h ▸ hid') hid)
  obtain ⟨o', ho', -, hin⟩ := hw.objects id' p' hid'
  simp only [bind_some, Memory.read_after p' ho, if_neg hp, ho']
  rcases hq : o'.pendingAsset b with _ | q
  · rfl
  have hpend := hw.pending_ne (a := a) hid ho hid' ho' hq fun h => hne h.1
  refine ht.viewAsset_other hw.separate (hin b q hq) hpend fun ao tok x hao hx hown => hne ?_
  obtain ⟨tok', hown⟩ := hown
  exact (hap x id a tok' id' b tok ⟨p, o, hid, ho, hown⟩
    ⟨p', o', hid', ho', q, ao, hq, hao, hx⟩).1

/-- **Nothing is shared after a method** that stores no metadata but of its own account. -/
theorem Accounts.apart_after (hD : ∀ tok x, D (tok, x) → (∀ tok', D (tok', x) → tok' = tok) ∧
      ∀ id' b tok', m.Owns t id' b tok' x → id' = id ∧ b = a ∧ tok' = tok) :
    (m.after p s).Apart t := by
  have hs := hw.sound hid ho
  intro x id1 b1 tok1 id2 b2 tok2 h1 h2
  rcases hw.owns_after hid ho ht h1 with hold1 | ⟨rfl, rfl, hnew1⟩
  · rcases hw.owns_after hid ho ht h2 with hold2 | ⟨rfl, rfl, hnew2⟩
    · exact hap x id1 b1 tok1 id2 b2 tok2 hold1 hold2
    · obtain ⟨h, h', h''⟩ :=
        (hD tok2 x (hnew2.resolve_left fun h => h (hold1.has hw))).2 _ _ _ hold1
      exact ⟨h.symm, h'.symm, h''.symm⟩
  rcases hw.owns_after hid ho ht h2 with hold2 | ⟨rfl, rfl, hnew2⟩
  · exact (hD tok1 x (hnew1.resolve_left fun h => h (hold2.has hw))).2 _ _ _ hold2
  refine ⟨rfl, rfl, ?_⟩
  by_cases hhas : m.heap.metas.Has x
  · exact (hD tok1 x (hnew1.resolve_left fun h => h hhas)).1 tok2
      (hnew2.resolve_left fun h => h hhas)
  · exact ht.ownMeta_new hs (Memory.Owns.self hid ho h2) (Memory.Owns.self hid ho h1) hhas

end

theorem Memory.Quiet.owns (h : m.Quiet m') (hw : Accounts t m) (ho : m'.Owns t id a tok x) :
    m.Owns t id a tok x := by
  obtain ⟨p, _, hid, ho', q, ao, hpend, hao, hx⟩ := ho
  obtain ⟨o, hread, -, -, hsame⟩ := h.object' ho'
  have hq : o.pendingAsset a = some q := (hsame a).trans hpend
  rw [h.kept.assets.read_eq ((hw.sound hid hread).pending a q hq)] at hao
  exact ⟨p, o, hid, hread, q, ao, hq, hao, hx⟩

theorem Memory.Quiet.shown (h : m.Quiet m') (hw : Accounts t m) : m'.shown c t = m.shown c t := by
  funext id a
  unfold Memory.shown commitAssets
  rcases hid : t.objects.lookup id with _ | p
  · rfl
  obtain ⟨o, ho, -, hin⟩ := hw.objects id p hid
  obtain ⟨_, ho', -, -, hpend⟩ := h.object ho
  simp only [bind_some, ho, ho', hpend a]
  cases hq : o.pendingAsset a with
  | none => rfl
  | some q => exact h.viewAsset hw.separate (hin a q hq)

end

/-! ## 2. Calls on granted accounts -/

/-- At most the accounts in `G` show something else than in `m₀`. -/
def Memory.Only (c : Committed) (t : Transition) (G : Identifier → Prop) (m₀ m : Memory) : Prop :=
  ∀ id, ¬ G id → ∀ a, m.shown c t id a = m₀.shown c t id a

/-- A call on accounts in `G` has come from `m₀` to `m`, and nothing is shared. -/
structure Tidy (c : Committed) (t : Transition) (G : Identifier → Prop) (m₀ m : Memory) : Prop where
  accounts : Accounts t m
  apart : m.Apart t
  only : Memory.Only c t G m₀ m

section

variable {B : Backend} {c : Committed} {t : Transition} {base L : Ledger} {G : Identifier → Prop}
  {m₀ m m' : Memory} {id beneficiaryID : Identifier} {p : Ptr Object} {o : Object} {a : AssetID}
  {tok : TokenID} {V : Ptr Int → Prop} {D : TokenID × Ptr MetaData → Prop} {s : Receiver}

theorem Tidy.start (hw : Accounts t m) (hap : m.Apart t) : Tidy c t G m m :=
  ⟨hw, hap, fun _ _ _ => rfl⟩

/-- The books are whatever memory shows. -/
theorem Accounts.books (B : Backend) (base : Ledger) (hw : Accounts t m) :
    At B t base (m.ledger B t base) m := ⟨hw, rfl⟩

section

variable (h : Tidy c t G m₀ m)
include h

theorem Tidy.same (hs : Same B t base L m m') : Tidy c t G m₀ m' := by
  refine ⟨hs.books.world, fun x id a tok id' a' tok' h1 h2 => ?_, fun id hid a => ?_⟩
  · exact h.apart x id a tok id' a' tok' (hs.quiet.owns h.accounts h1) (hs.quiet.owns h.accounts h2)
  · rw [hs.quiet.shown h.accounts]
    exact h.only id hid a

section

variable (hG : G id) (hid : t.objects.lookup id = some p)
include hG hid

theorem Tidy.only_after (ho : m.objects.read p = some o) (ht : Touched a V D ⟨o, m.heap⟩ s) :
    Memory.Only c t G m₀ (m.after p s) := by
  intro id' hid' b
  have hne : id' ≠ id := fun he => hid' (he ▸ hG)
  rw [h.accounts.view_after h.apart hid ho ht hne b]
  exact h.only id' hid' b

/-- **A method that stores no metadata**, on a granted account. -/
theorem Tidy.after (ho : m.objects.read p = some o) (ht : Touched a V Nowhere ⟨o, m.heap⟩ s) :
    Tidy c t G m₀ (m.after p s) :=
  ⟨h.accounts.after hid ho (ht.follows (h.accounts.sound hid ho)),
    h.accounts.apart_after h.apart hid ho ht fun _ _ hD => hD.elim, h.only_after hG hid ho ht⟩

/-- A call of such a method, whatever it returns. -/
theorem Tidy.call {A : Type} {x : Method A} (a : AssetID)
    (hx : ∀ s : Receiver, s.Sound → s.heap = m.heap → leaves x
      (fun s' => ∃ V, Touched a V Nowhere s s') s) :
    Ends (Tidy c t G m₀) (Tidy c t G m₀) (Memory.call p x) m := by
  obtain ⟨o, ho, -, -⟩ := h.accounts.objects id p hid
  unfold Ends
  rw [Memory.wp_call ho]
  exact wp_mono (hx ⟨o, m.heap⟩ (h.accounts.sound hid ho) rfl)
    (fun _ _ ⟨_, ht⟩ => h.after hG hid ho ht) fun _ ⟨_, ht⟩ => h.after hG hid ho ht

end

end

end

/-! ## 3. Hand-overs -/

/-- What was taken with its metadata. If `K` holds, nobody leads to them but the beneficiary. -/
structure Handed (c : Committed) (t : Transition) (G : Identifier → Prop) (m₀ : Memory) (K : Prop)
    (beneficiaryID : Identifier) (a : AssetID) (tok : TokenID) (v : Ptr Int) (n : Int)
    (r : Except Err (Option (Ptr MetaData))) (m : Memory) : Prop where
  tidy : Tidy c t G m₀ m
  carries : ∀ metadata, r = .ok metadata → m.heap.Carries v n
  has : ∀ x, r = .ok (some x) → m.heap.metas.Has x
  owner : ∀ x, r = .ok (some x) → K → ∀ id b tok', m.Owns t id b tok' x →
    id = beneficiaryID ∧ b = a ∧ tok' = tok

/-- A method that takes from what the account holds. -/
abbrev Takes (B : Backend) (a : AssetID) (tok : TokenID) (f : Holding → Holding)
    (x : Method (Except Err (Option (Ptr MetaData)))) (s : Receiver) : Prop :=
  wp x
    (fun r s' => (∀ e, r = .error e → Touched a Nowhere Nowhere s s') ∧
      ∀ metadata, r = .ok metadata → (∀ x, metadata = some x → HandsOut B a tok s s' x) ∧
        Done B a Nowhere Nowhere s (f (s.holding B a)) s')
    (fun s' => Touched a Nowhere Nowhere s s') s

section

variable {B : Backend} {c : Committed} {t : Transition} {G : Identifier → Prop} {m₀ m : Memory}
  {K : Prop} {id beneficiaryID : Identifier} {p : Ptr Object} {o : Object} {a : AssetID}
  {tok : TokenID} {v : Ptr Int} {n : Int} {s : Receiver} {x : Ptr MetaData}

theorem subBalance_takes (hs : s.Sound) (hv : s.heap.Carries v n) :
    Takes B a tok (·.take (.balance tok) n) (Object.subBalance B a tok v) s :=
  wp_total (subBalance_spec hs hv)
    fun _ _ h => ⟨fun e he => (h.1 e he).2.touched, fun metadata hr =>
      ⟨(h.2 metadata hr).1, (h.2 metadata hr).2.2⟩⟩

theorem releaseLockup_takes {operatorID : Identifier} (hs : s.Sound) (hv : s.heap.Carries v n) :
    Takes B a tok (·.take (.lockup operatorID tok) n)
      (Object.releaseLockup B a tok operatorID v) s :=
  wp_post (releaseLockup_spec hs hv)
    fun _ _ h => ⟨fun e he => (h.1 e he).touched, fun metadata hr =>
      ⟨(h.2 metadata hr).1, (h.2 metadata hr).2.2⟩⟩

/-- **Who leads to metadata that were handed out**: the account they come from. -/
theorem Tidy.handsOut_owner (h : Tidy c t G m₀ m) (hid : t.objects.lookup id = some p)
    (ho : m.objects.read p = some o) (ht : Touched a Nowhere Nowhere ⟨o, m.heap⟩ s)
    (hout : HandsOut B a tok ⟨o, m.heap⟩ s x) {id' : Identifier} {b : AssetID} {tok' : TokenID}
    (hown : (m.after p s).Owns t id' b tok' x) : id' = id ∧ b = a ∧ tok' = tok := by
  rcases h.accounts.owns_after hid ho ht hown with hold | ⟨rfl, rfl, hnew⟩
  · rcases hout.own with hself | hnew
    · exact h.apart x id a tok id' b tok' ⟨p, o, hid, ho, hself⟩ hold
    · exact absurd (hold.has h.accounts) hnew
  · exact ⟨rfl, rfl, hout.label (hnew.resolve_right fun h => h) tok' (Memory.Owns.self hid ho hown)⟩

/-- **The taking**: the condition is that payer and beneficiary are the same, that there are no
    metadata, or that nothing of the token is left. -/
theorem Tidy.takes {f : Holding → Holding} {x : Method (Except Err (Option (Ptr MetaData)))}
    (h : Tidy c t G m₀ m) (hG : G id) (hid : t.objects.lookup id = some p)
    (ho : m.objects.read p = some o) (hv : m.heap.Carries v n)
    (hx : (⟨o, m.heap⟩ : Receiver).Sound → Takes B a tok f x ⟨o, m.heap⟩)
    (hK : K → id = beneficiaryID ∨
      (assetView B ⟨o, m.heap⟩ a).bind (·.tokenMetaData.lookup tok) = none ∨
      (f (holding B ⟨o, m.heap⟩ a)).Without tok) :
    wp (Memory.call p x) (Handed c t G m₀ K beneficiaryID a tok v n) (Tidy c t G m₀) m := by
  rw [Memory.wp_call ho]
  refine wp_mono (hx (h.accounts.sound hid ho)) (fun r s hr => ?_) fun s ht =>
    h.after hG hid ho ht
  rcases r with e | metadata
  · exact ⟨h.after hG hid ho (hr.1 e rfl), nofun, nofun,
      nofun⟩
  obtain ⟨hout, hdone⟩ := hr.2 metadata rfl
  refine ⟨h.after hG hid ho hdone.touched, fun _ _ => hdone.carries hv fun h => h,
    fun y hy => ?_, fun y hy hk id' b tok' hown => ?_⟩
  · cases hy
    exact (hout y rfl).has
  cases hy
  have hy := hout y rfl
  obtain ⟨rfl, rfl, rfl⟩ := h.handsOut_owner hid ho hdone.touched hy hown
  rcases hK hk with hsame | hnone | hwithout
  · exact ⟨hsame, rfl, rfl⟩
  · exact absurd hnone hy.seen
  · refine absurd (Memory.Owns.self hid ho hown) (hy.gone ?_)
    rw [hdone.holding]
    exact hwithout

/-- **The crediting.** -/
theorem creditTo_frame {X : EngineEnv} {take : Engine (Except Err (Option (Ptr MetaData)))}
    (hG : G id) (hid : t.objects.lookup id = some p)
    (htake : wp take (Handed c t G m₀ K id a tok v n) (Tidy c t G m₀) m) :
    Ends (fun m' => Memory.Only c t G m₀ m' ∧ (K → m'.Apart t)) (Memory.Only c t G m₀)
      (Engine.creditTo X p a tok v take) m := by
  unfold Ends Engine.creditTo
  rw [wp_bind]
  refine wp_mono htake (fun r m1 h => ?_) fun _ h => h.only
  rcases r with _ | metadata
  · exact ⟨h.tidy.only, fun _ => h.tidy.apart⟩
  obtain ⟨o, ho, -, -⟩ := h.tidy.accounts.objects id p hid
  rw [Memory.wp_call ho]
  have hs := h.tidy.accounts.sound hid ho
  refine wp_total (addBalance_spec hs (h.carries metadata rfl) fun x hx => h.has x (hx ▸ rfl))
    fun r s hr => ?_
  refine ⟨h.tidy.only_after hG hid ho hr.2.touched, fun hk => ?_⟩
  refine h.tidy.accounts.apart_after h.tidy.apart hid ho hr.2.touched fun tok1 x hx => ?_
  obtain ⟨rfl, hx⟩ := hx
  exact ⟨fun tok' h => h.1, h.owner x (hx ▸ rfl) hk⟩

end

/-! ## 4. Calls -/

/-- The access map grants the account a mutate lock. -/
def Granted (access : Access) (id : Identifier) : Prop := access.lookup id = some mutateLock.val

/-- The accounts that a call may change: for a call on an existing asset those for which it was
    given a mutate lock. -/
def EngineOp.grants : EngineOp → Identifier → Prop
  | .createAsset _ _ => fun _ => True
  | .transfer _ _ _ _ _ _ access => Granted access
  | .mint _ _ _ _ _ _ access => Granted access
  | .burn _ _ _ _ access => Granted access
  | .approve _ _ _ _ _ _ access => Granted access
  | .revoke _ _ _ _ access => Granted access
  | .lockup _ _ _ _ _ access => Granted access
  | .release _ _ _ _ _ _ access => Granted access
  | .setMetaData _ _ _ _ _ access => Granted access
  | .setTokenMetaData _ _ _ _ _ _ access => Granted access

/-- A hand-over that leaves the payer without metadata that go along: payer and beneficiary are the
    same, there are none, or the payer gives away all of the token. -/
def Committed.HandsOver (c : Committed) (payer beneficiary : Identifier) (a : AssetID)
    (tok : TokenID) (all : Holding → Prop) : Prop :=
  payer = beneficiary ∨ (c payer a).bind (·.tokenMetaData.lookup tok) = none ∨
    all (c.ledger payer a)

/-- The calls after which nothing is shared, on what is observable before. -/
def EngineOp.Unshared (c : Committed) : EngineOp → Prop
  | .transfer a tok operatorID benefactorID beneficiaryID value _ =>
    c.HandsOver (if benefactorID = nilIdentifier then operatorID else benefactorID) beneficiaryID a
      tok fun H => H.amount (.balance tok) = some value ∧ ∀ id, H.amount (.lockup id tok) = none
  | .release a tok operatorID benefactorID beneficiaryID value _ =>
    c.HandsOver benefactorID beneficiaryID a tok fun H =>
      H.amount (.lockup operatorID tok) = some value ∧ H.amount (.balance tok) = none ∧
        ∀ id, id ≠ operatorID → H.amount (.lockup id tok) = none
  | _ => True

/-- A call changes at most the accounts it may change, and keeps `m.Apart` if `K` holds. -/
abbrev Frames {A : Type} (c : Committed) (t : Transition) (G : Identifier → Prop) (K : Prop)
    (m₀ : Memory) (x : Engine A) (m : Memory) : Prop :=
  Ends (fun m' => Memory.Only c t G m₀ m' ∧ (K → m'.Apart t)) (Memory.Only c t G m₀) x m

section

open Engine

variable {X : EngineEnv} {c : Committed} {t : Transition} {base L : Ledger} {G : Identifier → Prop}
  {K : Prop} {m₀ m : Memory} {fuel : UInt64}
  {id benefactorID beneficiaryID participantID operatorID : Identifier}
  {x : Method (Except Err Unit)} {p : Ptr Object} {entries : List (Bytes × Bytes)}

theorem granted_of_access {access : Access} {ids : List Identifier}
    (h : hasMutateAccess access ids = true) (hid : id ∈ ids) : Granted access id := by
  show access.lookup id = some mutateLock.val
  exact of_decide_eq_true (List.all_eq_true.mp h id hid)

theorem Tidy.frames {A : Type} {x : Engine A} (h : Ends (Tidy c t G m₀) (Tidy c t G m₀) x m) :
    Frames c t G K m₀ x m :=
  wp_mono h (fun _ _ h => ⟨h.only, fun _ => h.apart⟩) fun _ h => h.only

theorem withObject_frames {k : Ptr Object → Engine Outcome} (h : Tidy c t G m₀ m)
    (hk : ∀ p, t.objects.lookup id = some p → Frames c t G K m₀ (k p) m) :
    Frames c t G K m₀ (withObject t fuel id k) m :=
  withObject_ends ⟨h.only, fun _ => h.apart⟩ hk

theorem checked_frames {B : Backend} {check : Engine (Option Err)} {k : Engine Outcome} {P : Prop}
    (h : Tidy c t G m₀ m) (hcheck : Calm B t base L (fun r _ => r = none → P) check m)
    (hk : P → ∀ m', Same B t base L m m' → Tidy c t G m₀ m' → Frames c t G K m₀ k m') :
    Frames c t G K m₀ (checked fuel check k) m :=
  checked_ends hcheck (fun _ hs => ⟨(h.same hs).only, fun _ => (h.same hs).apart⟩)
    (fun _ hs => (h.same hs).only) fun hP m' hs => hk hP m' hs (h.same hs)

theorem errorOnly_tidy (h : Tidy c t G m₀ m) (hG : G id) (hid : t.objects.lookup id = some p)
    (a : AssetID) (hx : ∀ s : Receiver, s.Sound → s.heap = m.heap → leaves x
      (fun s' => ∃ V, Touched a V Nowhere s s') s) :
    Ends (Tidy c t G m₀) (Tidy c t G m₀) (errorOnly (Memory.call p x)) m := by
  refine wp_seq (h.call hG hid a hx) fun r m' h => ?_
  cases r <;> exact h

/-- A method, by its two outcomes. -/
theorem touched_of {a : AssetID} {Q : Except Err Unit → Receiver → Prop} {R : Receiver → Prop}
    {s : Receiver} (hx : wp x Q R s)
    (herror : ∀ e s', Q (.error e) s' → ∃ V, Touched a V Nowhere s s')
    (hok : ∀ s', Q (.ok ()) s' → ∃ V, Touched a V Nowhere s s')
    (hR : ∀ s', R s' → Touched a Nowhere Nowhere s s') :
    leaves x (fun s' => ∃ V, Touched a V Nowhere s s') s := by
  refine wp_mono hx (fun r s' h => ?_) fun s' h => ⟨Nowhere, hR s' h⟩
  cases r with
  | error e => exact herror e s' h
  | ok u => exact hok s' h

variable {a : AssetID} {tok : TokenID} {n : Int} {v : Ptr Int} {access : Access}

section

variable (h : Tidy c t (Granted access) m₀ m)
include h

theorem approve_frames {expiresAt : UInt64} (hv : m.heap.Carries v n) :
    Frames c t (Granted access) K m₀
      (approve (X.on c) t a tok benefactorID beneficiaryID v expiresAt access) m := by
  refine amount_ends hv (withObject_frames h fun benefactor hfac => ?_)
  refine checked_frames h (validateAssetApprove_calm (h.accounts.books _ c.ledger) hfac)
    fun hP m1 hsame h1 => finish_ends (Tidy.frames ?_)
  refine errorOnly_tidy h1 (granted_of_access hP.1 (by simp)) hfac a fun s hs hheap => ?_
  refine touched_of (createMandate_spec hs (hheap ▸ hsame.carries v n hv))
    (fun e _ h => ⟨_, (h.1 e rfl).touched⟩) (fun _ h => ?_) fun _ h => h.elim
  obtain ⟨H, -, hdone⟩ := h.2 rfl
  exact ⟨_, hdone.touched⟩

theorem revoke_frames :
    Frames c t (Granted access) K m₀
      (revoke (X.on c) t a tok benefactorID beneficiaryID access) m := by
  refine withObject_frames h fun benefactor hfac => ?_
  refine checked_frames h (validateAssetRevoke_calm (h.accounts.books _ c.ledger) hfac)
    fun hP m1 hsame h1 => finish_ends (Tidy.frames ?_)
  refine errorOnly_tidy h1 (granted_of_access hP (by simp)) hfac a fun s hs _ => ?_
  exact touched_of (deleteMandate_spec hs) (fun e _ h => ⟨_, (h.1 e rfl).touched⟩)
    (fun _ h => ⟨_, (h.2 rfl).touched⟩) fun _ h => h.elim

theorem lockup_frames (hv : m.heap.Carries v n) :
    Frames c t (Granted access) K m₀
      (lockup (X.on c) t a tok benefactorID beneficiaryID v access) m := by
  refine amount_ends hv (withObject_frames h fun benefactor hfac => ?_)
  refine checked_frames h (validateAssetLockup_calm (h.accounts.books _ c.ledger) hfac)
    fun hP m1 hsame h1 => finish_ends (Tidy.frames ?_)
  refine errorOnly_tidy h1 (granted_of_access hP.1 (by simp)) hfac a fun s hs hheap => ?_
  exact touched_of (createLockup_spec hs (hheap ▸ hsame.carries v n hv))
    (fun e _ h => ⟨_, (h.1 e rfl).touched⟩) (fun _ h => ⟨_, (h.2 rfl).touched⟩) fun _ h => h

variable {isStatic : Bool}

theorem setMetaData_frames {key val : Bytes} :
    Frames c t (Granted access) K m₀
      (setMetaData (X.on c) t isStatic a participantID key val access) m := by
  refine withObject_frames h fun object hacc => ?_
  refine checked_frames h (validateSetMetaData_calm (h.accounts.books _ c.ledger) hacc)
    fun hP m1 hsame h1 => finish_ends (Tidy.frames ?_)
  refine errorOnly_tidy h1 (granted_of_access hP (by simp)) hacc a fun s hs _ => ?_
  exact wp_mono (setAssetMetadata_spec hs) (fun _ _ h => ⟨_, h.touched⟩) fun _ h => ⟨_, h.touched⟩

theorem setTokenMetaData_tidy {key val : Bytes} :
    Ends (Tidy c t (Granted access) m₀) (Tidy c t (Granted access) m₀)
      (setTokenMetaData (X.on c) t isStatic a participantID tok key val access) m := by
  unfold setTokenMetaData
  by_cases hacc : hasMutateAccess access [participantID] = true
  case neg =>
    rw [if_neg hacc]
    exact h
  rw [if_pos hacc]
  rcases hid : t.objects.lookup participantID with _ | p
  · exact h
  refine errorOnly_tidy h (granted_of_access hacc (by simp)) hid a fun s hs _ => ?_
  exact wp_mono (setTokenMetadata_spec hs) (fun _ _ h => ⟨_, h.touched⟩)
    fun _ h => ⟨_, h.touched⟩

theorem setAllTokenMetaData_tidy :
    Ends (Tidy c t (Granted access) m₀) (Tidy c t (Granted access) m₀)
      (setAllTokenMetaData (X.on c) t a participantID tok access entries) m := by
  induction entries generalizing m with
  | nil => exact h
  | cons e rest ih =>
    refine wp_seq (setTokenMetaData_tidy h) fun r m' h' => ?_
    cases r with
    | some err => exact h'
    | none => exact ih h'

end

/-- `addBalance` without metadata. -/
theorem addBalance_tidy (h : Tidy c t G m₀ m) (hG : G id) (hid : t.objects.lookup id = some p)
    (hv : m.heap.Carries v n) :
    Ends (Tidy c t G m₀) (Tidy c t G m₀)
      (Memory.call p (Object.addBalance X.backend a tok v none)) m := by
  refine h.call hG hid a fun s hs hheap => ?_
  refine wp_total (addBalance_spec hs (hheap ▸ hv) nofun) fun _ _ h => ?_
  rcases h.2.touched with hidle | ⟨q, hw⟩
  · exact ⟨Nowhere, .inl hidle⟩
  · exact ⟨_, .inr ⟨q, hw.mono (fun _ h => h) fun _ h => (by cases h.2)⟩⟩

section

variable (h : Tidy c t (Granted access) m₀ m) (hv : m.heap.Carries v n)
include h hv

theorem mint_frames {senderID : Identifier} :
    Frames c t (Granted access) K m₀
      (mint (X.on c) t a tok senderID beneficiaryID v entries access) m := by
  refine amount_ends hv ?_
  refine withObject_frames h fun beneficiary hben => withObject_frames h fun assetacc hacc => ?_
  refine checked_frames h (validateAssetMint_calm (h.accounts.books _ c.ledger) hacc)
    fun hP m1 hsame h1 => Tidy.frames ?_
  have hv1 := hsame.carries v n hv
  have hchange : Ends (Tidy c t (Granted access) m₀) (Tidy c t (Granted access) m₀)
      (mintAsset (X.on c) beneficiary assetacc a tok v) m1 := by
    obtain ⟨o, ho, -, -⟩ := h1.accounts.objects a assetacc hacc
    unfold Ends mintAsset
    rw [wp_bind, Memory.wp_call ho]
    have hG : Granted access a := granted_of_access hP.1 (by simp)
    refine wp_mono (mintAsset_spec (h1.accounts.sound hacc ho) hv1) (fun r s hr => ?_)
      fun s ht => h1.after hG hacc ho ht
    rcases r with e | u
    · exact h1.after hG hacc ho (hr.1 e rfl).touched
    have hdone : ∃ H, Done (X.on c).backend a Nowhere Nowhere ⟨o, m1.heap⟩ H s := by
      by_cases hpend : o.pendingAsset a = none
      · exact ⟨_, (hr.2 rfl).1 hpend⟩
      · exact ⟨_, (hr.2 rfl).2 hpend⟩
    obtain ⟨H, hdone⟩ := hdone
    exact addBalance_tidy (h1.after hG hacc ho hdone.touched)
      (granted_of_access hP.1 (by simp)) hben (hdone.carries hv1 fun h => h)
  refine wp_seq hchange fun r m2 h2 => ?_
  cases r with
  | some err => exact h2
  | none => exact finish_ends (setAllTokenMetaData_tidy h2)

theorem burn_frames :
    Frames c t (Granted access) K m₀ (burn (X.on c) t a tok benefactorID v access) m := by
  refine amount_ends hv ?_
  refine withObject_frames h fun benefactor hfac => withObject_frames h fun assetacc hacc => ?_
  refine checked_frames h (validateAssetBurn_calm (h.accounts.books _ c.ledger) hfac hacc)
    fun hP m1 hsame h1 => finish_ends (Tidy.frames ?_)
  have hv1 := hsame.carries v n hv
  obtain ⟨o, ho, -, -⟩ := h1.accounts.objects benefactorID benefactor hfac
  have hG : Granted access benefactorID := granted_of_access hP.1 (by simp)
  unfold Ends burnAsset
  rw [wp_bind, Memory.wp_call ho]
  refine wp_total (subBalance_spec (h1.accounts.sound hfac ho) hv1) fun r s hr => ?_
  rcases r with e | metadata
  · exact h1.after hG hfac ho (hr.1 e rfl).2.touched
  obtain ⟨-, -, hdone⟩ := hr.2 metadata rfl
  have hv2 : (m1.after benefactor s).heap.Carries v n := hdone.carries hv1 fun h => h
  refine errorOnly_tidy (h1.after hG hfac ho hdone.touched) (granted_of_access hP.1 (by simp)) hacc
    a fun s' hs' hheap => ?_
  exact touched_of (burnAsset_spec hs' (hheap ▸ hv2))
    (fun e _ h => ⟨_, (h.1 e rfl).2⟩) (fun _ h => ⟨_, (h.2 rfl).touched⟩) fun _ h => h

end

variable {o : Object}

section

variable (hw : Accounts t m) (hid : t.objects.lookup id = some p) (ho : m.objects.read p = some o)
include hw hid ho

/-- An object shows what is observable of its account. -/
theorem Accounts.assetView_eq (a : AssetID) :
    assetView (X.on c).backend ⟨o, m.heap⟩ a = m.shown c t id a := by
  obtain ⟨_, ho', rfl, -⟩ := hw.objects id p hid
  obtain rfl := mem_unique ho ho'
  simp only [Memory.shown, commitAssets, hid, bind_some, ho]
  rcases hq : o.pendingAsset a with _ | q
  · exact assetView_on hq
  unfold assetView
  rw [hq]

theorem Accounts.holding_eq (a : AssetID) :
    holding (X.on c).backend ⟨o, m.heap⟩ a = (m.shown c t).ledger id a := by
  unfold holding Committed.ledger
  rw [hw.assetView_eq hid ho]

end

variable {H : Holding}

/-- Without the token if all of it is taken. -/
theorem Holding.without_take (hb : H.amount (.balance tok) = some n)
    (hl : ∀ id, H.amount (.lockup id tok) = none) : (H.take (.balance tok) n).Without tok := by
  refine ⟨?_, fun id => ?_⟩
  · simp [take, hb]
  · rw [take, amount_update_of_ne (by simp)]
    exact hl id

theorem Holding.without_release (hn : H.amount (.lockup operatorID tok) = some n)
    (hb : H.amount (.balance tok) = none)
    (hl : ∀ id, id ≠ operatorID → H.amount (.lockup id tok) = none) :
    (H.take (.lockup operatorID tok) n).Without tok := by
  refine ⟨?_, fun id => ?_⟩
  · rw [take, amount_update_of_ne (by simp)]
    exact hb
  by_cases hid : id = operatorID
  · subst hid
    simp [take, hn]
  · rw [take, amount_update_of_ne (by simpa using hid)]
    exact hl id hid

theorem release_frames (h : Tidy c t (Granted access) m₀ m) (hv : m.heap.Carries v n) :
    Frames c t (Granted access)
      (EngineOp.Unshared (m.shown c t)
        (.release a tok operatorID benefactorID beneficiaryID n access)) m₀
      (release (X.on c) t a tok operatorID benefactorID beneficiaryID v access) m := by
  refine amount_ends hv ?_
  refine withObject_frames h fun benefactor hfac => withObject_frames h fun beneficiary hben => ?_
  refine checked_frames h (validateAssetRelease_calm (h.accounts.books _ c.ledger) hfac)
    fun hP m1 hsame h1 => ?_
  obtain ⟨o, ho, -, -⟩ := h1.accounts.objects benefactorID benefactor hfac
  have hv1 := hsame.carries v n hv
  have htake : wp (Memory.call benefactor
      (Object.releaseLockup (X.on c).backend a tok operatorID v))
      (Handed c t (Granted access) m₀ (EngineOp.Unshared (m.shown c t)
        (.release a tok operatorID benefactorID beneficiaryID n access)) beneficiaryID a tok v n)
      (Tidy c t (Granted access) m₀) m1 := by
    refine h1.takes (granted_of_access hP.1 (by simp)) hfac ho hv1
      (fun hs => releaseLockup_takes hs hv1) fun hK => ?_
    rw [h1.accounts.assetView_eq hfac ho, h1.accounts.holding_eq hfac ho,
      hsame.quiet.shown h.accounts]
    rcases hK with hsame | hnone | ⟨hn, hb, hl⟩
    · exact .inl hsame
    · exact .inr (.inl hnone)
    · exact .inr (.inr (without_release hn hb hl))
  have hcredit := creditTo_frame (X := X.on c) (granted_of_access hP.1 (by simp)) hben htake
  refine wp_seq hcredit fun r m2 h => ?_
  cases r <;> exact h

/-- `consumeMandate`: the mandate, then the balance. -/
theorem consumeMandate_handed {benefactor : Ptr Object} (h : Tidy c t G m₀ m) (hG : G benefactorID)
    (hid : t.objects.lookup benefactorID = some benefactor) (hv : m.heap.Carries v n)
    (hK : K → (m.shown c t).HandsOver benefactorID beneficiaryID a tok fun H =>
      H.amount (.balance tok) = some n ∧ ∀ id, H.amount (.lockup id tok) = none) :
    wp (Memory.call benefactor (Object.consumeMandate (X.on c).backend a tok operatorID v))
      (Handed c t G m₀ K beneficiaryID a tok v n) (Tidy c t G m₀) m := by
  obtain ⟨o, ho, -, -⟩ := h.accounts.objects benefactorID benefactor hid
  refine Memory.wp_call_bind ho ?_
  rw [Memory.wp_call ho]
  refine wp_total (subMandateBalance_spec (h.accounts.sound hid ho) hv) fun r s hr => ?_
  have hread : (m.after benefactor s).objects.read benefactor = some s.object := by
    rw [Memory.read_after benefactor ho, if_pos rfl]
  show wp _ _ _ (m.after benefactor s)
  rcases r with e | u
  · have h' := h.after hG hid ho (hr.1 e rfl).touched
    rw [Memory.wp_call hread]
    refine ⟨?_, nofun, nofun, nofun⟩
    exact h'.after (a := a) (V := Nowhere) hG hid hread (.inl ⟨rfl, .refl h'.accounts.separate⟩)
  obtain ⟨-, hmeta, hdone⟩ := hr.2 rfl
  refine (h.after hG hid ho hdone.touched).takes hG hid hread (hdone.carries hv fun h => h)
    (fun hs => subBalance_takes hs (hdone.carries hv fun h => h)) fun hk => ?_
  show _ ∨ (assetView _ s a).bind _ = none ∨
    ((holding (X.on c).backend s a).take (.balance tok) n).Without tok
  rw [hdone.holding, h.accounts.holding_eq hid ho]
  rcases hK hk with hsame | hnone | ⟨hb, hl⟩
  · exact .inl hsame
  · refine .inr (.inl ?_)
    -- the mandate is taken without a change to the metadata
    have hbind : ∀ v : Option AssetData, v.bind (·.tokenMetaData.lookup tok) =
        (v.map (·.tokenMetaData)).bind (·.lookup tok) := fun v => by cases v <;> rfl
    rw [hbind, hmeta, ← hbind, h.accounts.assetView_eq hid ho]
    exact hnone
  · refine .inr (.inr (without_take ?_ fun id => ?_))
    · rw [take, amount_update_of_ne (by simp)]
      exact hb
    · rw [take, amount_update_of_ne (by simp)]
      exact hl id

theorem transfer_frames {now : UInt64} (h : Tidy c t (Granted access) m₀ m)
    (hv : m.heap.Carries v n) :
    Frames c t (Granted access)
      (EngineOp.Unshared (m.shown c t)
        (.transfer a tok operatorID benefactorID beneficiaryID n access)) m₀
      (transfer (X.on c) t now a tok operatorID benefactorID beneficiaryID v access) m := by
  refine amount_ends hv ?_
  refine withObject_frames h fun operator hop => withObject_frames h fun beneficiary hben => ?_
  rcases sargaObject (X.on c) t with _ | _
  · exact ⟨h.only, fun _ => h.apart⟩
  unfold EngineOp.Unshared
  by_cases hnil : benefactorID = nilIdentifier
  · simp only [if_pos hnil]
    refine checked_frames h (validateAssetTransfer_calm (h.accounts.books _ c.ledger) hop hben)
      fun hP m1 hsame h1 => finish_ends ?_
    obtain ⟨o, ho, -, -⟩ := h1.accounts.objects operatorID operator hop
    have hv1 := hsame.carries v n hv
    refine creditTo_frame (n := n) (granted_of_access hP.1 (by simp)) hben ?_
    refine h1.takes (granted_of_access hP.1 (by simp)) hop ho hv1
      (fun hs => subBalance_takes hs hv1) fun hK => ?_
    rw [h1.accounts.assetView_eq hop ho, h1.accounts.holding_eq hop ho,
      hsame.quiet.shown h.accounts]
    exact hK.imp_right (Or.imp_right fun hall => without_take hall.1 hall.2)
  · simp only [if_neg hnil]
    refine withObject_frames h fun benefactor hfac => ?_
    refine checked_frames h (validateAssetConsume_calm (h.accounts.books _ c.ledger) hben hfac)
      fun hP m1 hsame h1 => finish_ends ?_
    refine creditTo_frame (n := n) (granted_of_access hP.1 (by simp)) hben ?_
    refine consumeMandate_handed h1 (granted_of_access hP.1 (by simp)) hfac
      (hsame.carries v n hv) fun hK => ?_
    rw [hsame.quiet.shown h.accounts]
    exact hK

/-- `CreateAsset`, which may change whatever it wants. -/
theorem createAsset_frames {ixHash : Hash} {descriptor : AssetDescriptor}
    (h : Tidy c t (fun _ => True) m₀ m) :
    Frames c t (fun _ => True) K m₀ (createAsset (X.on c) t ixHash descriptor) m := by
  refine withObject_frames h fun sender _ => withObject_frames h fun assetacc hacc => ?_
  have hregister : Ends (Tidy c t (fun _ => True) m₀) (Tidy c t (fun _ => True) m₀)
      (registerAsset (X.on c) sender assetacc { descriptor with circulatingSupply := 0 }) m := by
    unfold Ends registerAsset
    rw [wp_bind]
    obtain ⟨o, ho, -, -⟩ := h.accounts.objects descriptor.assetID assetacc hacc
    rw [Memory.wp_call ho]
    refine wp_total (createAsset_spec (h.accounts.sound hacc ho)) fun r s hr => ?_
    rcases r with _ | err
    swap
    · exact h.after trivial hacc ho (hr.1 err rfl).touched
    have h1 := h.after trivial hacc ho (hr.2 rfl).2.touched
    have hdeeds : Outside (Object.createDeedsEntry (X.on c).backend descriptor.assetID) :=
      Object.fixes_createDeedsEntry (fun _ _ => rfl) _
    exact wp_mono (Calm.outside (p := sender)
        (h1.accounts.books (X.on c).backend c.ledger) hdeeds)
      (fun _ _ hs => h1.same hs.1) fun _ hs => h1.same hs
  refine Tidy.frames ?_
  refine wp_seq hregister fun r m1 h1 => ?_
  rcases r with _ | err
  swap
  · exact h1
  simp only [finish, wp_bind]
  refine wp_mono (identifier_calm (h1.accounts.books (X.on c).backend c.ledger) hacc)
    (fun id m2 hs2 => ?_) fun _ hs => h1.same hs
  exact wp_mono (addNewAccountsToSargaAccount_calm hs2.1.books)
    (fun _ _ hs3 => (h1.same hs2.1).same hs3.1) fun _ hs3 => (h1.same hs2.1).same hs3

/-- **A call changes at most the accounts it may change**, and shares nothing if it is
    `Unshared`. -/
theorem EngineOp.frame (op : EngineOp) (now : UInt64) (hw : Accounts t m) (hap : m.Apart t) :
    Frames c t op.grants (op.Unshared (m.shown c t)) m (op.run (X.on c) now t) m := by
  have h : ∀ G, Tidy c t G m m := fun G => .start hw hap
  have hat := hw.books (X.on c).backend c.ledger
  cases op with
  | createAsset ixHash descriptor => exact createAsset_frames (h _)
  | transfer a tok operatorID benefactorID beneficiaryID value access =>
    refine newAmount_ends hat fun v m' hs hv => ?_
    rw [← hs.quiet.shown hw]
    exact transfer_frames ((h _).same hs) hv
  | mint a tok senderID beneficiaryID value entries access =>
    exact newAmount_ends hat fun v m' hs hv => mint_frames ((h _).same hs) hv
  | burn a tok benefactorID value access =>
    exact newAmount_ends hat fun v m' hs hv => burn_frames ((h _).same hs) hv
  | approve a tok benefactorID beneficiaryID value expiresAt access =>
    exact newAmount_ends hat fun v m' hs hv => approve_frames ((h _).same hs) hv
  | revoke a tok benefactorID beneficiaryID access => exact revoke_frames (h _)
  | lockup a tok benefactorID beneficiaryID value access =>
    exact newAmount_ends hat fun v m' hs hv => lockup_frames ((h _).same hs) hv
  | release a tok operatorID benefactorID beneficiaryID value access =>
    refine newAmount_ends hat fun v m' hs hv => ?_
    rw [← hs.quiet.shown hw]
    exact release_frames ((h _).same hs) hv
  | setMetaData isStatic a participantID key val access => exact setMetaData_frames (h _)
  | setTokenMetaData isStatic a participantID tok key val access =>
    exact finish_ends (Tidy.frames (setTokenMetaData_tidy (h _)))

end

/-! ## 5. Runs -/

/-- A call that leaves nothing shared. -/
def BankEvent.Unshared (b : Bank) : BankEvent → Prop
  | .call _ op => op.Unshared b.commitAssets
  | _ => True

section

variable {X : EngineEnv} {t : Transition} {m : Memory} {b b' : Bank} {es : List BankEvent}

theorem Unworked.apart (hf : Unworked t m) : m.Apart t := by
  intro x id a tok id' a' tok' h
  obtain ⟨p, o, hid, ho, q, _, hq, -⟩ := h
  obtain ⟨_, ho', -, htxn⟩ := hf.objects id p hid
  obtain rfl := mem_unique ho ho'
  rw [pendingAsset_of_none htxn a] at hq
  cases hq

/-- Nothing is shared along a run of such calls. -/
theorem Bank.run_apart (hb : b.Start) (h : Run (Guarded BankEvent.Unshared (step X)) b es b') :
    Accounts b'.transition b'.memory ∧ b'.memory.Apart b'.transition := by
  apply h.invariant
  · exact ⟨hb.fresh.world, hb.fresh.apart⟩
  intro _ s e s' hI hs
  cases e with
  | call now op =>
    have hw' := (call_books hI.1 hs.2).1
    obtain ⟨hun, r, m, hrun, rfl⟩ := hs
    exact ⟨hw', (wp_of_eq hrun (op.frame now hI.1 hI.2)).2 hun⟩
  | commit t m =>
    obtain ⟨-, hf, rfl⟩ := hs
    exact ⟨hf.world, hf.apart⟩
  | abandon t m =>
    obtain ⟨-, hf, rfl⟩ := hs
    exact ⟨hf.world, hf.apart⟩

/-- **A call changes what is observable of an account only if it was given a mutate lock for it**,
    whether it succeeds, fails or panics, in every state that calls lead to which leave nothing
    shared. -/
theorem Bank.changes_granted (X : EngineEnv) (hb : b.Start)
    (h : Run (Guarded BankEvent.Unshared (step X)) b es b') (now : UInt64) (op : EngineOp)
    (id : Identifier) (hid : ¬ op.grants id) (a : AssetID) :
    commitAssets { b' with
        memory := (op.run (X.on b'.committed) now b'.transition b'.memory).2 } id a =
      b'.commitAssets id a := by
  obtain ⟨hw, hap⟩ := run_apart hb h
  have honly := wp_state.mp (wp_mono (op.frame (X := X) (c := b'.committed) now hw hap)
    (fun _ _ h => h.1) fun _ h => h)
  exact honly id hid a

end

/-! ## 6. A shared token -/

namespace FrameSample

open EngineSample BankSample

/-- Five tokens for the manager. -/
def minting (metadata : List (Bytes × Bytes)) : EngineOp :=
  .mint assetID defaultTokenID manager manager 5 metadata access

/-- The manager gives the operator two of them. -/
def giving : EngineOp := .transfer assetID defaultTokenID manager nilIdentifier operator 2 access

/-- The operator sets metadata of the token, with a lock for its own account alone. -/
def setting : EngineOp :=
  .setTokenMetaData false assetID operator defaultTokenID [2] [7] (AList.insert operator 0 ∅)

def minted (metadata : List (Bytes × Bytes)) : Bank := call (call start creating) (minting metadata)

def given (metadata : List (Bytes × Bytes)) : Bank := call (minted metadata) giving

theorem not_granted : ¬ setting.grants manager :=
  show AList.lookup manager (AList.insert operator 0 ∅ : Access) ≠ some mutateLock.val by decide

/-- Tokens without metadata: the manager's account stays as it is. -/
theorem setting_plain : (call (given []) setting).commitAssets manager assetID =
    (given []).commitAssets manager assetID := by
  have hrun : Run (Guarded BankEvent.Unshared (step X)) start
      [.call 0 creating, .call 0 (minting []), .call 0 giving] (given []) :=
    .snoc (.snoc (.snoc .start _ ⟨trivial, step_call (by decide +kernel)⟩) _
      ⟨trivial, step_call (by decide +kernel)⟩) _
      ⟨.inr (.inl (by decide +kernel)), step_call (by decide +kernel)⟩
  exact changes_granted X start_start hrun 0 setting manager not_granted assetID

/-- What is seen of the dynamic metadata of the token. -/
def dynamic (b : Bank) (id : Identifier) : Option Bytes :=
  (((b.commitAssets id assetID).bind (·.tokenMetaData.lookup defaultTokenID)).bind
    (·.dynamic)).bind (·.lookup [2])

/-- **Tokens with metadata**: the manager, for whom there is no lock, has other metadata than
    before. -/
theorem setting_shared : ∃ es, Run (step X) start es (given [([1], [1])]) ∧
    ¬ setting.grants manager ∧ (call (given [([1], [1])]) setting).commitAssets manager assetID ≠
      (given [([1], [1])]).commitAssets manager assetID := by
  refine ⟨[.call 0 creating, .call 0 (minting [([1], [1])]), .call 0 giving],
    .snoc (.snoc (.snoc .start _ (step_call (by decide +kernel))) _
      (step_call (by decide +kernel))) _
      (step_call (by decide +kernel)), not_granted, fun h => ?_⟩
  have hbefore : dynamic (given [([1], [1])]) manager = none := by decide +kernel
  have hafter : dynamic (call (given [([1], [1])]) setting) manager = some [7] := by decide +kernel
  rw [dynamic, h] at hafter
  rw [dynamic, hafter] at hbefore
  cases hbefore

end FrameSample

end GoMoi
