/-
  File:      GoMoi/State/AssetWork.lean
  Subject:   What a method on an asset does: to the account it is called on, and to no other.

  A method fetches an asset object, changes it and its amounts in place and puts it into the
  transaction. `Work` says how far that can reach: cells of the fetched object and new ones. It is
  kept by every write a method makes. Beside it goes what the fetched object shows (`Heap.holdOf`),
  a `Holding`, so that each method becomes a function on holdings.

  * `Receiver.assetView`, `Receiver.holding` -- what an account has of an asset: the pending object,
    else the committed one;
  * `Work` -- a method on asset `a`, called in `s₀`, has come to `s` with the object behind `q`. It
    may store an amount in `V` and metadata in `D` that it was given;
  * `Heap.Idle` -- nothing but asset objects that nobody points to, as decoding leaves them;
  * `Holding.take`, `Holding.credit`, `Holding.lock`, `Holding.issue` -- the effects.
-/
import GoMoi.Lib.Slices
import GoMoi.State.Purse

namespace GoMoi

open Cells Function AssetOf Option

/-! ## 1. Effects on a holding -/

namespace Holding

theorem amount_update_of_ne {H : Holding} {pl pl' : Purse} (h : pl' ≠ pl) (x : Option Int)
    (s : Option Supply) : amount ⟨Function.update H.amount pl x, s⟩ pl' = H.amount pl' :=
  update_of_ne h _ _

/-- Less at a place; nothing is kept there if nothing is left. -/
def take (H : Holding) (pl : Purse) (n : Int) : Holding :=
  ⟨Function.update H.amount pl
    (if (H.amount pl).getD 0 - n = 0 then none else some ((H.amount pl).getD 0 - n)), H.supply⟩

/-- More of a token. A holder who has none of it is left with no other balance. -/
def credit (H : Holding) (t : TokenID) (n : Int) : Holding :=
  match H.amount (.balance t) with
  | some k => ⟨Function.update H.amount (.balance t) (some (k + n)), H.supply⟩
  | none => ⟨Purse.soleBalance H.amount t n, H.supply⟩

/-- More locked up for an account. -/
def lock (H : Holding) (id : Identifier) (t : TokenID) (n : Int) : Holding :=
  ⟨Function.update H.amount (.lockup id t) (some ((H.amount (.lockup id t)).getD 0 + n)), H.supply⟩

/-- More in circulation. -/
def issue (H : Holding) (n : Int) : Holding :=
  ⟨H.amount, H.supply.map fun s => ⟨s.circulating + n, s.max⟩⟩

/-- A mandate deleted. -/
def revoke (H : Holding) (id : Identifier) (t : TokenID) : Holding :=
  ⟨Function.update H.amount (.mandate id t) none, H.supply⟩

/-- A mandate given: raised or new, and if the holder had given none to the account, the only
    one. -/
def Approved (H : Holding) (id : Identifier) (t : TokenID) (n : Int) (H' : Holding) : Prop :=
  H' = ⟨Function.update H.amount (.mandate id t) (some ((H.amount (.mandate id t)).getD 0 + n)),
      H.supply⟩ ∨
    H' = ⟨Purse.soleMandate H.amount id t n, H.supply⟩

end Holding

/-! ## 2. What an account has of an asset -/

/-- What is seen of an asset object, as numbers. -/
def Heap.holdOf (h : Heap) (q : Ptr AssetObject) : Holding :=
  ((h.viewAsset q).map holding).getD .empty

namespace Receiver

/-- The pending asset object, else the committed one. -/
def assetView (B : Backend) (s : Receiver) (a : AssetID) : Option AssetData :=
  match s.object.pendingAsset a with
  | some q => s.heap.viewAsset q
  | none => (Object.committedAsset B s.object a).toOption

def holding (B : Backend) (s : Receiver) (a : AssetID) : Holding :=
  ((s.assetView B a).map AssetOf.holding).getD .empty

/-- An amount of the pending asset object. -/
def OwnAmount (s : Receiver) (a : AssetID) (x : Ptr Int) : Prop :=
  ∃ q ao pl, s.object.pendingAsset a = some q ∧ s.heap.assets.read q = some ao ∧
    ao.amountAt pl = some x

/-- Metadata of a token of the pending asset object. -/
def OwnMeta (s : Receiver) (a : AssetID) (t : TokenID) (x : Ptr MetaData) : Prop :=
  ∃ q ao, s.object.pendingAsset a = some q ∧ s.heap.assets.read q = some ao ∧
    ao.tokenMetaData.lookup t = some x

end Receiver

/-- The asset object behind `q` is the pending one, or is new. -/
def Receiver.Fetched (s : Receiver) (a : AssetID) (q : Ptr AssetObject) : Prop :=
  s.object.pendingAsset a = some q ∨ (s.object.pendingAsset a = none ∧ ¬ s.heap.assets.Has q)

/-- A method on `a` has come from `s₀` to `s`. -/
structure Work (a : AssetID) (V : Ptr Int → Prop) (D : TokenID × Ptr MetaData → Prop)
    (s₀ s : Receiver) (q : Ptr AssetObject) : Prop where
  separate : s.heap.Separate
  fetched : s₀.Fetched a q
  here : s.heap.assets.Has q
  assets : s₀.heap.assets.KeptOff (· = q) s.heap.assets
  cells : ∀ q' b, s.heap.assets.read q' = some b → q' = q ∨ s₀.heap.assets.read q' = some b
  amounts : s₀.heap.amounts.KeptOff (s₀.OwnAmount a) s.heap.amounts
  metas : s₀.heap.metas.KeptOff (fun x => ∃ t, s₀.OwnMeta a t x) s.heap.metas
  object : s.object = s₀.object ∨ s.object = (s₀.insertAsset a q).object
  own : ∀ ao pl x, s.heap.assets.read q = some ao → ao.amountAt pl = some x →
    s₀.OwnAmount a x ∨ ¬ s₀.heap.amounts.Has x ∨ V x
  ownMeta : ∀ ao t x, s.heap.assets.read q = some ao → ao.tokenMetaData.lookup t = some x →
    s₀.OwnMeta a t x ∨ ¬ s₀.heap.metas.Has x ∨ D (t, x)
  single : ∀ ao t t' x, s.heap.assets.read q = some ao → ao.tokenMetaData.lookup t = some x →
    ao.tokenMetaData.lookup t' = some x → ¬ s₀.heap.metas.Has x → t = t'

/-! ## 3. Writes -/

section

variable {h : Heap}

/-- Amounts that grow, or change, in place. -/
theorem Heap.Separate.amounts (hs : h.Separate) {c : Cells Int}
    (hc : ∀ x, h.amounts.Has x → c.Has x) : ({ h with amounts := c } : Heap).Separate where
  closed := fun q ao hq => (hs.closed q ao hq).mono hc fun _ hp => hp
  one := hs.one

theorem Heap.Separate.metas (hs : h.Separate) {c : Cells MetaData}
    (hc : ∀ x, h.metas.Has x → c.Has x) : ({ h with metas := c } : Heap).Separate where
  closed := fun q ao hq => (hs.closed q ao hq).mono (fun _ hp => hp) hc
  one := hs.one

/-- Asset objects replaced by others whose amounts are theirs, or were kept nowhere. -/
theorem Heap.Separate.update (hs : h.Separate) {q : Ptr AssetObject}
    {f : AssetObject → AssetObject} (pl0 : Purse) (hf : ∀ ao, h.assets.read q = some ao →
      (∀ pl x, (f ao).amountAt pl = some x →
        ao.amountAt pl = some x ∨ (pl = pl0 ∧ h.Loose x)) ∧
      ∀ x ∈ (f ao).metas, x ∈ ao.metas ∨ h.metas.Has x) :
    ({ h with assets := h.assets.modify q f } : Heap).Separate := by
  -- an object of the new memory, place by place
  have old : ∀ q' b, (h.assets.modify q f).read q' = some b → ∃ ao, h.assets.read q' = some ao ∧
      (∀ pl x, b.amountAt pl = some x →
        ao.amountAt pl = some x ∨ (q' = q ∧ pl = pl0 ∧ h.Loose x)) ∧
      ∀ x ∈ b.metas, x ∈ ao.metas ∨ h.metas.Has x := by
    intro q' b hb
    rw [read_modify] at hb
    split at hb
    case isTrue hq =>
      subst hq
      obtain ⟨ao, hao, rfl⟩ := map_eq_some_iff.mp hb
      obtain ⟨hamounts, hmetas⟩ := hf ao hao
      refine ⟨ao, hao, fun pl x hx => ?_, hmetas⟩
      rcases hamounts pl x hx with hold | ⟨hpl, hloose⟩
      · exact .inl hold
      · exact .inr ⟨rfl, hpl, hloose⟩
    case isFalse => exact ⟨b, hb, fun _ _ hx => .inl hx, fun _ hx => .inl hx⟩
  refine ⟨fun q' b hb => ?_, fun q1 q2 b1 b2 pl1 pl2 x h1 h2 hx1 hx2 => ?_⟩
  · obtain ⟨ao, hao, hamounts, hmetas⟩ := old q' b hb
    have hin := hs.closed q' ao hao
    refine ⟨fun x hx => ?_, fun x hx => ?_⟩
    · obtain ⟨pl, hpl⟩ := mem_amounts.mp hx
      rcases hamounts pl x hpl with hold | ⟨-, -, hloose⟩
      · exact hin.amounts x (mem_amounts.mpr ⟨pl, hold⟩)
      · exact hloose.has
    · rcases hmetas x hx with hold | hhas
      · exact hin.metas x hold
      · exact hhas
  · obtain ⟨ao1, hao1, ham1, -⟩ := old q1 b1 h1
    obtain ⟨ao2, hao2, ham2, -⟩ := old q2 b2 h2
    rcases ham1 pl1 x hx1 with hold1 | ⟨hq1, hpl1, hloose⟩
    · rcases ham2 pl2 x hx2 with hold2 | ⟨-, -, hloose⟩
      · exact hs.one q1 q2 ao1 ao2 pl1 pl2 x hao1 hao2 hold1 hold2
      · exact absurd hold1 (hloose.nowhere q1 ao1 pl1 hao1)
    · rcases ham2 pl2 x hx2 with hold2 | ⟨hq2, hpl2, -⟩
      · exact absurd hold2 (hloose.nowhere q2 ao2 pl2 hao2)
      · exact ⟨hq1.trans hq2.symm, hpl1.trans hpl2.symm⟩

/-- A new asset object, with amounts of its own. -/
theorem Heap.Separate.alloc (hs : h.Separate) {ao : AssetObject} (hin : ao.In h)
    (hloose : ∀ pl x, ao.amountAt pl = some x → h.Loose x)
    (hone : ∀ pl pl' x, ao.amountAt pl = some x → ao.amountAt pl' = some x → pl = pl') :
    ({ h with assets := (h.assets.alloc ao).2 } : Heap).Separate := by
  refine ⟨fun q b hb => ?_, fun q1 q2 b1 b2 pl1 pl2 x h1 h2 hx1 hx2 => ?_⟩
  · rcases of_read_alloc hb with hold | ⟨-, rfl⟩
    · exact ⟨(hs.closed q b hold).amounts, (hs.closed q b hold).metas⟩
    · exact ⟨hin.amounts, hin.metas⟩
  rcases of_read_alloc h1 with hold1 | ⟨hq1, rfl⟩
  · rcases of_read_alloc h2 with hold2 | ⟨-, rfl⟩
    · exact hs.one q1 q2 b1 b2 pl1 pl2 x hold1 hold2 hx1 hx2
    · exact absurd hx1 ((hloose pl2 x hx2).nowhere q1 b1 pl1 hold1)
  · rcases of_read_alloc h2 with hold2 | ⟨hq2, rfl⟩
    · exact absurd hx2 ((hloose pl1 x hx1).nowhere q2 b2 pl2 hold2)
    · exact ⟨hq1.trans hq2.symm, hone pl1 pl2 x hx1 hx2⟩

theorem AssetOf.amountAt_new (properties : Option AssetDescriptor) (pl : Purse) :
    (new properties : AssetObject).amountAt pl = none := by
  cases pl <;> rfl

/-- A new asset object with nothing in it. -/
theorem Heap.Separate.newEmpty (hs : h.Separate) (properties : Option AssetDescriptor) :
    ({ h with assets := (h.assets.alloc (.new properties)).2 } : Heap).Separate := by
  have hnone : ∀ pl x, (new properties : AssetObject).amountAt pl ≠ some x := by
    intro pl x hx
    rw [amountAt_new] at hx
    cases hx
  refine hs.alloc ⟨fun x hx => ?_, nofun⟩ (fun pl x hx => absurd hx (hnone pl x))
    fun pl _ x hx => absurd hx (hnone pl x)
  obtain ⟨pl, hpl⟩ := mem_amounts.mp hx
  exact absurd hpl (hnone pl x)

/-- **Decoding keeps memory separate.** -/
theorem Heap.Separate.loadAsset (hs : h.Separate) (d : AssetData) : (h.loadAsset d).2.Separate := by
  obtain ⟨hkept, -, _, hread, -, hin, hapart, -⟩ := h.loadAsset_spec d
  obtain rfl := mem_unique hread read_alloc_new
  have hgrown := (hs.amounts fun _ hx => hkept.amounts.has hx).metas fun _ hx => hkept.metas.has hx
  refine hgrown.alloc ⟨hin.amounts, hin.metas⟩ (fun pl x hx => ?_) fun pl pl' x hx hx' =>
    h.loadAsset_one d hread hx hx'
  have hmem := mem_amounts.mpr ⟨pl, hx⟩
  refine ⟨hin.amounts x hmem, fun q b pl' hb hx' => hapart.amounts x hmem ?_⟩
  exact (hs.closed q b hb).amounts x (mem_amounts.mpr ⟨pl', hx'⟩)

end

namespace Work

variable {a : AssetID} {V : Ptr Int → Prop} {D : TokenID × Ptr MetaData → Prop} {s₀ s : Receiver}
  {q : Ptr AssetObject}

/-- The pending asset object. -/
theorem pending (hs : s.heap.Separate) (hin : s.object.In s.heap)
    (hq : s.object.pendingAsset a = some q) : Work a V D s s q where
  separate := hs
  fetched := .inl hq
  here := hin a q hq
  assets := .refl _
  cells := fun _ _ h => .inr h
  amounts := .refl _
  metas := .refl _
  object := .inl rfl
  own := fun ao pl _ hao hx => .inl ⟨q, ao, pl, hq, hao, hx⟩
  ownMeta := fun ao _ _ hao hx => .inl ⟨q, ao, hq, hao, hx⟩
  single := fun ao _ _ x hao hx _ hnew =>
    absurd ((hs.closed q ao hao).metas x (mem_metas hx)) hnew

/-- The committed asset object, decoded. -/
theorem loaded (hs : s.heap.Separate) (hq : s.object.pendingAsset a = none) (d : AssetData) :
    Work a V D s (s.loadAsset d) (s.heap.loadAsset d).1 := by
  obtain ⟨hkept, hnew, ao, hread, -, -, hapart, hcells⟩ := s.heap.loadAsset_spec d
  refine ⟨hs.loadAsset d, .inr ⟨hq, hnew⟩, has_iff_read.mpr ⟨ao, hread⟩, hkept.assets.keptOff,
    fun q' b hb => ?_, hkept.amounts.keptOff, hkept.metas.keptOff, .inl rfl,
    fun b pl x hb hx => .inr (.inl ?_), fun b t x hb hx => .inr (.inl ?_),
    fun b t t' x hb hx hx' _ => s.heap.loadAsset_label d hb hx hx'⟩
  · exact (hcells q' b hb).symm.imp And.left id
  · obtain rfl := mem_unique hb hread
    exact hapart.amounts x (mem_amounts.mpr ⟨pl, hx⟩)
  · obtain rfl := mem_unique hb hread
    exact hapart.metas x (mem_metas hx)

/-- A new asset object with nothing in it. -/
theorem created (hs : s.heap.Separate) (hq : s.object.pendingAsset a = none)
    (properties : Option AssetDescriptor) :
    Work a V D s (s.newAsset (.new properties)) (s.heap.assets.alloc (.new properties)).1 := by
  have hnew : ∀ b, (s.heap.assets.alloc (.new properties)).2.read
      (s.heap.assets.alloc (.new properties)).1 = some b → b = .new properties :=
    fun b hb => mem_unique hb read_alloc_new
  refine ⟨hs.newEmpty properties, .inr ⟨hq, not_has_alloc _⟩, has_alloc.mpr (.inr rfl),
    (Cells.KeptOff.refl _).alloc _, fun q' b hb => ?_, .refl _, .refl _, .inl rfl,
    fun b pl x hb hx => ?_, fun b t x hb hx => ?_, fun b t t' x hb hx => ?_⟩
  · rcases of_read_alloc hb with hold | ⟨hq', -⟩
    · exact .inr hold
    · exact .inl hq'
  · rw [hnew b hb, amountAt_new] at hx
    cases hx
  · rw [hnew b hb] at hx
    cases hx
  · rw [hnew b hb] at hx
    cases hx

section

variable (hw : Work a V D s₀ s q)
include hw

/-- What the method was not given to store stays loose, with the number it leads to. -/
theorem loose {v : Ptr Int} (hv : s₀.heap.Loose v) (hV : ¬ V v) :
    s.heap.Loose v ∧ s.heap.amounts.read v = s₀.heap.amounts.read v := by
  have hown : ¬ s₀.OwnAmount a v := fun ⟨q', ao, pl, _, hao, hx⟩ => hv.nowhere q' ao pl hao hx
  refine ⟨⟨hw.amounts.has hv.has, fun q' b pl hb hx => ?_⟩, hw.amounts.2 v hv.has hown⟩
  rcases hw.cells q' b hb with rfl | hold
  · rcases hw.own b pl v hb hx with h | h | h
    · exact hown h
    · exact h hv.has
    · exact hV h
  · exact hv.nowhere q' b pl hold hx

theorem setAmount {x : Ptr Int} (hx : s₀.OwnAmount a x ∨ ¬ s₀.heap.amounts.Has x) (n : Int) :
    Work a V D s₀ (s.setAmount x n) q :=
  { hw with
    separate := hw.separate.amounts fun _ h => (has_modify _).mpr h
    amounts := hw.amounts.modify hx _ }

theorem newAmount (n : Int) : Work a V D s₀ (s.newAmount n) q :=
  { hw with
    separate := hw.separate.amounts fun _ h => has_alloc.mpr (.inl h)
    amounts := hw.amounts.alloc n }

theorem setMetaData {x : Ptr MetaData} (hx : (∃ t, s₀.OwnMeta a t x) ∨ ¬ s₀.heap.metas.Has x)
    (m : MetaData) : Work a V D s₀ (s.setMetaData x m) q :=
  { hw with
    separate := hw.separate.metas fun _ h => (has_modify _).mpr h
    metas := hw.metas.modify hx _ }

theorem newMetaData (m : MetaData) : Work a V D s₀ (s.newMetaData m) q :=
  { hw with
    separate := hw.separate.metas fun _ h => has_alloc.mpr (.inl h)
    metas := hw.metas.alloc m }

/-- The object put into the transaction. -/
theorem link : Work a V D s₀ (s.insertAsset a q) q := by
  refine { hw with object := .inr ?_ }
  rcases hw.object with h | h <;> simp [Receiver.insertAsset, h]

end

/-- Metadata that are put under a token: new ones, or such as the method was given. -/
structure Puts (D : TokenID × Ptr MetaData → Prop) (s₀ s : Receiver) (ao : AssetObject)
    (t₀ t : TokenID) (x : Ptr MetaData) : Prop where
  label : t = t₀
  has : s.heap.metas.Has x
  given : (¬ s₀.heap.metas.Has x ∧ ∀ t', ao.tokenMetaData.lookup t' ≠ some x) ∨
    (s₀.heap.metas.Has x ∧ D (t, x))

/-- Fields of the object assigned: its amounts stay, go, or one of them is new to memory. -/
theorem setAsset (hw : Work a V D s₀ s q) {f : AssetObject → AssetObject} (pl0 : Purse)
    (t0 : TokenID) (hf : ∀ ao, s.heap.assets.read q = some ao →
      (∀ pl x, (f ao).amountAt pl = some x → ao.amountAt pl = some x ∨
        (pl = pl0 ∧ s.heap.Loose x ∧ (¬ s₀.heap.amounts.Has x ∨ V x))) ∧
      ∀ t x, (f ao).tokenMetaData.lookup t = some x → ao.tokenMetaData.lookup t = some x ∨
        Puts D s₀ s ao t0 t x) : Work a V D s₀ (s.setAsset q f) q := by
  have hnew : ∀ b, (s.heap.assets.modify q f).read q = some b →
      ∃ ao, s.heap.assets.read q = some ao ∧ b = f ao := by
    intro b hb
    rw [read_modify, if_pos rfl] at hb
    obtain ⟨ao, hao, rfl⟩ := map_eq_some_iff.mp hb
    exact ⟨ao, hao, rfl⟩
  have hsep : (s.setAsset q f).heap.Separate := by
    refine hw.separate.update pl0 fun ao hao => ⟨fun pl x hx => ?_, fun x hx => ?_⟩
    · rcases (hf ao hao).1 pl x hx with h | ⟨hpl, hloose, -⟩
      · exact .inl h
      · exact .inr ⟨hpl, hloose⟩
    obtain ⟨t, ht⟩ := GoMap.mem_values.mp hx
    rcases (hf ao hao).2 t x ht with h | h
    · exact .inl (mem_metas h)
    · exact .inr h.has
  refine { hw with
    separate := hsep
    here := (has_modify _).mpr hw.here
    assets := hw.assets.modify (.inl rfl) _
    cells := fun q' b hb => ?_
    own := fun b pl x hb hx => ?_
    ownMeta := fun b t x hb hx => ?_
    single := fun b t t' x hb hx hx' hnew' => ?_ }
  · by_cases hq : q' = q
    · exact .inl hq
    · rw [show (s.setAsset q f).heap.assets = s.heap.assets.modify q f from rfl, read_modify,
        if_neg hq] at hb
      exact hw.cells q' b hb
  · obtain ⟨ao, hao, rfl⟩ := hnew b hb
    rcases (hf ao hao).1 pl x hx with h | ⟨-, -, h⟩
    · exact hw.own ao pl x hao h
    · exact .inr h
  · obtain ⟨ao, hao, rfl⟩ := hnew b hb
    rcases (hf ao hao).2 t x hx with h | h
    · exact hw.ownMeta ao t x hao h
    · exact .inr (h.given.imp And.left And.right)
  · obtain ⟨ao, hao, rfl⟩ := hnew b hb
    rcases (hf ao hao).2 t x hx with h | h
    · rcases (hf ao hao).2 t' x hx' with h' | h'
      · exact hw.single ao t t' x hao h h' hnew'
      · rcases h'.given with ⟨-, hne⟩ | ⟨hhas, -⟩
        · exact absurd h (hne t)
        · exact absurd hhas hnew'
    rcases (hf ao hao).2 t' x hx' with h' | h'
    · rcases h.given with ⟨-, hne⟩ | ⟨hhas, -⟩
      · exact absurd h' (hne t')
      · exact absurd hhas hnew'
    · exact h.label.trans h'.label.symm

/-- More may be stored from here on. -/
theorem mono (hw : Work a V D s₀ s q) {V' : Ptr Int → Prop} {D' : TokenID × Ptr MetaData → Prop}
    (hV : ∀ x, V x → V' x) (hD : ∀ x, D x → D' x) : Work a V' D' s₀ s q :=
  { hw with
    own := fun ao pl x hao hx => (hw.own ao pl x hao hx).imp id (Or.imp id (hV x))
    ownMeta := fun ao t x hao hx => (hw.ownMeta ao t x hao hx).imp id (Or.imp id (hD (t, x))) }

end Work

/-! ## 4. What is seen afterwards -/

section

variable {h : Heap} {q : Ptr AssetObject} {ao : AssetObject}

theorem Heap.holdOf_eq (hao : h.assets.read q = some ao) :
    h.holdOf q = ⟨fun pl => (ao.amountAt pl).bind h.amounts.read, ao.supply⟩ := by
  unfold holdOf viewAsset
  rw [hao]
  show Holding.mk (h.viewObject ao).amountAt (h.viewObject ao).supply = _
  congr 1
  exact funext (h.viewObject_amountAt ao)

/-- An amount of the object changed in place. -/
theorem Heap.Separate.holdOf_setAmount (hs : h.Separate) (hao : h.assets.read q = some ao)
    (pl : Purse) {x : Ptr Int} (hx : ao.amountAt pl = some x) (n : Int) :
    ({ h with amounts := h.amounts.modify x fun _ => n } : Heap).holdOf q =
      ⟨Function.update (h.holdOf q).amount pl (some n), (h.holdOf q).supply⟩ := by
  rw [holdOf_eq (h := { h with amounts := h.amounts.modify x fun _ => n }) hao, holdOf_eq hao]
  congr 1
  funext pl'
  have hhas := (hs.closed q ao hao).amounts x (mem_amounts.mpr ⟨pl, hx⟩)
  obtain ⟨k, hk⟩ := has_iff_read.mp hhas
  by_cases hpl : pl' = pl
  · subst hpl
    rw [update_self, hx, bind_some, read_modify, if_pos rfl, hk]
    rfl
  rw [update_of_ne hpl]
  show (ao.amountAt pl').bind (h.amounts.modify x fun _ => n).read =
    (ao.amountAt pl').bind h.amounts.read
  rcases hx' : ao.amountAt pl' with _ | y
  · rfl
  have hne : y ≠ x := fun he =>
    hpl (hs.one q q ao ao pl' pl x hao hao (he ▸ hx') hx).2
  rw [bind_some, bind_some, read_modify, if_neg hne]

/-- The object replaced. -/
theorem Heap.holdOf_setAsset (hao : h.assets.read q = some ao) (f : AssetObject → AssetObject) :
    ({ h with assets := h.assets.modify q f } : Heap).holdOf q =
      ⟨fun pl => ((f ao).amountAt pl).bind h.amounts.read, (f ao).supply⟩ := by
  refine holdOf_eq ?_
  rw [read_modify, if_pos rfl, hao]
  rfl

/-- What is read at places one of which is set. -/
theorem update_bind {A C : Type} (g : Purse → Option A) (pl0 : Purse) (o : Option A)
    (r : A → Option C) : (fun pl => (Function.update g pl0 o pl).bind r) =
      Function.update (fun pl => (g pl).bind r) pl0 (o.bind r) := by
  funext pl
  by_cases hpl : pl = pl0
  · subst hpl
    rw [update_self, update_self]
  · rw [update_of_ne hpl, update_of_ne hpl]

/-- The object replaced by one that differs at a place. -/
theorem Heap.holdOf_update (hao : h.assets.read q = some ao) {f : AssetObject → AssetObject}
    {pl : Purse} {o : Option (Ptr Int)} (hf : (f ao).amountAt = Function.update ao.amountAt pl o)
    (hsupply : (f ao).supply = ao.supply) :
    ({ h with assets := h.assets.modify q f } : Heap).holdOf q =
      ⟨Function.update (h.holdOf q).amount pl (o.bind h.amounts.read), (h.holdOf q).supply⟩ := by
  rw [holdOf_setAsset hao, hf, hsupply, update_bind, holdOf_eq hao]

end

/-- Nothing has happened but that there are new asset objects, which nobody points to. -/
structure Heap.Idle (h h' : Heap) : Prop where
  kept : h.Kept h'
  separate : h'.Separate
  cells : ∀ q b, h'.assets.read q = some b → h.assets.read q = some b ∨ b.Apart h

namespace Heap.Idle

variable {h h' : Heap}

theorem refl (hs : h.Separate) : h.Idle h := ⟨.refl h, hs, fun _ _ hb => .inl hb⟩

theorem trans {h1 h2 h3 : Heap} (a : h1.Idle h2) (b : h2.Idle h3) : h1.Idle h3 := by
  refine ⟨a.kept.trans b.kept, b.separate, fun q ao hao => ?_⟩
  rcases b.cells q ao hao with hold | hapart
  · exact a.cells q ao hold
  · exact .inr ⟨fun x hx h => hapart.amounts x hx (a.kept.amounts.has h),
      fun x hx h => hapart.metas x hx (a.kept.metas.has h)⟩

theorem loadAsset (hs : h.Separate) (d : AssetData) : h.Idle (h.loadAsset d).2 := by
  obtain ⟨hkept, -, _, -, -, -, hapart, hcells⟩ := h.loadAsset_spec d
  refine ⟨hkept, hs.loadAsset d, fun q b hb => (hcells q b hb).imp id fun ⟨_, hao⟩ => ?_⟩
  exact hao ▸ hapart

theorem newEmpty (hs : h.Separate) (properties : Option AssetDescriptor) :
    h.Idle { h with assets := (h.assets.alloc (.new properties)).2 } := by
  refine ⟨⟨.refl _, .refl _, .new _ _⟩, hs.newEmpty properties, fun q b hb => ?_⟩
  rcases of_read_alloc hb with hold | ⟨-, rfl⟩
  · exact .inl hold
  refine .inr ⟨fun x hx => ?_, nofun⟩
  obtain ⟨_, hpl⟩ := mem_amounts.mp hx
  rw [amountAt_new] at hpl
  cases hpl

/-- A loose amount stays loose. -/
theorem loose (hi : h.Idle h') {v : Ptr Int} (hv : h.Loose v) : h'.Loose v := by
  refine ⟨hi.kept.amounts.has hv.has, fun q b pl hb hx => ?_⟩
  rcases hi.cells q b hb with hold | hapart
  · exact hv.nowhere q b pl hold hx
  · exact hapart.amounts v (mem_amounts.mpr ⟨pl, hx⟩) hv.has

/-- The old objects show what they showed. -/
theorem viewAsset (hi : h.Idle h') (hs : h.Separate) {q : Ptr AssetObject} (hq : h.assets.Has q) :
    h'.viewAsset q = h.viewAsset q := by
  obtain ⟨ao, hao⟩ := has_iff_read.mp hq
  unfold Heap.viewAsset
  rw [hi.kept.assets.read hao, hao]
  exact congrArg some (hi.kept.viewObject (hs.closed q ao hao))

end Heap.Idle

namespace Work

variable {B : Backend} {a : AssetID} {V : Ptr Int → Prop} {D : TokenID × Ptr MetaData → Prop}
  {s₀ s : Receiver} {q q' : Ptr AssetObject}

/-- An amount of another asset object is what it was. -/
theorem amount_other (hw : Work a V D s₀ s q) (hs : s₀.heap.Separate) (hne : q' ≠ q)
    {ao : AssetObject} {pl : Purse} {x : Ptr Int} (hao : s₀.heap.assets.read q' = some ao)
    (hx : ao.amountAt pl = some x) : s.heap.amounts.read x = s₀.heap.amounts.read x := by
  have hhas := (hs.closed q' ao hao).amounts x (mem_amounts.mpr ⟨pl, hx⟩)
  refine hw.amounts.2 x hhas fun ⟨q1, ao1, pl1, hpend, hao1, hx1⟩ => hne ?_
  have hq1 := (hs.one q' q1 ao ao1 pl pl1 x hao hao1 hx hx1).1
  rcases hw.fetched with h | ⟨h, -⟩
  · rw [hq1]
    exact mem_unique hpend h
  · rw [h] at hpend
    cases hpend

/-- **Another asset object** shows what it showed. -/
theorem holdOf_other (hw : Work a V D s₀ s q) (hs : s₀.heap.Separate) (hq' : s₀.heap.assets.Has q')
    (hne : q' ≠ q) : s.heap.holdOf q' = s₀.heap.holdOf q' := by
  obtain ⟨ao, hao⟩ := has_iff_read.mp hq'
  have hao' : s.heap.assets.read q' = some ao := (hw.assets.2 q' hq' hne).trans hao
  rw [Heap.holdOf_eq hao, Heap.holdOf_eq hao']
  congr 1
  funext pl
  cases hx : ao.amountAt pl with
  | none => rfl
  | some x => exact hw.amount_other hs hne hao hx

end Work

end GoMoi
