/-
  File:      GoMoi/State/AssetEffects.lean
  Subject:   The methods on assets as functions on holdings.

  One lemma for each method of `State/Balance`: which `Work` it does, and what the account holds of
  the asset afterwards. `Done` is the common shape. The amount `v` that a call is given is loose and
  leads to the number `n`; it stays so unless the method stores it.
-/
import GoMoi.State.AssetWork

namespace GoMoi

open Proc Object AssetOf Heap Cells Reserved Function Receiver Option Holding

/-! ## 1. The shape of the results -/

/-- The memory of an account between calls. -/
structure Receiver.Sound (s : Receiver) : Prop where
  separate : s.heap.Separate
  pending : s.object.In s.heap

/-- A method on `a` that has changed nothing, or has worked on an asset object. -/
def Touched (a : AssetID) (V : Ptr Int → Prop) (D : TokenID × Ptr MetaData → Prop)
    (s s' : Receiver) : Prop :=
  (s'.object = s.object ∧ s.heap.Idle s'.heap) ∨ ∃ q, Work a V D s s' q

/-- The loose amount of a call. -/
structure Heap.Carries (h : Heap) (v : Ptr Int) (n : Int) : Prop where
  loose : h.Loose v
  value : h.amounts.read v = some n

/-- Nothing is stored. -/
abbrev Nowhere {A : Type} : A → Prop := fun _ => False

section

variable {B : Backend} {a : AssetID} {V : Ptr Int → Prop} {D : TokenID × Ptr MetaData → Prop}
  {s0 s s' : Receiver} {q : Ptr AssetObject} {v : Ptr Int} {n : Int}

theorem Work.carries (hw : Work a V D s0 s q) (hv : s0.heap.Carries v n) (hV : ¬ V v) :
    s.heap.Carries v n :=
  ⟨(hw.loose hv.loose hV).1, (hw.loose hv.loose hV).2.trans hv.value⟩

variable {h : Heap} {pl : Purse} {e : Err} {k : Int} {expiresAt : UInt64} {key value : Bytes}

theorem Heap.Idle.carries {h' : Heap} (hi : h.Idle h') (hv : h.Carries v n) : h'.Carries v n :=
  ⟨hi.loose hv.loose, hi.kept.amounts.read hv.value⟩

theorem Touched.carries (ht : Touched a V D s s') (hv : s.heap.Carries v n) (hV : ¬ V v) :
    s'.heap.Carries v n := by
  rcases ht with ⟨-, hi⟩ | ⟨q, hw⟩
  · exact hi.carries hv
  · exact hw.carries hv hV

/-- The object that the method works on shows what the account has. -/
theorem pendingAsset_insert (s : Receiver) (a b : AssetID) (q : Ptr AssetObject) :
    (s.insertAsset a q).object.pendingAsset b =
      if b = a then some q else s.object.pendingAsset b := by
  show ((s.object.assetTreeTxn.getD ∅).insert a q).lookup b = _
  by_cases h : b = a
  · rw [if_pos h, h, AList.lookup_insert]
  rw [if_neg h, AList.lookup_insert_ne h, pendingAsset]
  cases s.object.assetTreeTxn <;> rfl

theorem Receiver.holding_of_pending (h : s.object.pendingAsset a = some q) :
    s.holding B a = s.heap.holdOf q := by
  unfold holding assetView holdOf
  rw [h]

theorem Receiver.holding_insertAsset (s : Receiver) :
    (s.insertAsset a q).holding B a = s.heap.holdOf q :=
  holding_of_pending (by rw [pendingAsset_insert, if_pos rfl])

theorem Receiver.holding_of_none (h : s.assetView B a = none) : s.holding B a = .empty := by
  unfold holding
  rw [h]
  rfl

/-! ## 2. Fetching -/

/-- **The fetched object** shows what the account has; if there is none the account has nothing. -/
theorem getAssetObject_work (hs : s.Sound) : wp (getAssetObject B a true)
    (fun r s' => (∀ e, r = .error e → s' = s ∧ s.object.pendingAsset a = none ∧
        committedAsset B s.object a = .error e) ∧
      ∀ q, r = .ok q → Work a Nowhere Nowhere s s' q ∧ s'.object = s.object ∧
        s'.heap.viewAsset q = s.assetView B a ∧ s.heap.Idle s'.heap) (fun _ => False) s := by
  unfold getAssetObject
  simp only [wp_bind, wp_self, if_true]
  rcases hpend : s.object.pendingAsset a with _ | q
  swap
  · refine ⟨(by simp), fun q' hq' => ?_⟩
    cases hq'
    refine ⟨.pending hs.separate hs.pending hpend, rfl, ?_, .refl hs.separate⟩
    rw [assetView, hpend]
  rcases hcom : committedAsset B s.object a with e | d
  · refine ⟨fun e' he' => ?_, by simp⟩
    cases he'
    exact ⟨rfl, rfl, rfl⟩
  refine ⟨(by simp), fun q hq => ?_⟩
  cases hq
  obtain ⟨-, -, _, hread, hview, -⟩ := s.heap.loadAsset_spec d
  refine ⟨.loaded hs.separate hpend d, rfl, ?_, .loadAsset hs.separate d⟩
  rw [assetView, hpend, hcom]
  show ((s.heap.loadAsset d).2.assets.read _).map _ = _
  rw [hread]
  exact congrArg some hview

theorem holdOf_of_view (h : s'.heap.viewAsset q = s.assetView B a) :
    s'.heap.holdOf q = s.holding B a := by
  unfold holdOf Receiver.holding
  rw [h]

/-- The object that was fetched can be read. -/
theorem Work.read (hw : Work a V D s0 s q) : ∃ ao, s.heap.assets.read q = some ao :=
  has_iff_read.mp hw.here

/-- A method on an asset object that has to be there, from what its body does. -/
theorem withAsset_work {A : Type} {body : Ptr AssetObject → Method (Except Err A)}
    {Q : Except Err A → Receiver → Prop} {R : Receiver → Prop} (hs : s.Sound)
    (hnone : s.assetView B a = none → Q (.error (.sentinel .errAssetNotFound)) s)
    (hbody : ∀ q s' ao, Work a Nowhere Nowhere s s' q → s'.object = s.object →
      s'.heap.viewAsset q = s.assetView B a → s'.heap.holdOf q = s.holding B a →
      s'.heap.assets.read q = some ao → wp (body q) Q R s') : wp (withAsset B a body) Q R s := by
  refine wp_seq_total (getAssetObject_work hs) fun r s' hr => ?_
  rcases r with e | q
  · obtain ⟨rfl, hpend, hcom⟩ := hr.1 e rfl
    refine hnone ?_
    rw [assetView, hpend, hcom]
    rfl
  obtain ⟨hw, hobj, hview, -⟩ := hr.2 q rfl
  obtain ⟨ao, hao⟩ := hw.read
  exact hbody q s' ao hw hobj hview (holdOf_of_view hview) hao

/-- The amount kept at a place of the object, as a number. -/
theorem Work.amount_some (hw : Work a V D s0 s q) (pl : Purse)
    (hao : s.heap.assets.read q = some ao) (hx : ao.amountAt pl = some x) :
    ∃ k, s.heap.amounts.read x = some k ∧ (s.heap.holdOf q).amount pl = some k := by
  have hhas := (hw.separate.closed q ao hao).amounts x (mem_amounts.mpr ⟨pl, hx⟩)
  obtain ⟨k, hk⟩ := has_iff_read.mp hhas
  refine ⟨k, hk, ?_⟩
  rw [holdOf_eq hao]
  show (ao.amountAt pl).bind _ = _
  rw [hx]
  exact hk

theorem Heap.holdOf_amount_none (hao : h.assets.read q = some ao) (hx : ao.amountAt pl = none) :
    (h.holdOf q).amount pl = none := by
  rw [holdOf_eq hao]
  show (ao.amountAt pl).bind _ = _
  rw [hx]
  rfl

/-! ## 3. Taking -/

/-- What is done to an object that has nothing left at a place. -/
structure Clears (pl : Purse) (f : AssetObject → AssetObject) : Prop where
  amounts : ∀ ao, (f ao).amountAt = update ao.amountAt pl none
  supply : ∀ ao, (f ao).supply = ao.supply
  metas : ∀ ao t x, (f ao).tokenMetaData.lookup t = some x → ao.tokenMetaData.lookup t = some x

variable {f : AssetObject → AssetObject} {ao : AssetObject} {x : Ptr Int} {H : Holding}
  {metadata : Option (Ptr MetaData)} {isStatic : Bool}

theorem Clears.of_amountAt (hf : Clears pl f) {pl' : Purse} (h : (f ao).amountAt pl' = some x) :
    ao.amountAt pl' = some x := by
  rw [hf.amounts] at h
  by_cases hpl : pl' = pl
  · rw [hpl, update_self] at h
    cases h
  · rwa [update_of_ne hpl] at h

/-- **Less at a place.** -/
theorem takeAmount_work (pl : Purse) {held : Ptr Int} {atZero : AssetObject → AssetObject}
    (hw : Work a Nowhere D s0 s q) (hv : s0.heap.Carries v n) (hao : s.heap.assets.read q = some ao)
    (hheld : ao.amountAt pl = some held) (hz : Clears pl atZero) :
    wp (takeAmount q held v atZero)
      (fun _ s' => Work a Nowhere D s0 s' q ∧ s'.object = s.object ∧
        s'.heap.metas = s.heap.metas ∧ s'.heap.holdOf q = (s.heap.holdOf q).take pl n ∧
        ∃ ao', s'.heap.assets.read q = some ao' ∧ (ao' = ao ∨ ao' = atZero ao))
      (fun _ => False) s := by
  obtain ⟨k, hk, hamount⟩ := hw.amount_some pl hao hheld
  have hown : s0.OwnAmount a held ∨ ¬ s0.heap.amounts.Has held :=
    (hw.own ao pl held hao hheld).imp id fun h => h.elim id False.elim
  have hset := hw.setAmount hown (k - n)
  have hhold := hw.separate.holdOf_setAmount hao pl hheld (k - n)
  unfold takeAmount
  simp only [wp_bind, wp_amount_of hk, wp_amount_of (hw.carries hv id).value,
    wp_setAmount, wp_ite, wp_setAsset, wp_pure]
  refine ⟨fun hzero => ⟨?_, rfl, rfl, ?_, ?_⟩,
    fun hzero => ⟨hset, rfl, rfl, ?_, ao, hao, .inl rfl⟩⟩
  · exact hset.setAsset pl 0 fun b _ => ⟨fun _ _ hx => .inl (hz.of_amountAt hx),
      fun t x hx => .inl (hz.metas b t x hx)⟩
  · -- nothing is left: the place is cleared
    have hclear := holdOf_update (h := (s.setAmount held (k - n)).heap) hao (hz.amounts ao)
      (hz.supply ao)
    refine hclear.trans ?_
    rw [show (s.setAmount held (k - n)).heap.holdOf q = _ from hhold, take, hamount,
      if_pos (by exact hzero)]
    show mk (update (update _ pl _) pl none) _ = _
    rw [update_idem]
  · refine ⟨atZero ao, ?_, .inr rfl⟩
    show (s.heap.assets.modify q atZero).read q = _
    rw [read_modify, if_pos rfl, hao]
    rfl
  · refine hhold.trans ?_
    rw [take, hamount, if_neg (by exact hzero)]
    rfl

/-! ## 4. The methods -/

/-- The method is done, and the account holds `H` of the asset. -/
structure Done (B : Backend) (a : AssetID) (V : Ptr Int → Prop) (D : TokenID × Ptr MetaData → Prop)
    (s : Receiver) (H : Holding) (s' : Receiver) : Prop where
  touched : Touched a V D s s'
  holding : s'.holding B a = H

/-- The account holds what it held. -/
abbrev Still (B : Backend) (a : AssetID) (s : Receiver) : Receiver → Prop :=
  Done B a Nowhere Nowhere s (s.holding B a)

/-- A method that ends with the object in the transaction. -/
theorem Work.done (hw : Work a V D s0 s q) (hhold : s.heap.holdOf q = H) :
    Done B a V D s0 H (s.insertAsset a q) :=
  ⟨.inr ⟨q, hw.link⟩, s.holding_insertAsset.trans hhold⟩

/-- A method that has only looked at the object. -/
theorem Work.unmoved (hw : Work a V D s0 s q) (hobj : s.object = s0.object)
    (hhold : s.heap.holdOf q = s0.holding B a) : Done B a V D s0 (s0.holding B a) s := by
  refine ⟨.inr ⟨q, hw⟩, ?_⟩
  rcases hw.fetched with hpend | ⟨hpend, -⟩
  · exact (holding_of_pending (hobj ▸ hpend)).trans hhold
  · unfold Receiver.holding Receiver.assetView
    rw [hobj, hpend]

theorem Receiver.Sound.done (hs : s.Sound) : Done B a V D s (s.holding B a) s :=
  ⟨.inl ⟨rfl, .refl hs.separate⟩, rfl⟩

variable {t : TokenID}

theorem AssetOf.supply_deleteTokenMetadata : (ao.deleteTokenMetadata t).supply = ao.supply := by
  unfold deleteTokenMetadata
  split
  case isTrue => rfl
  case isFalse => rfl

theorem AssetOf.of_lookup_deleteTokenMetadata {t' : TokenID} {x : Ptr MetaData}
    (hx : (ao.deleteTokenMetadata t).tokenMetaData.lookup t' = some x) :
    ao.tokenMetaData.lookup t' = some x := by
  unfold deleteTokenMetadata at hx
  split at hx
  case isTrue => exact hx
  case isFalse => exact GoMap.of_lookup_erase hx

theorem clears_balance (t : TokenID) : Clears (.balance t) fun ao =>
    deleteTokenMetadata { ao with balance := ao.balance.erase t } t where
  amounts := fun _ => amountAt_deleteTokenMetadata.trans amountAt_eraseBalance
  supply := fun _ => supply_deleteTokenMetadata
  metas := fun _ _ _ hx => (of_lookup_deleteTokenMetadata hx :)

/-- Nothing of the token is left. -/
structure Holding.Without (H : Holding) (t : TokenID) : Prop where
  balance : H.amount (.balance t) = none
  lockup : ∀ id, H.amount (.lockup id t) = none

/-- What is known of the metadata that a method hands out with the token: they were the account's
    own or have just been decoded; they are gone from the account if nothing of the token is
    left. -/
structure HandsOut (B : Backend) (a : AssetID) (t : TokenID) (s s' : Receiver) (x : Ptr MetaData) :
    Prop where
  has : s'.heap.metas.Has x
  own : s.OwnMeta a t x ∨ ¬ s.heap.metas.Has x
  seen : (s.assetView B a).bind (·.tokenMetaData.lookup t) ≠ none
  label : ¬ s.heap.metas.Has x → ∀ t', s'.OwnMeta a t' x → t' = t
  gone : (s'.holding B a).Without t → ¬ s'.OwnMeta a t x

/-- Without the token there are no metadata of it. -/
theorem AssetOf.lookup_deleteTokenMetadata
    (hb : (ao.deleteTokenMetadata t).amountAt (.balance t) = none)
    (hl : ∀ id, (ao.deleteTokenMetadata t).amountAt (.lockup id t) = none) :
    (ao.deleteTokenMetadata t).tokenMetaData.lookup t = none := by
  rw [amountAt_deleteTokenMetadata] at hb
  have hno : ao.hasTokenID t = false := by
    unfold hasTokenID
    rw [Bool.or_eq_false_iff]
    refine ⟨decide_eq_false fun hmem => ?_, List.any_eq_false.mpr fun tokens hmem => ?_⟩
    · obtain ⟨x, hx⟩ := isSome_iff_exists.mp (AList.lookup_isSome.mpr hmem)
      rw [show ao.amountAt (.balance t) = some x from hx] at hb
      cases hb
    obtain ⟨id, hid⟩ := GoMap.mem_values.mp hmem
    have hnone := hl id
    rw [amountAt_deleteTokenMetadata, amountAt, at?, hid, bind_some, map_eq_none_iff] at hnone
    simp only [decide_eq_true_eq]
    exact fun h => by
      obtain ⟨x, hx⟩ := isSome_iff_exists.mp (AList.lookup_isSome.mpr h)
      rw [hnone] at hx
      cases hx
  unfold deleteTokenMetadata
  rw [hno, if_neg (by simp)]
  exact AList.lookup_erase _ _

theorem Work.handsOut {s2 : Receiver} {ao' : AssetObject} {x : Ptr MetaData} {y : Ptr Int}
    (hw : Work a V Nowhere s0 s q) (hview : s.heap.viewAsset q = s0.assetView B a)
    (hao : s.heap.assets.read q = some ao) (hx : ao.tokenMetaData.lookup t = some x)
    (hw2 : Work a V Nowhere s0 s2 q) (hmetas : s2.heap.metas = s.heap.metas)
    (hao' : s2.heap.assets.read q = some ao') (hpl : pl = .balance t ∨ ∃ id, pl = .lockup id t)
    (hy : ao.amountAt pl = some y) (hcase : ao' = ao ∨ ao' = deleteTokenMetadata (f ao) t)
    (hf : ∀ t' z, (f ao).tokenMetaData.lookup t' = some z → ao.tokenMetaData.lookup t' = some z) :
    HandsOut B a t s0 (s2.insertAsset a q) x := by
  have hpend : (s2.insertAsset a q).object.pendingAsset a = some q := by
    rw [pendingAsset_insert, if_pos rfl]
  -- what the account owns afterwards, by the object that was put into the transaction
  have hown : ∀ t', (s2.insertAsset a q).OwnMeta a t' x → ao'.tokenMetaData.lookup t' = some x := by
    intro t' ⟨q', b, hq', hb, hb'⟩
    obtain rfl := mem_unique hpend hq'
    obtain rfl := mem_unique hao' hb
    exact hb'
  have hold : ∀ t', ao'.tokenMetaData.lookup t' = some x → ao.tokenMetaData.lookup t' = some x := by
    intro t' h
    rcases hcase with rfl | rfl
    · exact h
    · exact hf t' x (of_lookup_deleteTokenMetadata h)
  have hhas := (hw.separate.closed q ao hao).metas x (mem_metas hx)
  refine ⟨hmetas ▸ hhas, ?_, ?_, fun hnew t' h => ?_, fun hleft h => ?_⟩
  · exact (hw.ownMeta ao t x hao hx).imp id fun h => h.elim id False.elim
  · rw [← hview, viewAsset, hao, map_some, bind_some]
    obtain ⟨m, hm⟩ := has_iff_read.mp hhas
    show (ao.tokenMetaData.filterMap _).lookup t ≠ none
    rw [GoMap.lookup_filterMap, hx, bind_some, hm]
    exact nofun
  · exact hw.single ao t' t x hao (hold t' (hown t' h)) hx hnew
  · rw [holding_insertAsset] at hleft
    have hnone : ∀ pl', (s2.heap.holdOf q).amount pl' = none → ao'.amountAt pl' = none := by
      intro pl' hpl'
      rcases hz : ao'.amountAt pl' with _ | z
      · rfl
      obtain ⟨k, -, hk⟩ := hw2.amount_some pl' hao' hz
      rw [hpl'] at hk
      cases hk
    have hb := hnone _ hleft.balance
    have hl := fun id => hnone _ (hleft.lockup id)
    rcases hcase with rfl | rfl
    · rcases hpl with rfl | ⟨id, rfl⟩
      · rw [hb] at hy
        cases hy
      · rw [hl id] at hy
        cases hy
    · have hgone := hown t h
      rw [lookup_deleteTokenMetadata hb hl] at hgone
      cases hgone

/-- A token taken with its metadata. -/
theorem Work.takeToken (pl : Purse) {held : Ptr Int} (hw : Work a Nowhere Nowhere s0 s q)
    (hv : s0.heap.Carries v n) (hview : s.heap.viewAsset q = s0.assetView B a)
    (hao : s.heap.assets.read q = some ao) (hheld : ao.amountAt pl = some held)
    (hpl : pl = .balance t ∨ ∃ id, pl = .lockup id t)
    (hz : Clears pl fun ao => deleteTokenMetadata (f ao) t)
    (hf : (f ao).tokenMetaData = ao.tokenMetaData) :
    wp (takeAmount q held v fun ao => deleteTokenMetadata (f ao) t)
      (fun _ s' => (∀ x, ao.tokenMetaData.lookup t = some x →
          HandsOut B a t s0 (s'.insertAsset a q) x) ∧ (∃ k, (s0.holding B a).amount pl = some k) ∧
        Done B a Nowhere Nowhere s0 ((s0.holding B a).take pl n) (s'.insertAsset a q))
      (fun _ => False) s := by
  have hhold := holdOf_of_view hview
  obtain ⟨k, -, hk⟩ := hw.amount_some pl hao hheld
  refine wp_post (takeAmount_work pl hw hv hao hheld hz) fun _ s2 h => ?_
  obtain ⟨hw2, -, hmetas, hhold2, _, hao2, hcase⟩ := h
  refine ⟨fun x hx => ?_, ⟨k, hhold ▸ hk⟩, hw2.done (hhold ▸ hhold2)⟩
  exact hw.handsOut hview hao hx hw2 hmetas hao2 hpl hheld hcase fun _ _ h => hf ▸ h

/-- **`SubBalance`.** -/
theorem subBalance_spec (hs : s.Sound) (hv : s.heap.Carries v n) :
    wp (subBalance B a t v)
      (fun r s' => (∀ e, r = .error e → (s.holding B a).amount (.balance t) = none ∧
          Still B a s s') ∧
        ∀ metadata, r = .ok metadata → (∀ x, metadata = some x → HandsOut B a t s s' x) ∧
          (∃ k, (s.holding B a).amount (.balance t) = some k) ∧
          Done B a Nowhere Nowhere s ((s.holding B a).take (.balance t) n) s')
      (fun _ => False) s := by
  refine withAsset_work hs (fun hnone => ⟨fun e _ => ⟨?_, hs.done⟩, by simp⟩)
    fun q s1 ao hw hobj hview hhold hao => ?_
  · rw [holding_of_none hnone]
    rfl
  unfold subToken
  simp only [wp_bind, wp_asset_of hao]
  rcases hbal : ao.balance.lookup t with _ | _
  · refine ⟨fun e _ => ⟨?_, hw.unmoved hobj hhold⟩, by simp⟩
    rw [← hhold]
    exact holdOf_amount_none hao hbal
  refine wp_seq (hw.takeToken (.balance t) hv hview hao hbal (.inl rfl) (clears_balance t) rfl)
    fun _ s2 h => ⟨(by simp), fun metadata hmeta => ?_⟩
  cases hmeta
  exact h

/-- The end of `AddBalance`. -/
theorem storeMetaData_spec (hw : Work a V D s0 s q) (hhold : s.heap.holdOf q = H)
    (hm : ∀ x, metadata = some x → D (t, x) ∧ s0.heap.metas.Has x) :
    wp (storeMetaData a t metadata q)
      (fun r s' => r = none ∧ Done B a V D s0 H s') (fun _ => False) s := by
  rcases metadata with _ | m
  · exact ⟨rfl, hw.done hhold⟩
  obtain ⟨hD, hhas⟩ := hm m rfl
  obtain ⟨ao, hao⟩ := hw.read
  let f : AssetObject → AssetObject := fun ao =>
    { ao with tokenMetaData := ao.tokenMetaData.insert t m }
  have hset : Work a V D s0 (s.setAsset q f) q := by
    refine hw.setAsset (.balance t) t fun b _ => ⟨fun _ _ hx => .inl hx, fun t' x hx => ?_⟩
    rcases GoMap.of_lookup_insert hx with ⟨rfl, rfl⟩ | hold
    · exact .inr ⟨rfl, hw.metas.has hhas, .inr ⟨hhas, hD⟩⟩
    · exact .inl hold
  refine ⟨rfl, hset.done ?_⟩
  have hstep := holdOf_setAsset (h := s.heap) hao f
  exact hstep.trans ((holdOf_eq hao).symm.trans hhold)

section

variable {A C : Type} (g : Purse → Option A) (t : TokenID) {x : A} {c : C} {r : A → Option C}
  (hx : r x = some c)
include hx

theorem ite_some_bind (p : Prop) [Decidable p] :
    (if p then some x else none).bind r = if p then some c else none := by
  split
  case isTrue => exact hx
  case isFalse => rfl

theorem soleBalance_bind : (fun pl => (Purse.soleBalance g t x pl).bind r) =
    Purse.soleBalance (fun pl => (g pl).bind r) t c := by
  funext pl
  cases pl with
  | balance t' => exact ite_some_bind hx (t' = t)
  | lockup id' t' => rfl
  | mandate id' t' => rfl

theorem soleMandate_bind (id : Identifier) : (fun pl => (Purse.soleMandate g id t x pl).bind r) =
    Purse.soleMandate (fun pl => (g pl).bind r) id t c := by
  funext pl
  cases pl with
  | balance t' => rfl
  | lockup id' t' => rfl
  | mandate id' t' => exact ite_some_bind hx (id' = id ∧ t' = t)

end

/-- `AddBalance` from the asset object on. -/
theorem addToken_spec (hw : Work a Nowhere Nowhere s0 s q) (hhold : s.heap.holdOf q = H)
    (hv : s0.heap.Carries v n) (hm : ∀ x, metadata = some x → s0.heap.metas.Has x) :
    wp (addToken a t v metadata q)
      (fun r s' => r = none ∧
        Done B a (· = v) (fun d => d.1 = t ∧ metadata = some d.2) s0 (H.credit t n) s')
      (fun _ => False) s := by
  obtain ⟨ao, hao⟩ := hw.read
  have hcarries := hw.carries hv id
  have hw' : Work a (· = v) (fun d => d.1 = t ∧ metadata = some d.2) s0 s q :=
    hw.mono (fun _ h => h.elim) fun _ h => h.elim
  unfold addToken
  simp only [wp_bind, wp_asset_of hao]
  cases hbal : ao.balance.lookup t with
  | none =>
    -- the map of balances is made anew
    let f : AssetObject → AssetObject := fun ao => { ao with balance := AList.singleton t v }
    have hset : Work a (· = v) (fun d => d.1 = t ∧ metadata = some d.2) s0 (s.setAsset q f) q := by
      refine hw'.setAsset (.balance t) t fun b _ => ⟨fun pl x hx => ?_, fun _ x hx => .inl hx⟩
      rw [show (f b).amountAt = _ from amountAt_soleBalance] at hx
      cases pl with
      | balance t' =>
        simp only [Purse.soleBalance] at hx
        split at hx
        case isTrue ht =>
          cases hx
          exact .inr ⟨ht ▸ rfl, hcarries.loose, .inr rfl⟩
        case isFalse => cases hx
      | lockup id' t' => exact .inl hx
      | mandate id' t' => exact .inl hx
    refine storeMetaData_spec hset ?_ fun x hx => ⟨⟨rfl, hx⟩, hm x hx⟩
    refine (holdOf_setAsset (h := s.heap) hao f).trans ?_
    have hnone : H.amount (.balance t) = none := hhold ▸ holdOf_amount_none hao hbal
    rw [show (f ao).amountAt = _ from amountAt_soleBalance,
      soleBalance_bind _ t hcarries.value, credit, hnone, ← hhold, holdOf_eq hao]
    rfl
  | some bal =>
    obtain ⟨k, hk, hamount⟩ := hw.amount_some (.balance t) hao hbal
    have hown : s0.OwnAmount a bal ∨ ¬ s0.heap.amounts.Has bal :=
      (hw.own ao (.balance t) bal hao hbal).imp id fun h => h.elim id False.elim
    simp only [wp_bind, wp_amount_of hk, wp_amount_of hcarries.value, wp_setAmount]
    refine storeMetaData_spec (hw'.setAmount hown _) ?_ fun x hx => ⟨⟨rfl, hx⟩, hm x hx⟩
    refine (hw.separate.holdOf_setAmount hao (.balance t) hbal (k + n)).trans ?_
    rw [credit, ← hhold, hamount]

section

variable (hpend : s.object.pendingAsset a = none) (hcom : committedAsset B s.object a = .error e)
include hpend hcom

/-- A new object put into the transaction of an account that has none. -/
theorem insertNewAssetObject_of_none :
    insertNewAssetObject B a q s = (.ok none, s.insertAsset a q) := by
  have hget : getAssetObject B a true s = (.ok (.error e), s) := by
    refine (bind_of_ok (x := Proc.self) rfl).trans ?_
    simp only [if_true, hpend, hcom]
    rfl
  exact (bind_of_ok hget).trans rfl

end

theorem holdOf_newAsset (s : Receiver) (properties : Option AssetDescriptor) :
    (s.newAsset (.new properties)).heap.holdOf (s.heap.assets.alloc (.new properties)).1 =
      ⟨fun _ => none, properties.map fun d => ⟨d.circulatingSupply, d.maxSupply⟩⟩ := by
  refine (holdOf_eq read_alloc_new).trans ?_
  refine congrArg (Holding.mk · _) (funext fun pl => ?_)
  rw [amountAt_new]
  rfl

section

variable (hs : s.Sound) (hobj : s'.object = s.object) (hi : s.heap.Idle s'.heap)
include hs hobj hi

/-- What is seen does not change while nothing happens. -/
theorem Receiver.Sound.assetView_idle (b : AssetID) : s'.assetView B b = s.assetView B b := by
  unfold assetView
  rw [hobj]
  cases hpend : s.object.pendingAsset b with
  | none => rfl
  | some q => exact hi.viewAsset hs.separate (hs.pending b q hpend)

theorem Receiver.Sound.idle : Done B a V D s (s.holding B a) s' := by
  refine ⟨.inl ⟨hobj, hi⟩, ?_⟩
  unfold holding
  rw [hs.assetView_idle hobj hi]

theorem Receiver.Sound.of_idle : s'.Sound :=
  ⟨hi.separate, fun b q hq => hi.kept.assets.has (hs.pending b q (hobj ▸ hq))⟩

end

/-- **`AddBalance`.** -/
theorem addBalance_spec (hs : s.Sound) (hv : s.heap.Carries v n)
    (hm : ∀ x, metadata = some x → s.heap.metas.Has x) :
    wp (addBalance B a t v metadata)
      (fun r s' => r = none ∧
        Done B a (· = v) (fun d => d.1 = t ∧ metadata = some d.2) s ((s.holding B a).credit t n) s')
      (fun _ => False) s := by
  refine wp_seq (getAssetObject_work hs) fun r s1 hr => ?_
  rcases r with e | q
  swap
  · obtain ⟨hw, -, hview, -⟩ := hr.2 q rfl
    exact addToken_spec hw (holdOf_of_view hview) hv hm
  obtain ⟨rfl, hpend, hcom⟩ := hr.1 e rfl
  simp only [wp_bind, wp_newAsset]
  have hw : Work a Nowhere Nowhere s1 (s1.newAsset (.new none)) _ :=
    .created hs.separate hpend none
  have hempty : s1.holding B a = .empty := by
    refine holding_of_none ?_
    rw [assetView, hpend, hcom]
    rfl
  have hhold := (holdOf_newAsset s1 none).trans hempty.symm
  have hins := insertNewAssetObject_of_none (s := s1.newAsset (.new none)) (B := B)
    (q := (s1.heap.assets.alloc (.new none)).1) hpend hcom
  unfold wp
  rw [hins]
  exact addToken_spec hw.link hhold hv hm

/-- **`CreateAsset`.** -/
theorem createAsset_spec {descriptor : AssetDescriptor} (hs : s.Sound) :
    wp (createAsset B descriptor)
      (fun r s' => (∀ e, r = some e → Done B descriptor.assetID Nowhere Nowhere s
          (s.holding B descriptor.assetID) s') ∧
        (r = none → s.holding B descriptor.assetID = .empty ∧
          Done B descriptor.assetID Nowhere Nowhere s
            ⟨fun _ => none, some ⟨descriptor.circulatingSupply, descriptor.maxSupply⟩⟩ s'))
      (fun _ => False) s := by
  have hi : s.heap.Idle (s.newAsset (.new (some descriptor))).heap := .newEmpty hs.separate _
  unfold createAsset insertNewAssetObject
  simp only [wp_bind, wp_newAsset]
  refine wp_post (getAssetObject_work (hs.of_idle rfl hi)) fun r s1 hr => ?_
  rcases r with e | q
  swap
  · obtain ⟨-, hobj, -, hi1⟩ := hr.2 q rfl
    exact ⟨fun _ _ => hs.idle hobj (hi.trans hi1), by simp⟩
  obtain ⟨rfl, hpend, hcom⟩ := hr.1 e rfl
  refine ⟨(by simp), fun _ => ⟨holding_of_none ?_, ?_⟩⟩
  · rw [assetView, show s.object.pendingAsset _ = none from hpend,
      show committedAsset B s.object _ = _ from hcom]
    rfl
  · exact (Work.created hs.separate hpend (some descriptor)).done (holdOf_newAsset s _)

theorem clears_lockup (id : Identifier) (t : TokenID) : Clears (.lockup id t) fun ao =>
    deleteTokenMetadata { ao with lockup := dropReserved ao.lockup id t } t where
  amounts := fun _ =>
    amountAt_deleteTokenMetadata.trans (amountAt_setLockup fun _ _ => at?_dropReserved_eq)
  supply := fun _ => supply_deleteTokenMetadata
  metas := fun _ _ _ hx => (of_lookup_deleteTokenMetadata hx :)

variable {id : Identifier}

/-- **`ReleaseLockup`.** -/
theorem releaseLockup_spec (hs : s.Sound) (hv : s.heap.Carries v n) :
    wp (releaseLockup B a t id v)
      (fun r s' => (∀ e, r = .error e → Still B a s s') ∧
        ∀ metadata, r = .ok metadata → (∀ x, metadata = some x → HandsOut B a t s s' x) ∧
          (∃ k, (s.holding B a).amount (.lockup id t) = some k) ∧
          Done B a Nowhere Nowhere s ((s.holding B a).take (.lockup id t) n) s')
      (Touched a Nowhere Nowhere s) s := by
  refine withAsset_work hs (fun _ => ⟨fun _ _ => hs.done, by simp⟩)
    fun q s1 ao hw hobj hview hhold hao => ?_
  simp only [wp_bind, wp_asset_of hao]
  rcases hlock : ao.lockup.at? id t with _ | lockup
  · exact .inr ⟨q, hw⟩
  have hheld : ao.amountAt (.lockup id t) = some lockup.amount := by
    rw [amountAt, hlock]
    rfl
  refine wp_seq_total (hw.takeToken (.lockup id t) hv hview hao hheld (.inr ⟨id, rfl⟩)
    (clears_lockup id t) rfl) fun _ s2 h => ⟨(by simp), fun metadata hmeta => ?_⟩
  cases hmeta
  exact h

theorem clears_mandate (id : Identifier) (t : TokenID) : Clears (.mandate id t) fun ao =>
    { ao with mandate := dropReserved ao.mandate id t } where
  amounts := fun _ => amountAt_setMandate fun _ _ => at?_dropReserved_eq
  supply := fun _ => rfl
  metas := fun _ _ _ hx => hx

/-- **`SubMandateBalance`.** -/
theorem subMandateBalance_spec (hs : s.Sound) (hv : s.heap.Carries v n) :
    wp (subMandateBalance B a t id v)
      (fun r s' => (∀ e, r = .error e → Still B a s s') ∧
        (r = .ok () → (∃ k, (s.holding B a).amount (.mandate id t) = some k) ∧
          (s'.assetView B a).map (·.tokenMetaData) = (s.assetView B a).map (·.tokenMetaData) ∧
          Done B a Nowhere Nowhere s ((s.holding B a).take (.mandate id t) n) s'))
      (fun _ => False) s := by
  refine withAsset_work hs (fun _ => ⟨fun _ _ => hs.done, by simp⟩)
    fun q s1 ao hw hobj hview hhold hao => ?_
  simp only [wp_bind, wp_asset_of hao]
  rcases hman : ao.mandate.at? id t with _ | mandate
  · exact ⟨fun _ _ => hw.unmoved hobj hhold, by simp⟩
  have hheld : ao.amountAt (.mandate id t) = some mandate.amount := by
    rw [amountAt, hman]
    rfl
  obtain ⟨k, -, hk⟩ := hw.amount_some (.mandate id t) hao hheld
  simp only [wp_bind]
  refine wp_post (takeAmount_work (.mandate id t) hw hv hao hheld (clears_mandate id t))
    fun _ s2 h => ?_
  obtain ⟨hw2, -, hmetas, hhold2, ao2, hao2, hcase⟩ := h
  refine ⟨(by simp), fun _ => ⟨⟨k, hhold ▸ hk⟩, ?_, hw2.done (hhold ▸ hhold2)⟩⟩
  have hsame : ao2.tokenMetaData = ao.tokenMetaData := by
    rcases hcase with rfl | rfl <;> rfl
  rw [← hview, assetView, pendingAsset_insert, if_pos rfl]
  show ((s2.heap.assets.read q).map _).map _ = ((s1.heap.assets.read q).map _).map _
  rw [hao2, hao]
  show some (ao2.tokenMetaData.filterMap fun _ p => s2.heap.metas.read p) =
    some (ao.tokenMetaData.filterMap fun _ p => s1.heap.metas.read p)
  rw [hsame, hmetas]

/-- **`DeleteMandate`.** -/
theorem deleteMandate_spec (hs : s.Sound) : wp (deleteMandate B a t id)
    (fun r s' => (∀ e, r = .error e → Still B a s s') ∧
      (r = .ok () → Done B a Nowhere Nowhere s ((s.holding B a).revoke id t) s'))
    (fun _ => False) s := by
  refine withAsset_work hs (fun _ => ⟨fun _ _ => hs.done, nofun⟩)
    fun q s1 ao hw hobj hview hhold hao => ?_
  have hz := clears_mandate id t
  refine ⟨nofun, fun _ => ?_⟩
  refine (hw.setAsset (.mandate id t) t fun b _ => ⟨fun _ _ hx => .inl (hz.of_amountAt hx),
    fun _ x hx => .inl hx⟩).done ?_
  refine (holdOf_update hao (hz.amounts ao) (hz.supply ao)).trans ?_
  rw [hhold]
  rfl

theorem clears_locked (t : TokenID) : Clears (.balance t) fun ao =>
    { ao with balance := ao.balance.erase t } where
  amounts := fun _ => amountAt_eraseBalance
  supply := fun _ => rfl
  metas := fun _ _ _ hx => hx

/-- An amount that the account has not kept before, put at a place. -/
theorem Work.put (hw : Work a V D s0 s q) (pl : Purse) (hao : s.heap.assets.read q = some ao)
    (hx : s.heap.Carries x k) (hnew : ¬ s0.heap.amounts.Has x ∨ V x)
    (hf : (f ao).amountAt = update ao.amountAt pl (some x))
    (hsupply : (f ao).supply = ao.supply) (hmetas : (f ao).tokenMetaData = ao.tokenMetaData) :
    Work a V D s0 (s.setAsset q f) q ∧ (s.setAsset q f).heap.holdOf q =
      ⟨update (s.heap.holdOf q).amount pl (some k), (s.heap.holdOf q).supply⟩ := by
  refine ⟨hw.setAsset pl 0 fun b hb => ⟨fun pl' y hy => ?_, fun _ y hy => .inl ?_⟩, ?_⟩
  · obtain rfl := mem_unique hb hao
    rw [hf] at hy
    by_cases hpl : pl' = pl
    · rw [hpl, update_self] at hy
      cases hy
      exact .inr ⟨hpl, hx.loose, hnew⟩
    · rw [update_of_ne hpl] at hy
      exact .inl hy
  · obtain rfl := mem_unique hb hao
    exact hmetas ▸ hy
  · refine (holdOf_update hao hf hsupply).trans ?_
    rw [bind_some, hx.value]

/-- A new amount is loose. -/
theorem Work.newAmount_carries (hw : Work a V D s0 s q) (k : Int) :
    (s.newAmount k).heap.Carries (s.heap.amounts.alloc k).1 k ∧
      ¬ s0.heap.amounts.Has (s.heap.amounts.alloc k).1 := by
  have hnew : ¬ s.heap.amounts.Has (s.heap.amounts.alloc k).1 := not_has_alloc k
  refine ⟨⟨⟨has_alloc.mpr (.inr rfl), fun q' b pl hb hx => hnew ?_⟩, read_alloc_new⟩,
    fun h => hnew (hw.amounts.has h)⟩
  exact (hw.separate.closed q' b hb).amounts _ (mem_amounts.mpr ⟨pl, hx⟩)

theorem Heap.holdOf_newAmount (hs : h.Separate) (hq : h.assets.Has q) (k : Int) :
    ({ h with amounts := (h.amounts.alloc k).2 } : Heap).holdOf q = h.holdOf q := by
  obtain ⟨ao, hao⟩ := has_iff_read.mp hq
  have hkept : h.Kept { h with amounts := (h.amounts.alloc k).2 } :=
    ⟨.new _ k, .refl _, .refl _⟩
  have hview := hkept.viewObject (hs.closed q ao hao)
  unfold holdOf viewAsset
  simp [hao, hview]

/-- The end of `CreateLockup`. -/
theorem addLockup_spec {lockup : Reserved (Ptr Int)} (hw : Work a Nowhere Nowhere s0 s q)
    (hv : s0.heap.Carries v n) (hao : s.heap.assets.read q = some ao) (hlockup : ao.lockup = lockup)
    (hhold : s.heap.holdOf q = H) :
    wp (addLockup a t id v q lockup)
      (fun r s' => r = .ok () ∧ Done B a (· = v) Nowhere s0 (H.lock id t n) s')
      (Touched a Nowhere Nowhere s0) s := by
  subst hlockup
  have hcarries := hw.carries hv fun h => h
  have hw' : Work a (· = v) Nowhere s0 s q := hw.mono (fun _ h => h.elim) fun _ h => h
  have hlock : ∀ k, (s.heap.holdOf q).amount (.lockup id t) = k → ∀ s' : Receiver,
      s'.heap.holdOf q = ⟨update (s.heap.holdOf q).amount (.lockup id t)
        (some (k.getD 0 + n)), (s.heap.holdOf q).supply⟩ → s'.heap.holdOf q = H.lock id t n := by
    intro k hk s' hs'
    rw [hs', lock, ← hhold, hk]
  unfold addLockup
  cases hid : ao.lockup.lookup id with
  | none =>
    have hat : ao.lockup.at? id t = none := by
      rw [at?, hid]
      rfl
    have hnone : (s.heap.holdOf q).amount (.lockup id t) = none := by
      refine holdOf_amount_none hao ?_
      rw [amountAt, hat]
      rfl
    obtain ⟨hput, hafter⟩ := hw'.put (.lockup id t) hao hcarries (.inr rfl)
      (f := fun ao => { ao with lockup := ao.lockup.insert id (AList.singleton t ⟨v, 0⟩) })
      (amountAt_setLockup fun _ _ => at?_insert_new hid) rfl rfl
    refine ⟨rfl, hput.done (hlock none hnone _ ?_)⟩
    rw [hafter, getD_none, Int.zero_add]
  | some lockups =>
    rcases hlook : lockups.lookup t with _ | lockup
    · simp only [hlook]
      exact .inr ⟨q, hw⟩
    have hheld : ao.amountAt (.lockup id t) = some lockup.amount := by
      rw [amountAt, at?, hid, bind_some, hlook]
      rfl
    obtain ⟨k, hk, hamount⟩ := hw.amount_some (.lockup id t) hao hheld
    simp only [hlook, wp_bind, wp_amount_of hk, wp_amount_of hcarries.value,
      wp_newAmount, wp_setAsset, wp_updateAssetTree, wp_pure]
    obtain ⟨hnew, hfresh⟩ := hw'.newAmount_carries (k + n)
    obtain ⟨hput, hafter⟩ := (hw'.newAmount (k + n)).put (.lockup id t) hao hnew (.inl hfresh)
      (f := fun ao => { ao with
        lockup := ao.lockup.modify id
          (·.insert t ⟨(s.heap.amounts.alloc (k + n)).1, lockup.expiresAt⟩) })
      (amountAt_setLockup fun _ _ => at?_modify_insert hid) rfl rfl
    refine ⟨trivial, hput.done (hlock (some k) hamount _ ?_)⟩
    rw [hafter, show (s.newAmount (k + n)).heap.holdOf q = s.heap.holdOf q from
      holdOf_newAmount hw.separate hw.here _]
    rfl

/-- **`CreateLockup`.** It panics if the beneficiary has lockups of other tokens only. -/
theorem createLockup_spec (hs : s.Sound) (hv : s.heap.Carries v n) :
    wp (createLockup B a t id v)
      (fun r s' => (∀ e, r = .error e → Still B a s s') ∧
        (r = .ok () → Done B a (· = v) Nowhere s
          (((s.holding B a).take (.balance t) n).lock id t n) s'))
      (Touched a Nowhere Nowhere s) s := by
  refine withAsset_work hs (fun _ => ⟨fun _ _ => hs.done, by simp⟩)
    fun q s1 ao hw hobj hview hhold hao => ?_
  simp only [wp_bind, wp_asset_of hao]
  rcases hbal : ao.balance.lookup t with _ | _
  · exact ⟨fun _ _ => hw.unmoved hobj hhold, by simp⟩
  refine wp_seq_total (takeAmount_work (.balance t) hw hv hao hbal (clears_locked t))
    fun _ s2 h => ?_
  obtain ⟨hw2, -, -, hhold2, ao2, hao2, hcase⟩ := h
  have hlockup : ao2.lockup = ao.lockup := by
    rcases hcase with rfl | rfl <;> rfl
  refine wp_post (addLockup_spec (B := B) hw2 hv hao2 hlockup (hhold ▸ hhold2))
    fun r s3 h => ?_
  obtain ⟨rfl, hdone⟩ := h
  exact ⟨(by simp), fun _ => hdone⟩

/-- A mandate put under the token of an account that has mandates. -/
theorem putMandate_spec {mandates : GoMap TokenID (AmountWithExpiry (Ptr Int))}
    (hw : Work a (· = v) Nowhere s0 s q) (hao : s.heap.assets.read q = some ao)
    (hid : ao.mandate.lookup id = some mandates) (hx : s.heap.Carries x k)
    (hnew : ¬ s0.heap.amounts.Has x ∨ x = v) :
    Done B a (· = v) Nowhere s0
      ⟨update (s.heap.holdOf q).amount (.mandate id t) (some k), (s.heap.holdOf q).supply⟩
      ((s.setAsset q fun ao => { ao with
        mandate := ao.mandate.modify id (·.insert t ⟨x, expiresAt⟩) }).insertAsset a q) := by
  obtain ⟨hput, hafter⟩ := hw.put (.mandate id t) hao hx hnew
    (f := fun ao => { ao with mandate := ao.mandate.modify id (·.insert t ⟨x, expiresAt⟩) })
    (amountAt_setMandate fun _ _ => at?_modify_insert hid) rfl rfl
  exact hput.done hafter

/-- **`CreateMandate`.** -/
theorem createMandate_spec (hs : s.Sound) (hv : s.heap.Carries v n) :
    wp (createMandate B a t id v expiresAt)
      (fun r s' => (∀ e, r = .error e → Still B a s s') ∧
        (r = .ok () → ∃ H, (s.holding B a).Approved id t n H ∧ Done B a (· = v) Nowhere s H s'))
      (fun _ => False) s := by
  refine withAsset_work hs (fun _ => ⟨fun _ _ => hs.done, by simp⟩)
    fun q s1 ao hw hobj hview hhold hao => ?_
  have hcarries := hw.carries hv fun h => h
  have hw' : Work a (· = v) Nowhere s s1 q := hw.mono (fun _ h => h.elim) fun _ h => h
  simp only [wp_bind, wp_asset_of hao]
  cases hid : ao.mandate.lookup id with
  | none =>
    -- the map of mandates is made anew
    refine ⟨(by simp), fun _ => ⟨_, .inr rfl, ?_⟩⟩
    let f : AssetObject → AssetObject := fun ao =>
      { ao with mandate := AList.singleton id (AList.singleton t ⟨v, expiresAt⟩) }
    have hset : Work a (· = v) Nowhere s (s1.setAsset q f) q := by
      refine hw'.setAsset (.mandate id t) t fun b _ => ⟨fun pl x hx => ?_, fun _ x hx => .inl hx⟩
      rw [show (f b).amountAt = _ from amountAt_soleMandate] at hx
      cases pl with
      | balance t' => exact .inl hx
      | lockup id' t' => exact .inl hx
      | mandate id' t' =>
        simp only [Purse.soleMandate] at hx
        split at hx
        case isTrue h =>
          cases hx
          exact .inr ⟨by rw [h.1, h.2], hcarries.loose, .inr rfl⟩
        case isFalse => cases hx
    refine hset.done ((holdOf_setAsset (h := s1.heap) hao f).trans ?_)
    rw [show (f ao).amountAt = _ from amountAt_soleMandate,
      soleMandate_bind _ t hcarries.value id, ← hhold, holdOf_eq hao]
    rfl
  | some mandates =>
    rcases hlook : mandates.lookup t with _ | mandate
    · have hnone : (s.holding B a).amount (.mandate id t) = none := by
        rw [← hhold]
        refine holdOf_amount_none hao ?_
        rw [amountAt, at?, hid, bind_some, hlook]
        rfl
      simp only [hlook]
      refine ⟨(by simp), fun _ => ⟨_, .inl rfl, ?_⟩⟩
      rw [hnone, getD_none, Int.zero_add, ← hhold]
      exact putMandate_spec hw' hao hid hcarries (.inr rfl)
    have hheld : ao.amountAt (.mandate id t) = some mandate.amount := by
      rw [amountAt, at?, hid, bind_some, hlook]
      rfl
    obtain ⟨k, hk, hamount⟩ := hw.amount_some (.mandate id t) hao hheld
    simp only [hlook, wp_bind, wp_amount_of hk, wp_amount_of hcarries.value,
      wp_newAmount, wp_setAsset, wp_updateAssetTree, wp_pure]
    obtain ⟨hnew, hfresh⟩ := hw'.newAmount_carries (k + n)
    refine ⟨(by simp), fun _ => ⟨_, .inl rfl, ?_⟩⟩
    rw [← hhold, hamount, getD_some, ← show (s1.newAmount (k + n)).heap.holdOf q =
      s1.heap.holdOf q from holdOf_newAmount hw.separate hw.here _]
    exact putMandate_spec (hw'.newAmount _) hao hid hnew (.inl hfresh)

/-! ## 5. Supply and metadata -/

/-- An update of the properties of the object. -/
theorem setProperties_spec {f : AssetDescriptor → AssetDescriptor} (hw : Work a V D s0 s q) :
    wp (setProperties q f)
      (fun _ s' => Work a V D s0 s' q ∧ s'.object = s.object ∧ ∃ d,
        (s.heap.holdOf q).supply = some ⟨d.circulatingSupply, d.maxSupply⟩ ∧
        s'.heap.holdOf q =
          ⟨(s.heap.holdOf q).amount, some ⟨(f d).circulatingSupply, (f d).maxSupply⟩⟩)
      (fun s' => s' = s) s := by
  obtain ⟨ao, hao⟩ := hw.read
  unfold setProperties
  simp only [wp_bind, wp_asset_of hao, wp_ofGo, wp_setAsset]
  refine ⟨fun d hd => ?_, fun _ _ => trivial⟩
  have hprops : ao.properties = some d := by
    rcases hp : ao.properties with _ | _
    · rw [hp] at hd
      cases hd
    rw [hp] at hd
    cases hd
    rfl
  refine ⟨hw.setAsset (.balance 0) 0 fun _ _ => ⟨fun _ _ hx => .inl hx, fun _ _ hx => .inl hx⟩, rfl,
    d, ?_, ?_⟩
  · rw [holdOf_eq hao]
    show ao.properties.map _ = _
    rw [hprops]
    rfl
  refine (holdOf_setAsset (h := s.heap) hao _).trans ?_
  rw [holdOf_eq hao]
  rw [hprops]
  rfl

/-- **`MintAsset`.** The supply that was raised is seen only if the object was pending. -/
theorem mintAsset_spec (hs : s.Sound) (hv : s.heap.Carries v n) :
    wp (mintAsset B a v)
      (fun r s' => (∀ e, r = .error e → Still B a s s') ∧
        (r = .ok () → (s.object.pendingAsset a = none →
            Still B a s s') ∧
          (s.object.pendingAsset a ≠ none →
            Done B a Nowhere Nowhere s ((s.holding B a).issue n) s')))
      (Touched a Nowhere Nowhere s) s := by
  refine withAsset_work hs (fun _ => ⟨fun _ _ => hs.done, by simp⟩)
    fun q s1 _ hw hobj hview hhold _ => ?_
  simp only [wp_bind, wp_amount_of (hw.carries hv fun h => h).value, wp_pure]
  refine wp_mono (setProperties_spec hw) (fun _ s2 h => ?_) fun s2 h => h ▸ .inr ⟨q, hw⟩
  obtain ⟨hw2, hobj2, d, hsupply, hhold2⟩ := h
  have hobj' : s2.object = s.object := hobj2.trans hobj
  refine ⟨(by simp), fun _ => ⟨fun hnone => ⟨.inr ⟨q, hw2⟩, ?_⟩,
    fun hsome => ⟨.inr ⟨q, hw2⟩, ?_⟩⟩⟩
  · unfold Receiver.holding Receiver.assetView
    rw [hobj', hnone]
  have hpend : s2.object.pendingAsset a = some q := by
    rw [hobj']
    exact hw.fetched.elim (fun h => h) fun h => absurd h.1 hsome
  rw [holding_of_pending hpend, hhold2, issue, ← hhold, hsupply]
  rfl

/-- **`BurnAsset`.** -/
theorem burnAsset_spec (hs : s.Sound) (hv : s.heap.Carries v n) :
    wp (burnAsset B a v)
      (fun r s' => (∀ e, r = .error e → s.assetView B a = none ∧ Touched a Nowhere Nowhere s s') ∧
        (r = .ok () → Done B a Nowhere Nowhere s ((s.holding B a).issue (-n)) s'))
      (Touched a Nowhere Nowhere s) s := by
  refine withAsset_work hs
    (fun hnone => ⟨fun _ _ => ⟨hnone, .inl ⟨rfl, .refl hs.separate⟩⟩, by simp⟩)
    fun q s1 _ hw hobj hview hhold _ => ?_
  simp only [wp_bind, wp_amount_of (hw.carries hv fun h => h).value, wp_updateAssetTree, wp_pure]
  refine wp_mono (setProperties_spec hw) (fun _ s2 h => ?_) fun s2 h => h ▸ .inr ⟨q, hw⟩
  obtain ⟨hw2, -, d, hsupply, hhold2⟩ := h
  refine ⟨(by simp), fun _ => hw2.done (hhold2.trans ?_)⟩
  rw [issue, ← hhold, hsupply]
  rfl

/-- However the call ends, the account holds what it held. -/
abbrev HoldsStill {A : Type} (B : Backend) (a : AssetID) (x : Method A) (s : Receiver) : Prop :=
  leaves x (Still B a s) s

/-- **`SetAssetMetadata`.** -/
theorem setAssetMetadata_spec (hs : s.Sound) :
    HoldsStill B a (setAssetMetadata B a isStatic key value) s := by
  refine withAsset_work hs (fun _ => hs.done) fun q s1 _ hw hobj hview hhold _ => ?_
  have hlink := hw.done (B := B) hhold
  -- an update that leaves the supply alone
  have hset : ∀ f : AssetDescriptor → AssetDescriptor,
      (∀ d, (f d).circulatingSupply = d.circulatingSupply ∧ (f d).maxSupply = d.maxSupply) →
      leaves (setProperties q f) (Still B a s) (s1.insertAsset a q) := by
    intro f hf
    refine wp_mono (setProperties_spec hw.link) (fun _ s2 h => ?_) fun s2 h => h ▸ hlink
    obtain ⟨hw2, hobj2, d, hsupply, hhold2⟩ := h
    refine ⟨.inr ⟨q, hw2⟩, ?_⟩
    have hpend : s2.object.pendingAsset a = some q := by
      rw [hobj2, pendingAsset_insert, if_pos rfl]
    rw [holding_of_pending hpend, hhold2, (hf d).1, (hf d).2, ← hsupply]
    exact hhold
  simp only [wp_bind, wp_updateAssetTree, wp_asset, wp_ofGo, wp_ite, wp_pure]
  exact ⟨fun ao _ => ⟨fun d _ => ⟨fun _ => ⟨fun _ => hlink, fun _ => hset _ fun _ => ⟨rfl, rfl⟩⟩,
    fun _ => hset _ fun _ => ⟨rfl, rfl⟩⟩, fun _ _ => hlink⟩, fun _ => hlink⟩

/-- Metadata of the token changed in place. -/
theorem updateTokenMetaData_spec {x : Ptr MetaData} (hw : Work a V D s0 s q)
    (hpend : s.object.pendingAsset a = some q) (hhold : s.heap.holdOf q = H)
    (hx : (∃ u, s0.OwnMeta a u x) ∨ ¬ s0.heap.metas.Has x) :
    leaves (updateTokenMetaData x isStatic key value) (Done B a V D s0 H) s := by
  have hsame : Done B a V D s0 H s :=
    ⟨.inr ⟨q, hw⟩, (holding_of_pending hpend).trans hhold⟩
  have hset : ∀ m, Done B a V D s0 H (s.setMetaData x m) := by
    intro m
    refine ⟨.inr ⟨q, hw.setMetaData hx m⟩,
      (holding_of_pending (s := s.setMetaData x m) hpend).trans ?_⟩
    obtain ⟨_, hao⟩ := hw.read
    rw [← hhold, holdOf_eq hao]
    exact holdOf_eq hao
  unfold updateTokenMetaData
  simp only [wp_bind, wp_metaData, wp_ofGo, wp_ite, wp_setMetaData, wp_pure]
  exact ⟨fun d _ => ⟨fun _ => ⟨fun _ => hsame, fun _ => ⟨fun _ _ => hset _, fun _ _ => hsame⟩⟩,
    fun _ => ⟨fun _ _ => hset _, fun _ _ => hsame⟩⟩, fun _ => hsame⟩

/-- **`SetTokenMetadata`.** -/
theorem setTokenMetadata_spec (hs : s.Sound) :
    HoldsStill B a (setTokenMetadata B a t isStatic key value) s := by
  refine withAsset_work hs (fun _ => hs.done) fun q s1 ao hw hobj hview hhold hao => ?_
  have hpend : (s1.insertAsset a q).object.pendingAsset a = some q := by
    rw [pendingAsset_insert, if_pos rfl]
  simp only [wp_bind, wp_asset_of hao, wp_ite, wp_updateAssetTree, wp_pure]
  refine ⟨fun _ => ?_, fun _ => hw.unmoved hobj hhold⟩
  rcases hmeta : ao.tokenMetaData.lookup t with _ | x
  swap
  · refine updateTokenMetaData_spec hw.link hpend hhold ?_
    exact (hw.ownMeta ao t x hao hmeta).imp (fun h => ⟨t, h⟩)
      fun h => h.elim (fun h => h) False.elim
  have hfresh : ¬ s.heap.metas.Has (s1.heap.metas.alloc ⟨some ∅, some ∅⟩).1 := fun h =>
    not_has_alloc _ (hw.metas.has h)
  have hunused : ∀ t', ao.tokenMetaData.lookup t' ≠
      some (s1.heap.metas.alloc ⟨some ∅, some ∅⟩).1 := fun t' h =>
    not_has_alloc _ ((hw.separate.closed q ao hao).metas _ (mem_metas h))
  have hset := (hw.link.newMetaData ⟨some ∅, some ∅⟩).setAsset (.balance t) t
    (f := fun ao => { ao with
      tokenMetaData := ao.tokenMetaData.insert t (s1.heap.metas.alloc ⟨some ∅, some ∅⟩).1 })
    fun b hb => ⟨fun _ _ hx => .inl hx, fun t' x hx => by
      obtain rfl := mem_unique hao hb
      rcases GoMap.of_lookup_insert hx with ⟨rfl, rfl⟩ | hold
      · exact .inr ⟨rfl, has_alloc.mpr (.inr rfl), .inl ⟨hfresh, hunused⟩⟩
      · exact .inl hold⟩
  refine updateTokenMetaData_spec hset hpend ?_ (.inr hfresh)
  refine (holdOf_setAsset
    (h := ((s1.insertAsset a q).newMetaData ⟨some ∅, some ∅⟩).heap) hao _).trans ?_
  exact (holdOf_eq hao).symm.trans hhold

end

end GoMoi
