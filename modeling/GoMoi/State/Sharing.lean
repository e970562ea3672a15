/-
  File:      GoMoi/State/Sharing.lean
  Subject:   Which cells a method of a state object can change.

  `h₀` is the memory at some earlier moment, as when a snapshot was taken. A method writes in place
  to the asset object it fetched, to the amounts in it and to the metadata in it. If these are
  younger than `h₀` (`Receiver.Own`), the cells of `h₀` stay as they are; everything else a method
  does to memory is to allocate.

  * `Receiver.Good` -- closed memory in which the cells of `h₀` are kept; one lemma for each way to
    change a receiver;
  * `getAssetObject_good` and one lemma for each method: `Good` is kept, also by a call that panics.
    With the empty memory for `h₀` nothing is asked of the fetched object, and the lemmas say that
    memory stays closed.
-/
import GoMoi.State.Balance

namespace GoMoi

open Proc Cells Reserved GoMap List AssetOf Option

/-! ## 1. Closed memory -/

/-- The pointers in every asset object lead to cells. -/
def Heap.Closed (h : Heap) : Prop := ∀ p ao, h.assets.read p = some ao → ao.In h

/-- The pointers in the asset transaction lead to asset objects. -/
def Object.In (object : Object) (h : Heap) : Prop :=
  ∀ assetID p, object.pendingAsset assetID = some p → h.assets.Has p

/-- The pointers into `h` are pointers into `h'`. -/
structure Heap.Grown (h h' : Heap) : Prop where
  amounts : h.amounts.cells.length ≤ h'.amounts.cells.length
  metas : h.metas.cells.length ≤ h'.metas.cells.length
  assets : h.assets.cells.length ≤ h'.assets.cells.length

/-- Closed memory that keeps the cells of `h₀` and has grown out of `h₁`. -/
structure Receiver.Good (h₀ h₁ : Heap) (s : Receiver) : Prop where
  kept : h₀.Kept s.heap
  grown : h₁.Grown s.heap
  closed : s.heap.Closed
  object : s.object.In s.heap

/-- The asset object behind `p` and what it points to are younger than `h₀`. -/
structure Receiver.Own (h₀ : Heap) (s : Receiver) (p : Ptr AssetObject) : Prop where
  young : ¬ h₀.assets.Has p
  here : s.heap.assets.Has p
  apart : ∀ ao, s.heap.assets.read p = some ao → ao.Apart h₀

section

variable {ao : AssetObject} {h h' : Heap}

theorem AssetOf.In.mono (hao : ao.In h) (ha : ∀ p, h.amounts.Has p → h'.amounts.Has p)
    (hm : ∀ p, h.metas.Has p → h'.metas.Has p) : ao.In h' :=
  ⟨fun p hp => ha p (hao.amounts p hp), fun p hp => hm p (hao.metas p hp)⟩

theorem Object.In.mono {object : Object} (ho : object.In h)
    (hs : h.assets.cells.length ≤ h'.assets.cells.length) : object.In h' :=
  fun assetID p hp => Nat.lt_of_lt_of_le (ho assetID p hp) hs

end

theorem Heap.Grown.trans {h₁ h2 h3 : Heap} (a : h₁.Grown h2) (b : h2.Grown h3) : h₁.Grown h3 :=
  ⟨a.amounts.trans b.amounts, a.metas.trans b.metas, a.assets.trans b.assets⟩

theorem Heap.Kept.grown {h h' : Heap} (hk : h.Kept h') : h.Grown h' :=
  ⟨List.IsPrefix.length_le hk.amounts, List.IsPrefix.length_le hk.metas,
    List.IsPrefix.length_le hk.assets⟩

/-- An own asset object stays one while its cells are kept. -/
theorem Receiver.Own.kept {h₀ : Heap} {s s' : Receiver} {p : Ptr AssetObject} (hp : s.Own h₀ p)
    (hk : s.heap.Kept s'.heap) : s'.Own h₀ p where
  young := hp.young
  here := hk.assets.has hp.here
  apart := fun ao hao => hp.apart ao (by rw [← hk.assets.read_eq hp.here]; exact hao)

namespace Receiver.Good

variable {h₀ h₁ : Heap} {s : Receiver} {p : Ptr AssetObject} {f : AssetObject → AssetObject}

section

variable (hs : Good h₀ h₁ s)
include hs

theorem newAmount (k : Int) : Good h₀ h₁ (s.newAmount k) where
  kept := ⟨hs.kept.amounts.alloc k, hs.kept.metas, hs.kept.assets⟩
  grown := hs.grown.trans ⟨by simp [Receiver.newAmount, alloc], le_rfl, le_rfl⟩
  closed := fun p ao hao => (hs.closed p ao hao).mono
    (fun _ hp => has_alloc.mpr (.inl hp)) fun _ hp => hp
  object := hs.object

theorem setAmount {p : Ptr Int} (hp : ¬ h₀.amounts.Has p) (k : Int) :
    Good h₀ h₁ (s.setAmount p k) where
  kept := ⟨hs.kept.amounts.modify hp _, hs.kept.metas, hs.kept.assets⟩
  grown := hs.grown.trans ⟨by simp [Receiver.setAmount], le_rfl, le_rfl⟩
  closed := fun p ao hao => (hs.closed p ao hao).mono
    (fun _ hp => (has_modify _).mpr hp) fun _ hp => hp
  object := hs.object

theorem newMetaData (m : MetaData) : Good h₀ h₁ (s.newMetaData m) where
  kept := ⟨hs.kept.amounts, hs.kept.metas.alloc m, hs.kept.assets⟩
  grown := hs.grown.trans ⟨le_rfl, by simp [Receiver.newMetaData, alloc], le_rfl⟩
  closed := fun p ao hao => (hs.closed p ao hao).mono (fun _ hp => hp)
    fun _ hp => has_alloc.mpr (.inl hp)
  object := hs.object

theorem setMetaData {p : Ptr MetaData} (hp : ¬ h₀.metas.Has p) (m : MetaData) :
    Good h₀ h₁ (s.setMetaData p m) where
  kept := ⟨hs.kept.amounts, hs.kept.metas.modify hp _, hs.kept.assets⟩
  grown := hs.grown.trans ⟨le_rfl, by simp [Receiver.setMetaData], le_rfl⟩
  closed := fun p ao hao => (hs.closed p ao hao).mono (fun _ hp => hp)
    fun _ hp => (has_modify _).mpr hp
  object := hs.object

theorem newAsset {ao : AssetObject} (hao : ao.In s.heap) : Good h₀ h₁ (s.newAsset ao) where
  kept := ⟨hs.kept.amounts, hs.kept.metas, hs.kept.assets.alloc ao⟩
  grown := hs.grown.trans ⟨le_rfl, le_rfl, by simp [Receiver.newAsset, alloc]⟩
  closed := fun q ao' hq => by
    have hin : ao'.In s.heap := by
      rcases of_read_alloc hq with hold | ⟨-, rfl⟩
      · exact hs.closed q ao' hold
      · exact hao
    exact hin.mono (fun _ hp => hp) fun _ hp => hp
  object := hs.object.mono (by simp [Receiver.newAsset, alloc])

/-- A new asset object with no pointer in it. -/
theorem newEmptyAsset (properties : Option AssetDescriptor) :
    Good h₀ h₁ (s.newAsset (.new properties)) ∧ s.heap.Kept (s.newAsset (.new properties)).heap ∧
      (s.newAsset (.new properties)).Own h₀ (s.heap.assets.alloc (.new properties)).1 := by
  have hnone : ∀ h, (new properties : AssetObject).In h :=
    fun h => ⟨fun _ hp => (not_mem_nil hp).elim, fun _ hp => (not_mem_nil hp).elim⟩
  refine ⟨hs.newAsset (hnone _), ⟨.refl _, .refl _, .new _ _⟩,
    fun hp => Nat.lt_irrefl _ (hs.kept.assets.has hp), has_alloc.mpr (.inr rfl), fun ao hao => ?_⟩
  have hao' : ao = .new properties := mem_unique hao read_alloc_new
  subst hao'
  exact ⟨fun _ hp => (not_mem_nil hp).elim, fun _ hp => (not_mem_nil hp).elim⟩

theorem setAsset (hp : ¬ h₀.assets.Has p)
    (hf : ∀ ao, s.heap.assets.read p = some ao → (f ao).In s.heap) :
    Good h₀ h₁ (s.setAsset p f) where
  kept := ⟨hs.kept.amounts, hs.kept.metas, hs.kept.assets.modify hp f⟩
  grown := hs.grown.trans ⟨le_rfl, le_rfl, by simp [Receiver.setAsset]⟩
  closed := fun q ao hao => by
    have hread : (s.heap.assets.modify p f).read q = some ao := hao
    rw [read_modify] at hread
    split at hread
    case isTrue hq =>
      subst hq
      obtain ⟨ao0, h0, rfl⟩ := map_eq_some_iff.mp hread
      exact (hf ao0 h0).mono (fun _ hp => hp) fun _ hp => hp
    case isFalse => exact (hs.closed q ao hread).mono (fun _ hp => hp) fun _ hp => hp
  object := hs.object.mono (by simp [Receiver.setAsset])

theorem hasAmount {p : Ptr Int} (hp : h₁.amounts.Has p) :
    s.heap.amounts.Has p := Nat.lt_of_lt_of_le hp hs.grown.amounts

/-- An update that brings in no pointer to nowhere. -/
theorem update (hp : ¬ h₀.assets.Has p) (hf : ∀ ao, ao.In s.heap → (f ao).In s.heap) :
    Good h₀ h₁ (s.setAsset p f) :=
  hs.setAsset hp fun ao hao => hf ao (hs.closed p ao hao)

theorem insertAsset (hp : s.heap.assets.Has p) (assetID : AssetID) :
    Good h₀ h₁ (s.insertAsset assetID p) where
  kept := hs.kept
  grown := hs.grown
  closed := hs.closed
  object := fun id q hq => by
    have hlook : ((s.object.assetTreeTxn.getD ∅).insert assetID p).lookup id = some q := hq
    by_cases hid : id = assetID
    · rw [hid, AList.lookup_insert] at hlook
      cases hlook
      exact hp
    rw [AList.lookup_insert_ne hid] at hlook
    refine hs.object id q ?_
    rcases htxn : s.object.assetTreeTxn with _ | txn
    · rw [htxn] at hlook
      cases hlook
    rw [htxn] at hlook
    rw [Object.pendingAsset, htxn]
    exact hlook

theorem loadAsset (d : AssetData) : Good h₀ h₁ (s.loadAsset d) := by
  obtain ⟨hkept, -, _, -, -, hin, -, hread⟩ := s.heap.loadAsset_spec d
  refine ⟨hs.kept.trans hkept, hs.grown.trans hkept.grown,
    fun q b hq => ?_, hs.object.mono (List.IsPrefix.length_le hkept.assets)⟩
  rcases hread q b hq with hold | ⟨-, rfl⟩
  · exact (hs.closed q b hold).mono (fun _ => hkept.amounts.has) fun _ => hkept.metas.has
  · exact hin

end

end Receiver.Good

/-! ## 2. Updates of an asset object -/

namespace Reserved

variable {A : Type} {m : Reserved A} {id id' : Identifier} {t : TokenID} {t' : TokenID}

/-- A new holder with a single token. -/
theorem of_at?_insert {e e' : AmountWithExpiry A}
    (h : at? (m.insert id (AList.singleton t e)) id' t' = some e') :
    e' = e ∨ m.at? id' t' = some e' := by
  obtain ⟨tokens, htok, he⟩ := bind_eq_some_iff.mp h
  rcases of_lookup_insert htok with ⟨-, rfl⟩ | htok
  · exact .inl (of_lookup_singleton he).2
  · exact .inr (bind_eq_some_iff.mpr ⟨tokens, htok, he⟩)

theorem at?_modify (f : GoMap TokenID (AmountWithExpiry A) → GoMap TokenID (AmountWithExpiry A)) :
    at? (m.modify id f) id' t =
      if id' = id then (m.lookup id').bind fun tokens => (f tokens).lookup t else m.at? id' t := by
  unfold at?
  rw [lookup_modify]
  split
  case isTrue h => cases m.lookup id' <;> rfl
  case isFalse h => cases m.lookup id' <;> rfl

/-- A token of a known holder. -/
theorem of_at?_modify_insert {e e' : AmountWithExpiry A}
    (h : at? (m.modify id (·.insert t e)) id' t' = some e') : e' = e ∨ m.at? id' t' = some e' := by
  rw [at?_modify] at h
  split at h
  case isTrue =>
    obtain ⟨tokens, htok, he⟩ := bind_eq_some_iff.mp h
    rcases of_lookup_insert he with ⟨-, rfl⟩ | he
    · exact .inl rfl
    · exact .inr (bind_eq_some_iff.mpr ⟨tokens, htok, he⟩)
  case isFalse => exact .inr h

theorem at?_dropReserved {e : AmountWithExpiry A}
    (h : at? (Object.dropReserved m id t) id' t' = some e) : m.at? id' t' = some e := by
  have hmod : at? (m.modify id (·.erase t)) id' t' = some e → m.at? id' t' = some e := by
    intro h
    rw [at?_modify] at h
    split at h
    case isTrue =>
      obtain ⟨_, htok, he⟩ := bind_eq_some_iff.mp h
      rw [at?, htok]
      exact of_lookup_erase he
    case isFalse => exact h
  unfold Object.dropReserved at h
  simp only at h
  split at h
  case isTrue =>
    by_cases hid : id' = id
    · rw [hid, at?, AList.lookup_erase] at h
      cases h
    · rw [at?, AList.lookup_erase_ne hid] at h
      exact hmod h
  case isFalse => exact hmod h

end Reserved

namespace AssetOf

variable {A M : Type} {ao : AssetOf A M} {t : TokenID}

theorem mem_amounts_balance {p : A} (h : ao.balance.lookup t = some p) : p ∈ ao.amounts :=
  mem_append_left _ (mem_append_left _ (mem_values.mpr ⟨t, h⟩))

variable {e : AmountWithExpiry A} {id : Identifier}

theorem mem_amounts_lockup (h : ao.lockup.at? id t = some e) : e.amount ∈ ao.amounts :=
  mem_append_left _ (mem_append_right _ (mem_amounts.mpr ⟨id, t, e, h, rfl⟩))

theorem mem_amounts_mandate (h : ao.mandate.at? id t = some e) : e.amount ∈ ao.amounts :=
  mem_append_right _ (mem_amounts.mpr ⟨id, t, e, h, rfl⟩)

theorem mem_metas {m : M} (h : ao.tokenMetaData.lookup t = some m) : m ∈ ao.metas :=
  mem_values.mpr ⟨t, h⟩

end AssetOf

namespace AssetOf.In

variable {ao : AssetObject} {h : Heap}

theorem balance (hao : ao.In h) {m : GoMap TokenID (Ptr Int)}
    (hm : ∀ t p, m.lookup t = some p → h.amounts.Has p) :
      AssetOf.In { ao with balance := m } h := by
  refine ⟨fun p hp => ?_, hao.metas⟩
  have := hao.amounts p
  simp only [AssetOf.amounts, mem_append, mem_values] at hp this
  rcases hp with (⟨t, ht⟩ | hp) | hp
  · exact hm t p ht
  · exact this (.inl (.inr hp))
  · exact this (.inr hp)

theorem lockup (hao : ao.In h) {m : Reserved (Ptr Int)}
    (hm : ∀ id t e, m.at? id t = some e → h.amounts.Has e.amount) :
    AssetOf.In { ao with lockup := m } h := by
  refine ⟨fun p hp => ?_, hao.metas⟩
  have := hao.amounts p
  simp only [AssetOf.amounts, mem_append, mem_amounts] at hp this
  rcases hp with (hp | ⟨id, t, e, he, rfl⟩) | hp
  · exact this (.inl (.inl hp))
  · exact hm id t e he
  · exact this (.inr hp)

section

variable (hao : ao.In h)
include hao

theorem mandate {m : Reserved (Ptr Int)}
    (hm : ∀ id t e, m.at? id t = some e → h.amounts.Has e.amount) :
    AssetOf.In { ao with mandate := m } h := by
  refine ⟨fun p hp => ?_, hao.metas⟩
  have := hao.amounts p
  simp only [AssetOf.amounts, mem_append, mem_amounts] at hp this
  rcases hp with hp | ⟨id, t, e, he, rfl⟩
  · exact this (.inl hp)
  · exact hm id t e he

theorem tokenMetaData {m : GoMap TokenID (Ptr MetaData)}
    (hm : ∀ t p, m.lookup t = some p → h.metas.Has p) :
    AssetOf.In { ao with tokenMetaData := m } h := by
  refine ⟨hao.amounts, fun p hp => ?_⟩
  obtain ⟨t, ht⟩ := mem_values.mp hp
  exact hm t p ht

theorem eraseBalance (t : TokenID) : AssetOf.In { ao with balance := ao.balance.erase t } h :=
  hao.balance fun _ _ hp => hao.amounts _ (mem_amounts_balance (of_lookup_erase hp))

theorem deleteTokenMetadata (t : TokenID) : (ao.deleteTokenMetadata t).In h := by
  unfold AssetOf.deleteTokenMetadata
  split
  case isTrue => exact hao
  case isFalse =>
    exact hao.tokenMetaData fun _ _ hp => hao.metas _ (mem_metas (of_lookup_erase hp))

theorem dropLockup (id : Identifier) (t : TokenID) :
    AssetOf.In { ao with lockup := Object.dropReserved ao.lockup id t } h :=
  hao.lockup fun _ _ _ he => hao.amounts _ (mem_amounts_lockup (at?_dropReserved he))

theorem dropMandate (id : Identifier) (t : TokenID) :
    AssetOf.In { ao with mandate := Object.dropReserved ao.mandate id t } h :=
  hao.mandate fun _ _ _ he => hao.amounts _ (mem_amounts_mandate (at?_dropReserved he))

end

end AssetOf.In

/-! ## 3. Reading and writing, as conditions on what follows -/

namespace Object

section

variable {s : Receiver} {R : Receiver → Prop} {p : Ptr AssetObject} {Q : Unit → Receiver → Prop}

@[simp] theorem wp_asset {Q : AssetObject → Receiver → Prop} :
    wp (asset p) Q R s ↔ (∀ ao, s.heap.assets.read p = some ao → Q ao s) ∧
      (s.heap.assets.read p = none → R s) := by
  unfold wp asset
  cases s.heap.assets.read p <;> simp [Go.deref]

@[simp] theorem wp_amount {p : Ptr Int} {Q : Int → Receiver → Prop} :
    wp (amount p) Q R s ↔ (∀ n, s.heap.amounts.read p = some n → Q n s) ∧
      (s.heap.amounts.read p = none → R s) := by
  unfold wp amount
  cases s.heap.amounts.read p <;> simp [Go.deref]

@[simp] theorem wp_metaData {p : Ptr MetaData} {Q : MetaData → Receiver → Prop} :
    wp (metaData p) Q R s ↔ (∀ m, s.heap.metas.read p = some m → Q m s) ∧
      (s.heap.metas.read p = none → R s) := by
  unfold wp metaData
  cases s.heap.metas.read p <;> simp [Go.deref]

variable {ao : AssetObject} {n : Int} {m : MetaData}

theorem wp_asset_of {Q : AssetObject → Receiver → Prop} (h : s.heap.assets.read p = some ao) :
    wp (asset p) Q R s ↔ Q ao s := by
  simp [h]

theorem wp_asset_bind {A : Type} {f : AssetObject → Method A} {Q : A → Receiver → Prop}
    (hf : ∀ ao, s.heap.assets.read p = some ao → wp (f ao) Q R s) (hR : R s) :
    wp (asset p >>= f) Q R s := by
  rw [wp_bind, wp_asset]
  exact ⟨hf, fun _ => hR⟩

theorem wp_amount_of {p : Ptr Int} {Q : Int → Receiver → Prop}
    (h : s.heap.amounts.read p = some n) : wp (amount p) Q R s ↔ Q n s := by
  simp [h]

@[simp] theorem wp_newAmount {Q : Ptr Int → Receiver → Prop} :
    wp (newAmount n) Q R s ↔ Q (s.heap.amounts.alloc n).1 (s.newAmount n) := Iff.rfl

@[simp] theorem wp_newAsset {Q : Ptr AssetObject → Receiver → Prop} :
    wp (newAsset ao) Q R s ↔ Q (s.heap.assets.alloc ao).1 (s.newAsset ao) := Iff.rfl

@[simp] theorem wp_setAmount {p : Ptr Int} :
    wp (setAmount p n) Q R s ↔ Q () (s.setAmount p n) := Iff.rfl

@[simp] theorem wp_setMetaData {p : Ptr MetaData} :
    wp (setMetaData p m) Q R s ↔ Q () (s.setMetaData p m) := Iff.rfl

@[simp] theorem wp_setAsset {f : AssetObject → AssetObject} :
    wp (setAsset p f) Q R s ↔ Q () (s.setAsset p f) := Iff.rfl

@[simp] theorem wp_updateAssetTree {assetID : AssetID} :
    wp (updateAssetTree assetID p) Q R s ↔ Q () (s.insertAsset assetID p) := Iff.rfl

end

/-! ## 4. What the methods on assets keep -/

/-- The asset object that a method on the asset would fetch from the transaction is younger than
    `h₀`, with all it points to. -/
def Free (h₀ : Heap) (s : Receiver) (assetID : AssetID) : Prop :=
  ∀ p, s.object.pendingAsset assetID = some p → s.Own h₀ p

variable {B : Backend} {h₀ h₁ : Heap} {s : Receiver} {assetID : AssetID} {tokenID : TokenID}

/-- `Good` however the call ends. -/
abbrev KeepsGood {A : Type} (h₀ h₁ : Heap) (x : Method A) (s : Receiver) : Prop :=
  leaves x (Receiver.Good h₀ h₁) s

variable {p : Ptr AssetObject} {metadata : Option (Ptr MetaData)} {value : Ptr Int} {G : Type}
  {g : Receiver → G}

section

variable (hs : s.Good h₀ h₁)
include hs

/-- **The fetched asset object** is the pending one or a new one. -/
theorem getAssetObject_good (hf : Free h₀ s assetID) :
    wp (getAssetObject B assetID true)
      (fun r s' => s'.Good h₀ h₁ ∧ s.heap.Kept s'.heap ∧ s'.object = s.object ∧
        ∀ p, r = .ok p → s'.Own h₀ p) (Receiver.Good h₀ h₁) s := by
  unfold getAssetObject
  simp only [wp_bind, wp_self, if_true]
  rcases hpend : s.object.pendingAsset assetID with _ | p
  swap
  · refine ⟨hs, .refl _, rfl, fun q hq => ?_⟩
    cases hq
    exact hf p hpend
  rcases hcom : committedAsset B s.object assetID with e | d
  · exact ⟨hs, .refl _, rfl, by simp⟩
  obtain ⟨hkept, hnew, ao, hread, -, -, hapart, -⟩ := s.heap.loadAsset_spec d
  refine ⟨hs.loadAsset d, hkept, rfl, fun q hq => ?_⟩
  cases hq
  refine ⟨fun hp => hnew (hs.kept.assets.has hp), has_iff_read.mpr ⟨ao, hread⟩,
    fun ao' hao' => ?_⟩
  have hao : ao' = ao := mem_unique hao' hread
  subst hao
  exact ⟨fun p hp h => hapart.amounts p hp (hs.kept.amounts.has h),
    fun p hp h => hapart.metas p hp (hs.kept.metas.has h)⟩

/-- A method on an asset object keeps what its body keeps. -/
theorem withAsset_good {A : Type} {body : Ptr AssetObject → Method (Except Err A)}
    (hf : Free h₀ s assetID)
    (hbody : ∀ s' p, s'.Good h₀ h₁ → s'.Own h₀ p → KeepsGood h₀ h₁ (body p) s') :
    KeepsGood h₀ h₁ (withAsset B assetID body) s := by
  refine wp_seq (getAssetObject_good hs hf) fun r s' hr => ?_
  cases r with
  | error e => exact hr.1
  | ok p => exact hbody s' p hr.1 (hr.2.2.2 p rfl)

/-- An amount of an own asset object reduced. -/
theorem takeAmount_good {ao : AssetObject} {held : Ptr Int} (hp : s.Own h₀ p)
    (hao : s.heap.assets.read p = some ao) (hheld : held ∈ ao.amounts) (value : Ptr Int)
    {atZero : AssetObject → AssetObject} (hz : ∀ h ao, ao.In h → (atZero ao).In h) :
    wp (takeAmount p held value atZero) (fun _ s' => s'.Good h₀ h₁ ∧ s'.heap.assets.Has p)
      (Receiver.Good h₀ h₁) s := by
  unfold takeAmount
  simp only [wp_bind, wp_amount, wp_setAmount, wp_ite, wp_setAsset, wp_pure]
  refine ⟨fun k _ => ⟨fun v _ => ?_, fun _ => hs⟩, fun _ => hs⟩
  have hset := hs.setAmount ((hp.apart ao hao).amounts held hheld) (k - v)
  refine ⟨fun _ => ⟨hset.update hp.young (hz _), (has_modify _).mpr hp.here⟩,
    fun _ => ⟨hset, hp.here⟩⟩

theorem subToken_good (hp : s.Own h₀ p) (value : Ptr Int) :
    KeepsGood h₀ h₁ (subToken assetID tokenID value p) s := by
  refine wp_asset_bind (fun ao hao => ?_) hs
  rcases hbal : ao.balance.lookup tokenID with _ | _
  · exact hs
  have htake := takeAmount_good hs hp hao (mem_amounts_balance hbal) value
    fun _ _ hao => (hao.eraseBalance tokenID).deleteTokenMetadata tokenID
  exact wp_seq htake fun _ _ h => h.1.insertAsset h.2 assetID

theorem subBalance_good (hf : Free h₀ s assetID) (value : Ptr Int) :
    KeepsGood h₀ h₁ (subBalance B assetID tokenID value) s :=
  withAsset_good hs hf fun _ _ hs hp => subToken_good hs hp value

theorem storeMetaData_good (hp : ¬ h₀.assets.Has p) (hp' : s.heap.assets.Has p)
    (hm : ∀ m, metadata = some m → h₁.metas.Has m) :
    KeepsGood h₀ h₁ (storeMetaData assetID tokenID metadata p) s := by
  rcases metadata with _ | m
  · exact hs.insertAsset hp' assetID
  refine (hs.update hp fun ao hao => ?_).insertAsset ((has_modify _).mpr hp') _
  refine hao.tokenMetaData fun t q hq => ?_
  rcases of_lookup_insert hq with ⟨-, rfl⟩ | hq
  · exact Nat.lt_of_lt_of_le (hm _ rfl) hs.grown.metas
  · exact hao.metas _ (mem_metas hq)

theorem addToken_good (hp : s.Own h₀ p) (hv : h₁.amounts.Has value)
    (hm : ∀ m, metadata = some m → h₁.metas.Has m) :
    KeepsGood h₀ h₁ (addToken assetID tokenID value metadata p) s := by
  refine wp_asset_bind (fun ao hao => ?_) hs
  rcases hbal : ao.balance.lookup tokenID with _ | bal
  · refine storeMetaData_good (hs.update hp.young fun ao hao => ?_) hp.young
      ((has_modify _).mpr hp.here) hm
    refine hao.balance fun t q hq => ?_
    obtain ⟨-, rfl⟩ := of_lookup_singleton hq
    exact hs.hasAmount hv
  simp only [wp_bind, wp_amount, wp_setAmount]
  have hyoung := (hp.apart ao hao).amounts bal (mem_amounts_balance hbal)
  refine ⟨fun k _ => ⟨fun v _ => ?_, fun _ => hs⟩, fun _ => hs⟩
  exact storeMetaData_good (hs.setAmount hyoung (k + v)) hp.young hp.here hm

theorem insertNewAssetObject_good (hf : Free h₀ s assetID) (hp : s.Own h₀ p) :
    wp (insertNewAssetObject B assetID p) (fun _ s' => s'.Good h₀ h₁ ∧ s'.Own h₀ p)
      (Receiver.Good h₀ h₁) s := by
  refine wp_seq (getAssetObject_good hs hf) fun r s' hr => ?_
  have hp' : s'.Own h₀ p := hp.kept hr.2.1
  cases r with
  | ok q => exact ⟨hr.1, hp'⟩
  | error e => exact ⟨hr.1.insertAsset hp'.here assetID, hp'.young, hp'.here, hp'.apart⟩

theorem addBalance_good (hf : Free h₀ s assetID) (hv : h₁.amounts.Has value)
    (hm : ∀ m, metadata = some m → h₁.metas.Has m) :
    KeepsGood h₀ h₁ (addBalance B assetID tokenID value metadata) s := by
  refine wp_seq (getAssetObject_good hs hf) fun r s' hr => ?_
  obtain ⟨hs', hkept, hobj, hown⟩ := hr
  rcases r with e | p
  swap
  · exact addToken_good hs' (hown p rfl) hv hm
  simp only [wp_bind, wp_newAsset]
  obtain ⟨hs1, hkept1, hp⟩ := hs'.newEmptyAsset none
  have hf1 : Free h₀ (s'.newAsset (.new none)) assetID := fun q hq =>
    ((hf q (hobj ▸ hq)).kept hkept).kept hkept1
  refine wp_post (insertNewAssetObject_good hs1 hf1 hp) fun r s2 hr => ?_
  cases r with
  | some err => exact hr.1
  | none => exact addToken_good hr.1 hr.2 hv hm

theorem addLockup_good (hp : ¬ h₀.assets.Has p) (hp' : s.heap.assets.Has p)
    (beneficiary : Identifier) (hv : h₁.amounts.Has value) (lockup : Reserved (Ptr Int)) :
    KeepsGood h₀ h₁ (addLockup assetID tokenID beneficiary value p lockup) s := by
  unfold addLockup
  rcases lockup.lookup beneficiary with _ | lockups
  · refine (hs.update hp fun ao hao => ?_).insertAsset ((has_modify _).mpr hp') _
    refine hao.lockup fun id t e he => ?_
    rcases of_at?_insert he with rfl | he
    · exact hs.hasAmount hv
    · exact hao.amounts _ (mem_amounts_lockup he)
  rcases hlook : lockups.lookup tokenID with _ | _
  · simp only [hlook]
    exact hs
  simp only [hlook, KeepsGood, wp_bind, wp_amount, wp_newAmount, wp_setAsset,
    wp_updateAssetTree, wp_pure]
  refine ⟨fun k _ => ⟨fun v _ => ?_, fun _ => hs⟩, fun _ => hs⟩
  have hnew := hs.newAmount (k + v)
  refine (hnew.update hp fun ao hao => ?_).insertAsset ((has_modify _).mpr hp') _
  refine hao.lockup fun id t e he => ?_
  rcases of_at?_modify_insert he with rfl | he
  · exact has_alloc.mpr (.inr rfl)
  · exact hao.amounts _ (mem_amounts_lockup he)

section

variable (hf : Free h₀ s assetID)
include hf

variable (beneficiary : Identifier)

theorem createLockup_good (hv : h₁.amounts.Has value) :
    KeepsGood h₀ h₁ (createLockup B assetID tokenID beneficiary value) s := by
  refine withAsset_good hs hf fun s p hs hp => ?_
  refine wp_asset_bind (fun ao hao => ?_) hs
  rcases hbal : ao.balance.lookup tokenID with _ | _
  · exact hs
  have htake := takeAmount_good hs hp hao (mem_amounts_balance hbal) value
    fun _ _ hao => hao.eraseBalance tokenID
  exact wp_seq htake fun _ _ h => addLockup_good h.1 hp.young h.2 beneficiary hv ao.lockup

theorem releaseLockup_good (value : Ptr Int) :
    KeepsGood h₀ h₁ (releaseLockup B assetID tokenID beneficiary value) s := by
  refine withAsset_good hs hf fun s p hs hp => ?_
  refine wp_asset_bind (fun ao hao => ?_) hs
  rcases hlock : ao.lockup.at? beneficiary tokenID with _ | _
  · exact hs
  have htake := takeAmount_good hs hp hao (mem_amounts_lockup hlock) value
    fun _ _ hao => (hao.dropLockup beneficiary tokenID).deleteTokenMetadata tokenID
  exact wp_seq htake fun _ _ h => h.1.insertAsset h.2 assetID

theorem createMandate_good (hv : h₁.amounts.Has value) (expiresAt : UInt64) :
    KeepsGood h₀ h₁ (createMandate B assetID tokenID beneficiary value expiresAt) s := by
  refine withAsset_good hs hf fun s p hs hp => ?_
  refine wp_asset_bind (fun ao hao => ?_) hs
  -- a mandate over `v` put under the token of a known holder
  have hput : ∀ (s' : Receiver) (v : Ptr Int), s'.Good h₀ h₁ → s'.heap.assets.Has p →
      s'.heap.amounts.Has v → ((s'.setAsset p fun ao => { ao with
        mandate := ao.mandate.modify beneficiary (·.insert tokenID ⟨v, expiresAt⟩) }).insertAsset
          assetID p).Good h₀ h₁ := by
    intro s' v hs' hp' hv'
    refine (hs'.update hp.young fun ao hao => ?_).insertAsset ((has_modify _).mpr hp') _
    refine hao.mandate fun id t e he => ?_
    rcases of_at?_modify_insert he with rfl | he
    · exact hv'
    · exact hao.amounts _ (mem_amounts_mandate he)
  rcases hman : ao.mandate.lookup beneficiary with _ | mandates
  · refine (hs.update hp.young fun ao hao => ?_).insertAsset ((has_modify _).mpr hp.here) _
    refine hao.mandate fun id t e he => ?_
    obtain ⟨_, htok, he⟩ := bind_eq_some_iff.mp he
    obtain ⟨-, rfl⟩ := of_lookup_singleton htok
    obtain ⟨-, rfl⟩ := of_lookup_singleton he
    exact hs.hasAmount hv
  rcases hlook : mandates.lookup tokenID with _ | _
  · simp only [hlook]
    exact hput s value hs hp.here (hs.hasAmount hv)
  simp only [hlook, wp_bind, wp_amount, wp_newAmount, wp_setAsset, wp_updateAssetTree, wp_pure]
  refine ⟨fun k _ => ⟨fun v _ => ?_, fun _ => hs⟩, fun _ => hs⟩
  exact hput _ _ (hs.newAmount (k + v)) hp.here (has_alloc.mpr (.inr rfl))

theorem subMandateBalance_good (operatorID : Identifier) (value : Ptr Int) :
    KeepsGood h₀ h₁ (subMandateBalance B assetID tokenID operatorID value) s := by
  refine withAsset_good hs hf fun s p hs hp => ?_
  refine wp_asset_bind (fun ao hao => ?_) hs
  rcases hman : ao.mandate.at? operatorID tokenID with _ | _
  · exact hs
  have htake := takeAmount_good hs hp hao (mem_amounts_mandate hman) value
    fun _ _ hao => hao.dropMandate operatorID tokenID
  exact wp_seq htake fun _ _ h => h.1.insertAsset h.2 assetID

theorem deleteMandate_good : KeepsGood h₀ h₁ (deleteMandate B assetID tokenID beneficiary) s := by
  refine withAsset_good hs hf fun s p hs hp => ?_
  refine (hs.update hp.young fun ao hao => ?_).insertAsset ((has_modify _).mpr hp.here) _
  exact hao.dropMandate beneficiary tokenID

end

theorem setProperties_good (hp : ¬ h₀.assets.Has p) (hp' : s.heap.assets.Has p)
    (f : AssetDescriptor → AssetDescriptor) :
    wp (setProperties p f) (fun _ s' => s'.Good h₀ h₁ ∧ s'.heap.assets.Has p)
      (Receiver.Good h₀ h₁) s := by
  unfold setProperties
  simp only [wp_bind, wp_asset, wp_ofGo, wp_setAsset]
  refine ⟨fun ao _ => ⟨fun d _ => ?_, fun _ _ => hs⟩, fun _ => hs⟩
  exact ⟨hs.update hp fun ao hao => ⟨hao.amounts, hao.metas⟩, (has_modify _).mpr hp'⟩

theorem setAssetMetadata_good (hf : Free h₀ s assetID) (isStatic : Bool) (key value : Bytes) :
    KeepsGood h₀ h₁ (setAssetMetadata B assetID isStatic key value) s := by
  refine withAsset_good hs hf fun s p hs hp => ?_
  have hins := hs.insertAsset hp.here assetID
  have hset := fun f => wp_post (setProperties_good hins hp.young hp.here f)
    fun _ _ h => h.1
  simp only [KeepsGood, wp_bind, wp_updateAssetTree, wp_asset, wp_ofGo, wp_ite, wp_pure]
  exact ⟨fun ao _ => ⟨fun d _ => ⟨fun _ => ⟨fun _ => hins, fun _ => hset _⟩, fun _ => hset _⟩,
    fun _ _ => hins⟩, fun _ => hins⟩

theorem updateTokenMetaData_good {m : Ptr MetaData} (hm : ¬ h₀.metas.Has m) (isStatic : Bool)
    (key value : Bytes) : KeepsGood h₀ h₁ (updateTokenMetaData m isStatic key value) s := by
  unfold KeepsGood updateTokenMetaData
  simp only [wp_bind, wp_metaData, wp_ofGo, wp_ite, wp_setMetaData, wp_pure]
  exact ⟨fun d _ => ⟨fun _ => ⟨fun _ => hs, fun _ => ⟨fun _ _ => hs.setMetaData hm _,
    fun _ _ => hs⟩⟩, fun _ => ⟨fun _ _ => hs.setMetaData hm _, fun _ _ => hs⟩⟩, fun _ => hs⟩

theorem setTokenMetadata_good (hf : Free h₀ s assetID) (isStatic : Bool) (key value : Bytes) :
    KeepsGood h₀ h₁ (setTokenMetadata B assetID tokenID isStatic key value) s := by
  refine withAsset_good hs hf fun s p hs hp => ?_
  simp only [KeepsGood, wp_bind, wp_asset, wp_ite, wp_updateAssetTree, wp_pure]
  refine ⟨fun ao hao => ⟨fun _ => ?_, fun _ => hs⟩, fun _ => hs⟩
  have hins := hs.insertAsset hp.here assetID
  rcases hmeta : ao.tokenMetaData.lookup tokenID with _ | m
  swap
  · exact updateTokenMetaData_good hins ((hp.apart ao hao).metas m (mem_metas hmeta)) ..
  have hnew := hins.newMetaData { static := some ∅, dynamic := some ∅ }
  refine updateTokenMetaData_good (hnew.update hp.young fun ao hao => ?_)
    (fun h => Nat.lt_irrefl _ (hs.kept.metas.has h)) ..
  refine hao.tokenMetaData fun t q hq => ?_
  rcases of_lookup_insert hq with ⟨-, rfl⟩ | hq
  · exact has_alloc.mpr (.inr rfl)
  · exact hao.metas _ (mem_metas hq)

theorem createAsset_good {descriptor : AssetDescriptor} (hf : Free h₀ s descriptor.assetID) :
    KeepsGood h₀ h₁ (createAsset B descriptor) s := by
  obtain ⟨hs1, hkept, hp⟩ := hs.newEmptyAsset (some descriptor)
  have hf1 : Free h₀ (s.newAsset (.new (some descriptor))) descriptor.assetID :=
    fun q hq => (hf q hq).kept hkept
  exact wp_post (insertNewAssetObject_good hs1 hf1 hp) fun _ _ h => h.1

theorem mintAsset_good (hf : Free h₀ s assetID) (value : Ptr Int) :
    KeepsGood h₀ h₁ (mintAsset B assetID value) s := by
  refine withAsset_good hs hf fun s p hs hp => ?_
  simp only [KeepsGood, wp_bind, wp_amount, wp_pure]
  refine ⟨fun n _ => ?_, fun _ => hs⟩
  exact wp_post (setProperties_good hs hp.young hp.here _) fun _ _ h => h.1

theorem burnAsset_good (hf : Free h₀ s assetID) (value : Ptr Int) :
    KeepsGood h₀ h₁ (burnAsset B assetID value) s := by
  refine withAsset_good hs hf fun s p hs hp => ?_
  simp only [KeepsGood, wp_bind, wp_amount, wp_updateAssetTree, wp_pure]
  refine ⟨fun n _ => ?_, fun _ => hs⟩
  exact wp_post (setProperties_good hs hp.young hp.here _)
    fun _ _ h => h.1.insertAsset h.2 assetID

end

/-! ## 5. The other methods leave assets alone -/

/-- Memory and the asset transaction. -/
def assetPart (s : Receiver) : Heap × Option (GoMap AssetID (Ptr AssetObject)) :=
  (s.heap, s.object.assetTreeTxn)

/-- A method that touches neither memory nor the asset transaction. -/
abbrev Aside {A : Type} (x : Method A) : Prop := Fixes assetPart x

variable {A : Type} {x : Method A} {f : Object → Object}

theorem Aside.good (hx : Aside x) (hs : s.Good h₀ h₁) : KeepsGood h₀ h₁ x s := by
  obtain ⟨hheap, htxn⟩ := Prod.mk.inj (hx s)
  refine wp_state.mpr ⟨hheap ▸ hs.kept, hheap ▸ hs.grown, hheap ▸ hs.closed, fun assetID p hp => ?_⟩
  rw [hheap]
  refine hs.object assetID p ?_
  rw [pendingAsset, ← htxn]
  exact hp

theorem fixes_set (hf : ∀ s : Receiver, g { s with object := f s.object } = g s) :
    Fixes g (Object.set f) :=
  .assign hf

theorem aside_set (hf : ∀ o, (f o).assetTreeTxn = o.assetTreeTxn) : Aside (Object.set f) :=
  .assign fun s => Prod.ext rfl (hf s.object)

theorem fixes_this : Fixes g this := .bind .self .pure

/-- A method that begins with a load which may fail. -/
theorem fixes_loaded {load : Method (Option Err)} {onErr : Err → Method A} (hl : Fixes g load)
    (he : ∀ err, Fixes g (onErr err)) (hx : Fixes g x) :
    Fixes g (do match ← load with
      | some err => onErr err
      | none => x) := by
  refine .bind hl fun r => ?_
  cases r with
  | some err => exact he err
  | none => exact hx

section

-- the methods on keys touch nothing but the keys
variable {G : Type} {g : Receiver → G}
  (hg : ∀ s keys, g { s with object := { s.object with keys := keys } } = g s)
include hg

theorem fixes_ensureKeys : Fixes g (ensureKeys B) := by
  have hload : Fixes g (loadKeys B) := by
    refine .bind fixes_this fun o => .bind (.assign fun s => hg s _) fun _ => .ite (.pure _) ?_
    cases B.getAccountKeys o.id o.data.keysHash with
    | error e => exact .pure _
    | ok keys => exact .ret (.assign fun s => hg s _)
  refine .bind fixes_this fun o => ?_
  cases o.keys with
  | some keys => exact .pure _
  | none => exact .ret hload

theorem fixes_modifyKey (keyID : UInt64) (f : AccountKey → AccountKey) :
    Fixes g (modifyKey keyID f) :=
  .bind fixes_this fun _ => .ite (.assign fun s => hg s _) (.ofGo _)

theorem fixes_appendAccountKeys (keys : AccountKeys) : Fixes g (appendAccountKeys B keys) :=
  fixes_loaded (fixes_ensureKeys hg) .pure
    (.ret (.assign fun s => hg s _))

theorem fixes_incrementSequenceID (keyID : UInt64) : Fixes g (incrementSequenceID B keyID) :=
  fixes_loaded (fixes_ensureKeys hg) .pure
    (.ret (fixes_modifyKey hg keyID _))

theorem fixes_revokeAccountKeys (keyIDs : List UInt64) : Fixes g (revokeAccountKeys B keyIDs) := by
  have hrevoke : Fixes g (revokeKeys keyIDs) := by
    induction keyIDs with
    | nil => exact .pure _
    | cons keyID rest ih => exact .bind (fixes_modifyKey hg keyID _) fun _ => ih
  exact fixes_loaded (fixes_ensureKeys hg) .pure (.ret hrevoke)

end

theorem fixes_createDeedsEntry
    (hg : ∀ s deeds, g { s with object := { s.object with deeds := deeds } } = g s)
    (key : Identifier) : Fixes g (createDeedsEntry B key) := by
  have hload : Fixes g (ensureDeeds B) := by
    refine .bind fixes_this fun o => ?_
    rcases o.deeds with _ | deeds
    swap
    · exact .pure _
    refine .bind ?_ .pure
    refine .bind fixes_this fun o =>
      .ite (.ret (fixes_set fun s => hg s _)) ?_
    cases B.getDeeds o.id o.data.assetDeeds with
    | error e => exact .pure _
    | ok deeds => exact .ret (fixes_set fun s => hg s _)
  exact fixes_loaded hload .pure
    (.bind fixes_this fun _ => .ite (.pure _) (.ret (fixes_set fun s => hg s _)))

theorem aside_getMetaCtxObject : Aside (getMetaCtxObject B) := by
  refine .bind fixes_this fun o => ?_
  cases o.metaContext with
  | some m => exact .pure _
  | none =>
    refine .bind fixes_this fun o => .bind (aside_set fun _ => rfl) fun _ => .ite (.pure _) ?_
    cases B.getContext o.id o.data.contextHash with
    | error e => exact .pure _
    | ok m => exact .ret (aside_set fun _ => rfl)

theorem aside_updateSubAccount (subAccount targetAccount : Identifier) :
    Aside (updateSubAccount B subAccount targetAccount) :=
  fixes_loaded aside_getMetaCtxObject .pure
    (.ret (aside_set fun _ => rfl))

theorem aside_subAccountCount : Aside (subAccountCount B) :=
  fixes_loaded aside_getMetaCtxObject (fun _ => .ofGo _) (.bind fixes_this fun _ => .pure _)

theorem aside_updateInheritedAccount (inheritedAccount : Identifier) :
    Aside (updateInheritedAccount B inheritedAccount) :=
  fixes_loaded aside_getMetaCtxObject (fun _ => .ofGo _)
    (.ret (aside_set fun _ => rfl))

variable (logicID : LogicID) (consensusNodes : List KramaID)

theorem aside_createContext : Aside (createContext B consensusNodes) := by
  refine .ite (.pure _) ?_
  cases B.poloHash consensusNodes with
  | error e => exact .pure _
  | ok hash => exact .ret (aside_set fun _ => rfl)

theorem aside_updateContext : Aside (updateContext B consensusNodes) := by
  refine .bind fixes_this fun o => .ite (.pure _) ?_
  rcases getMetaContextObjectCopy B o with e | m
  · exact .pure _
  cases B.poloHash consensusNodes with
  | error e => exact .pure _
  | ok hash => exact .ret (aside_set fun _ => rfl)

section

-- the methods on storage touch nothing but the storage
variable {G : Type} {g : Receiver → G} (hg : ∀ s trees txns,
  g { s with object := { s.object with storageTrees := trees, storageTreeTxns := txns } } = g s)
include hg

variable (logicID : LogicID)

theorem fixes_getStorageTree : Fixes g (getStorageTree B logicID) := by
  refine .bind fixes_this fun o => ?_
  rcases o.storageTrees.lookup logicID with _ | root
  swap
  · exact .pure _
  rcases B.metaStorageTree o.id o.data.storageRoot with e | roots
  · exact .pure _
  rcases hr : roots logicID with e | _
  · simp only [hr]
    exact .pure _
  simp only [hr]
  exact .ret (fixes_set fun s => hg s _ _)

theorem fixes_createStorageTreeForLogic : Fixes g (createStorageTreeForLogic B logicID) := by
  refine .bind fixes_this fun o => ?_
  cases B.metaStorageTree o.id o.data.storageRoot with
  | error e => exact .pure _
  | ok roots => exact .ret (fixes_set fun s => hg s _ _)

theorem fixes_setStorageEntry (key value : Bytes) :
    Fixes g (setStorageEntry B logicID key value) := by
  have hopen : Fixes g (openStorage B logicID) := by
    refine .bind (fixes_getStorageTree hg logicID) fun r => ?_
    cases r with
    | ok root => exact .pure _
    | error e => exact .ite (fixes_createStorageTreeForLogic hg logicID) (.pure _)
  have hwrite : ∀ opened : Option Err, Fixes g (do
      match opened with
      | some err => return some err
      | none => do
        set fun o => { o with storageTreeTxns := o.storageTreeTxns.modify logicID fun txn =>
          if value.length = 0 then txn.erase key else txn.insert key value }
        return none) := by
    intro opened
    cases opened with
    | some err => exact .pure _
    | none => exact .ret (fixes_set fun s => hg s _ _)
  refine .bind fixes_this fun o => .ite (.bind (.pure _) hwrite) (.bind hopen fun r => ?_)
  cases r with
  | some err => exact .bind (.pure _) hwrite
  | none => exact .bind (fixes_set fun s => hg s _ _) fun _ => .bind (.pure _) hwrite

theorem fixes_getStorageEntry (key : Bytes) : Fixes g (getStorageEntry B logicID key) := by
  refine .bind fixes_this fun o => ?_
  cases (o.storageTreeTxns.lookup logicID).bind (·.lookup key) with
  | some value => exact .pure _
  | none =>
    refine .bind (fixes_getStorageTree hg logicID) fun r => ?_
    cases r <;> exact .pure _

end

theorem aside_createLogic (descriptor : LogicDescriptor) : Aside (createLogic B descriptor) := by
  refine .bind fixes_this fun o => .bind (aside_set fun _ => rfl) fun _ => ?_
  cases getLogicObject B o o.id with
  | ok l => exact .pure _
  | error e =>
    refine .bind (aside_set fun _ => rfl) fun _ => ?_
    exact fixes_loaded (fixes_createStorageTreeForLogic (fun _ _ _ => rfl) o.id) .pure
      (.ret (aside_set fun _ => rfl))

end Object

end GoMoi
