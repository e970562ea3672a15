/-
  File:      GoMoi/State/Asset.lean
  Subject:   Asset objects and the memory behind their pointers (`state/asset.go`,
             `common/asset.go`).

  An `AssetObject` is what an account holds of one asset. It is reached through a pointer, its
  amounts are pointers to big integers and its token metadata are pointers as well; all three can
  be reached from several places at once, so they live in cells (`Heap`). The descriptor of an asset
  has a single holder and is kept by value, and so are the two integers in it.

  * `AssetOf A M` -- the shape of an asset object: with pointers it is `AssetObject`, with the
    values they lead to `AssetData`, which is also what the encoding of a committed object holds;
  * `Heap.viewAsset` -- what is seen through the pointers, with `view_loadAsset`: decoding and
    looking gives the data back;
  * `Heap.Kept`, `AssetObject.In` -- cells that stay as they are, and pointers that lead somewhere.
-/
import GoMoi.Lib.Cells
import GoMoi.Common.Account

namespace GoMoi

open GoMap

/-! ## 1. Data -/

/-- `type TokenID uint64`. -/
abbrev TokenID : Type := UInt64

/-- `DefaultTokenID`. -/
def defaultTokenID : TokenID := 0

/-- `type MetaData struct`; `none` is a nil map. -/
structure MetaData where
  static : Option (GoMap Bytes Bytes)
  dynamic : Option (GoMap Bytes Bytes)

/-- `type AmountWithExpiry struct`. -/
structure AmountWithExpiry (A : Type) where
  amount : A
  expiresAt : UInt64

/-- `type AssetDescriptor struct`. -/
structure AssetDescriptor where
  assetID : AssetID
  symbol : Bytes
  decimals : UInt8
  dimension : UInt8
  creator : Identifier
  manager : Identifier
  maxSupply : Int
  circulatingSupply : Int
  enableEvents : Bool
  staticMetaData : GoMap Bytes Bytes
  dynamicMetaData : GoMap Bytes Bytes
  logicID : LogicID

/-- `map[Identifier]map[TokenID]*AmountWithExpiry`. -/
abbrev Reserved (A : Type) : Type := GoMap Identifier (GoMap TokenID (AmountWithExpiry A))

/-- `type AssetObject struct`, over what stands for an amount and for metadata. -/
structure AssetOf (A M : Type) where
  balance : GoMap TokenID A
  tokenMetaData : GoMap TokenID M
  lockup : Reserved A
  mandate : Reserved A
  properties : Option AssetDescriptor

/-- `type AssetObject struct`. -/
abbrev AssetObject : Type := AssetOf (Ptr Int) (Ptr MetaData)

/-- An asset object with the values its pointers lead to. -/
abbrev AssetData : Type := AssetOf Int MetaData

namespace AssetOf

variable {A M : Type}

/-- `NewAssetObject`. -/
def new (properties : Option AssetDescriptor) : AssetOf A M :=
  { balance := ∅, tokenMetaData := ∅, lockup := ∅, mandate := ∅, properties := properties }

/-- `hasTokenID`. -/
def hasTokenID (ao : AssetOf A M) (tokenID : TokenID) : Bool :=
  decide (tokenID ∈ ao.balance) || ao.lockup.values.any fun tokens => decide (tokenID ∈ tokens)

/-- `deleteTokenMetadata`. -/
def deleteTokenMetadata (ao : AssetOf A M) (tokenID : TokenID) : AssetOf A M :=
  if ao.hasTokenID tokenID then ao
  else { ao with tokenMetaData := ao.tokenMetaData.erase tokenID }

end AssetOf

namespace Reserved

variable {A : Type}

/-- `m[id][tokenID]`. -/
def at? (m : Reserved A) (id : Identifier) (tokenID : TokenID) : Option (AmountWithExpiry A) :=
  (m.lookup id).bind (·.lookup tokenID)

/-- The amounts of all entries. -/
def amounts (m : Reserved A) : List A := m.values.flatMap fun tokens => tokens.values.map (·.amount)

theorem mem_amounts {m : Reserved A} {a : A} :
    a ∈ m.amounts ↔ ∃ id tokenID e, m.at? id tokenID = some e ∧ e.amount = a := by
  unfold amounts at?
  simp only [List.mem_flatMap, List.mem_map, mem_values, Option.bind_eq_some_iff]
  constructor
  · rintro ⟨tokens, ⟨id, hid⟩, e, ⟨tokenID, ht⟩, rfl⟩
    exact ⟨id, tokenID, e, ⟨tokens, hid, ht⟩, rfl⟩
  · rintro ⟨id, tokenID, e, ⟨tokens, hid, ht⟩, rfl⟩
    exact ⟨tokens, ⟨id, hid⟩, e, ⟨tokenID, ht⟩, rfl⟩

end Reserved

namespace AssetOf

variable {A M : Type}

/-- What stands for an amount anywhere in the object. -/
def amounts (ao : AssetOf A M) : List A :=
  ao.balance.values ++ ao.lockup.amounts ++ ao.mandate.amounts

/-- What stands for metadata anywhere in the object. -/
def metas (ao : AssetOf A M) : List M := ao.tokenMetaData.values

end AssetOf

/-! ## 2. The memory behind the pointers -/

/-- The cells of amounts, token metadata and asset objects. -/
structure Heap where
  amounts : Cells Int
  metas : Cells MetaData
  assets : Cells AssetObject

section

variable {A : Type}

/-- An amount with an expiry put into a cell. -/
def loadAmount (e : AmountWithExpiry A) (c : Cells A) : AmountWithExpiry (Ptr A) × Cells A :=
  (⟨(c.alloc e.amount).1, e.expiresAt⟩, (c.alloc e.amount).2)

/-- An amount with an expiry seen through its pointer. -/
def viewAmount (c : Cells A) (e : AmountWithExpiry (Ptr A)) : Option (AmountWithExpiry A) :=
  (c.read e.amount).map fun n => ⟨n, e.expiresAt⟩

/-- Lockups or mandates put into cells. -/
def loadReserved (m : Reserved A) (c : Cells A) : Reserved (Ptr A) × Cells A :=
  m.mapState (fun _ tokens => tokens.mapState fun _ => loadAmount) c

/-- Lockups or mandates seen through their pointers. -/
def viewReserved (c : Cells A) (m : Reserved (Ptr A)) : Reserved A :=
  m.filterMap fun _ tokens => some (tokens.filterMap fun _ => viewAmount c)

end

namespace Heap

/-- `FromBytes` of a committed asset object: new cells for everything in it. -/
def loadAsset (h : Heap) (d : AssetData) : Ptr AssetObject × Heap :=
  let balance := d.balance.mapState (fun _ n c => c.alloc n) h.amounts
  let lockup := loadReserved d.lockup balance.2
  let mandate := loadReserved d.mandate lockup.2
  let metas := d.tokenMetaData.mapState (fun _ m c => c.alloc m) h.metas
  let assets := h.assets.alloc
    { balance := balance.1, tokenMetaData := metas.1, lockup := lockup.1, mandate := mandate.1
      properties := d.properties }
  (assets.1, { amounts := mandate.2, metas := metas.2, assets := assets.2 })

/-- An asset object seen through its pointers. -/
def viewObject (h : Heap) (ao : AssetObject) : AssetData where
  balance := ao.balance.filterMap fun _ p => h.amounts.read p
  tokenMetaData := ao.tokenMetaData.filterMap fun _ p => h.metas.read p
  lockup := viewReserved h.amounts ao.lockup
  mandate := viewReserved h.amounts ao.mandate
  properties := ao.properties

/-- What an asset pointer leads to. -/
def viewAsset (h : Heap) (p : Ptr AssetObject) : Option AssetData :=
  (h.assets.read p).map h.viewObject

end Heap

/-! ## 3. What stays as it is -/

/-- The cells of `h` are cells of `h'`, with the same contents. -/
structure Heap.Kept (h h' : Heap) : Prop where
  amounts : h.amounts.Kept h'.amounts
  metas : h.metas.Kept h'.metas
  assets : h.assets.Kept h'.assets

/-- The pointers in the object lead to cells. -/
structure AssetOf.In (ao : AssetObject) (h : Heap) : Prop where
  amounts : ∀ p ∈ ao.amounts, h.amounts.Has p
  metas : ∀ p ∈ ao.metas, h.metas.Has p

/-- No pointer in the object leads to a cell of `h`: all of them are younger. -/
structure AssetOf.Apart (ao : AssetObject) (h : Heap) : Prop where
  amounts : ∀ p ∈ ao.amounts, ¬ h.amounts.Has p
  metas : ∀ p ∈ ao.metas, ¬ h.metas.Has p

section

variable {A : Type} {c c' : Cells A}

theorem viewReserved_congr {m : Reserved (Ptr A)} (h : ∀ p ∈ m.amounts, c'.read p = c.read p) :
    viewReserved c' m = viewReserved c m := by
  refine filterMap_congr fun id tokens hid => ?_
  refine congrArg some (filterMap_congr fun tokenID e ht => ?_)
  have hmem : e.amount ∈ m.amounts :=
    Reserved.mem_amounts.mpr ⟨id, tokenID, e, by rw [Reserved.at?, hid]; exact ht, rfl⟩
  rw [viewAmount, viewAmount, h _ hmem]

theorem loadAmount_kept (e : AmountWithExpiry A) (c : Cells A) : c.Kept (loadAmount e c).2 :=
  .new c e.amount

theorem view_loadAmount (e : AmountWithExpiry A) (h : (loadAmount e c).2.Kept c') :
    viewAmount c' (loadAmount e c).1 = some e := by
  unfold viewAmount
  rw [h.read (p := (loadAmount e c).1.amount) Cells.read_alloc_new]
  rfl

theorem loadTokens_kept (tokens : GoMap TokenID (AmountWithExpiry A)) (c : Cells A) :
    c.Kept (tokens.mapState (fun _ => loadAmount) c).2 :=
  mapState_related (fun _ => loadAmount_kept) tokens c

theorem loadReserved_kept (m : Reserved A) (c : Cells A) : c.Kept (loadReserved m c).2 :=
  mapState_related (fun _ => loadTokens_kept) m c

theorem view_loadReserved (m : Reserved A) (h : (loadReserved m c).2.Kept c') :
    viewReserved c' (loadReserved m c).1 = m :=
  filterMap_mapState (R := Cells.Kept)
    (g := fun c' _ tokens => some (tokens.filterMap fun _ => viewAmount c'))
    (fun _ => loadTokens_kept) (fun _ tokens _ _ hc => congrArg some (filterMap_mapState
      (fun _ => loadAmount_kept) (fun _ e _ _ => view_loadAmount e) tokens hc)) m h

/-- A pointer that was made while `c` grew to `c'`. -/
def MadeIn (c c' : Cells A) (p : Ptr A) : Prop := ¬ c.Has p ∧ c'.Has p

theorem madeIn_alloc {c1 : Cells A} {a : A} (h : c.Kept c1) (h' : (c1.alloc a).2.Kept c') :
    MadeIn c c' (c1.alloc a).1 := by
  refine ⟨fun hp => ?_, h'.has (Cells.has_alloc.mpr (.inr rfl))⟩
  exact Nat.lt_irrefl _ (h.has hp)

theorem MadeIn.mono {c1 c2 : Cells A} {p : Ptr A} (hp : MadeIn c1 c2 p) (h : c.Kept c1)
    (h' : c2.Kept c') : MadeIn c c' p :=
  ⟨fun hc => hp.1 (h.has hc), h'.has hp.2⟩

variable {K : Type}

theorem allocAll_kept (m : GoMap K A) (c : Cells A) :
    c.Kept (m.mapState (fun _ n c => c.alloc n) c).2 :=
  mapState_related (fun _ n c => .new c n) m c

theorem view_allocAll (m : GoMap K A) (h : (m.mapState (fun _ n c => c.alloc n) c).2.Kept c') :
    (m.mapState (fun _ n c => c.alloc n) c).1.filterMap (fun _ p => c'.read p) = m :=
  filterMap_mapState (fun _ n c => .new c n)
    (fun _ _ _ _ hc => hc.read Cells.read_alloc_new) m h

theorem allocAll_made [DecidableEq K] (m : GoMap K A) (c : Cells A) :
    ∀ p ∈ (m.mapState (fun _ n c => c.alloc n) c).1.values,
      MadeIn c (m.mapState (fun _ n c => c.alloc n) c).2 p := by
  intro p hp
  obtain ⟨k, hk⟩ := mem_values.mp hp
  obtain ⟨n, _, -, h1, h2, rfl⟩ := of_lookup_mapState (fun _ n c => Cells.Kept.new c n) hk
  exact madeIn_alloc h1 h2

theorem loadReserved_made (m : Reserved A) (c : Cells A) :
    ∀ p ∈ (loadReserved m c).1.amounts, MadeIn c (loadReserved m c).2 p := by
  intro p hp
  obtain ⟨_, _, e, he, rfl⟩ := Reserved.mem_amounts.mp hp
  obtain ⟨_, hid, ht⟩ := Option.bind_eq_some_iff.mp he
  obtain ⟨_, _, -, h1, h2, rfl⟩ := of_lookup_mapState (fun _ => loadTokens_kept) hid
  obtain ⟨a, _, -, h3, h4, rfl⟩ := of_lookup_mapState (fun _ => loadAmount_kept) ht
  exact madeIn_alloc (h1.trans h3) (h4.trans h2)

end

namespace Heap

variable {h h' h0 : Heap} {p : Ptr AssetObject} {ao : AssetObject}

@[refl] theorem Kept.refl (h : Heap) : h.Kept h := ⟨.refl _, .refl _, .refl _⟩

theorem Kept.trans {h1 h2 h3 : Heap} (a : h1.Kept h2) (b : h2.Kept h3) : h1.Kept h3 :=
  ⟨a.amounts.trans b.amounts, a.metas.trans b.metas, a.assets.trans b.assets⟩

theorem viewObject_congr (ha : ∀ p ∈ ao.amounts, h'.amounts.read p = h.amounts.read p)
    (hm : ∀ p ∈ ao.metas, h'.metas.read p = h.metas.read p) :
    h'.viewObject ao = h.viewObject ao := by
  have ham : ∀ p, p ∈ ao.balance.values ∨ p ∈ ao.lockup.amounts ∨ p ∈ ao.mandate.amounts →
      h'.amounts.read p = h.amounts.read p := by
    intro p hp
    refine ha p ?_
    simpa [AssetOf.amounts] using hp
  unfold Heap.viewObject
  congr 1
  · exact filterMap_congr fun _ p hp => ham p (.inl (mem_values.mpr ⟨_, hp⟩))
  · exact filterMap_congr fun _ p hp => hm p (mem_values.mpr ⟨_, hp⟩)
  · exact viewReserved_congr fun p hp => ham p (.inr (.inl hp))
  · exact viewReserved_congr fun p hp => ham p (.inr (.inr hp))

/-- **What is seen through pointers to kept cells stays the same.** -/
theorem Kept.viewObject (hk : h.Kept h') (hao : ao.In h) : h'.viewObject ao = h.viewObject ao :=
  viewObject_congr (fun p hp => hk.amounts.read_eq (hao.amounts p hp))
    (fun p hp => hk.metas.read_eq (hao.metas p hp))

/-- **Decoding**: new cells only, through which the data are seen. -/
theorem loadAsset_spec (h : Heap) (d : AssetData) :
    h.Kept (h.loadAsset d).2 ∧ ¬ h.assets.Has (h.loadAsset d).1 ∧
      ∃ ao, (h.loadAsset d).2.assets.read (h.loadAsset d).1 = some ao ∧
        (h.loadAsset d).2.viewObject ao = d ∧ ao.In (h.loadAsset d).2 ∧ ao.Apart h ∧
        ∀ q b, (h.loadAsset d).2.assets.read q = some b →
          h.assets.read q = some b ∨ (q = (h.loadAsset d).1 ∧ b = ao) := by
  -- the three groups of amounts are allocated one after the other
  let balance := d.balance.mapState (fun _ n c => c.alloc n) h.amounts
  let lockup := loadReserved d.lockup balance.2
  let mandate := loadReserved d.mandate lockup.2
  have hb : h.amounts.Kept balance.2 := allocAll_kept d.balance h.amounts
  have hl : balance.2.Kept lockup.2 := loadReserved_kept d.lockup balance.2
  have hm : lockup.2.Kept mandate.2 := loadReserved_kept d.mandate lockup.2
  have made : ∀ p, p ∈ balance.1.values ∨ p ∈ lockup.1.amounts ∨ p ∈ mandate.1.amounts →
      MadeIn h.amounts mandate.2 p := by
    rintro p (hp | hp | hp)
    · exact (allocAll_made d.balance h.amounts p hp).mono (.refl _) (hl.trans hm)
    · exact (loadReserved_made d.lockup balance.2 p hp).mono hb hm
    · exact (loadReserved_made d.mandate lockup.2 p hp).mono (hb.trans hl) (.refl _)
  have mades := allocAll_made d.tokenMetaData h.metas
  refine ⟨⟨(hb.trans hl).trans hm, allocAll_kept d.tokenMetaData h.metas,
    .new _ _⟩, Nat.lt_irrefl _, _, Cells.read_alloc_new, ?_, ?_, ?_,
    fun _ _ => Cells.of_read_alloc⟩
  · show AssetOf.mk _ _ _ _ _ = _
    congr 1
    · exact view_allocAll d.balance (hl.trans hm)
    · exact view_allocAll d.tokenMetaData (.refl _)
    · exact view_loadReserved d.lockup hm
    · exact view_loadReserved d.mandate (.refl _)
  · refine ⟨fun p hp => (made p ?_).2, fun p hp => (mades p hp).2⟩
    simpa [AssetOf.amounts] using hp
  · refine ⟨fun p hp => (made p ?_).1, fun p hp => (mades p hp).1⟩
    simpa [AssetOf.amounts] using hp

end Heap

end GoMoi
