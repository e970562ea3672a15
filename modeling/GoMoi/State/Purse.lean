/-
  File:      GoMoi/State/Purse.lean
  Subject:   The places of an asset object at which an amount is kept, and memory in which no amount
             is kept at two of them.

  An amount is a pointer to an integer that is changed in place. What an account holds can be
  computed with as numbers only as long as no amount is reached from two places. That is so:
  decoding makes a new cell for each place, and a call stores the amount it was given at one place
  at most.

  * `Purse`, `AssetOf.amountAt` -- a balance, a lockup or a mandate, and the amount kept there; one
    equation for each update of an asset object that the methods make;
  * `Holding`, `AssetOf.holding` -- the amounts as numbers, and the supply if the object records
    one;
  * `Heap.Separate` -- an amount is kept at one place of one asset object.
-/
import GoMoi.State.Sharing

namespace GoMoi

open GoMap AList Option Reserved Function

/-! ## 1. Places -/

/-- Where an asset object keeps an amount. -/
inductive Purse where
  | balance (tokenID : TokenID)
  | lockup (id : Identifier) (tokenID : TokenID)
  | mandate (id : Identifier) (tokenID : TokenID)
  deriving DecidableEq

namespace Reserved

variable {A : Type} {m : Reserved A} {id id' : Identifier} {t t' : TokenID}

theorem at?_dropReserved_eq : at? (Object.dropReserved m id t) id' t' =
    if id' = id ∧ t' = t then none else m.at? id' t' := by
  have hmod : at? (m.modify id (·.erase t)) id' t' =
      if id' = id ∧ t' = t then none else m.at? id' t' := by
    rw [at?_modify]
    by_cases hid : id' = id
    · by_cases ht : t' = t
      · rw [if_pos hid, if_pos ⟨hid, ht⟩, ht]
        cases m.lookup id' with
        | none => rfl
        | some tokens => exact lookup_erase ..
      rw [if_pos hid, if_neg fun h => ht h.2, at?]
      cases m.lookup id' with
      | none => rfl
      | some tokens => exact lookup_erase_ne ht
    · rw [if_neg hid, if_neg fun h => hid h.1]
  unfold Object.dropReserved
  simp only
  split
  case isFalse => exact hmod
  case isTrue hempty =>
    -- the holder has no entry left, so dropping it drops nothing more
    by_cases hid : id' = id
    · subst hid
      rw [← hmod, at?, lookup_erase, at?]
      rcases hl : (m.modify id' (·.erase t)).lookup id' with _ | tokens
      · rfl
      rw [hl] at hempty
      have hkeys : tokens.keys = [] := List.eq_nil_of_length_eq_zero (of_decide_eq_true hempty)
      have hnone : tokens.lookup t' = none := lookup_eq_none.mpr fun hmem => by
        rw [mem_keys, hkeys] at hmem
        cases hmem
      exact hnone.symm
    · rw [at?, lookup_erase_ne hid]
      exact hmod

end Reserved

namespace AssetOf

variable {A M : Type} {ao : AssetOf A M} {id : Identifier} {t : TokenID} {v : A}

/-- The amount kept at a place. -/
def amountAt (ao : AssetOf A M) : Purse → Option A
  | .balance tokenID => ao.balance.lookup tokenID
  | .lockup id tokenID => (ao.lockup.at? id tokenID).map (·.amount)
  | .mandate id tokenID => (ao.mandate.at? id tokenID).map (·.amount)

theorem mem_amounts {a : A} : a ∈ ao.amounts ↔ ∃ pl, ao.amountAt pl = some a := by
  simp only [amounts, List.mem_append, mem_values, Reserved.mem_amounts]
  constructor
  · rintro ((⟨t, h⟩ | ⟨id, t, e, h, rfl⟩) | ⟨id, t, e, h, rfl⟩)
    · exact ⟨.balance t, h⟩
    · exact ⟨.lockup id t, by rw [amountAt, h]; rfl⟩
    · exact ⟨.mandate id t, by rw [amountAt, h]; rfl⟩
  · rintro ⟨pl, h⟩
    cases pl with
    | balance t => exact .inl (.inl ⟨t, h⟩)
    | lockup id t =>
      obtain ⟨e, he, ha⟩ := map_eq_some_iff.mp h
      exact .inl (.inr ⟨id, t, e, he, ha⟩)
    | mandate id t =>
      obtain ⟨e, he, ha⟩ := map_eq_some_iff.mp h
      exact .inr ⟨id, t, e, he, ha⟩

/-! ## 2. Updates, place by place -/

theorem amountAt_eraseBalance : ({ ao with balance := ao.balance.erase t }).amountAt =
    update ao.amountAt (.balance t) none := by
  refine Function.eq_update_iff.mpr ⟨lookup_erase .., fun pl hpl => ?_⟩
  cases pl with
  | balance t' => exact lookup_erase_ne fun ht => hpl (ht ▸ rfl)
  | lockup id' t' => rfl
  | mandate id' t' => rfl

theorem amountAt_deleteTokenMetadata : (ao.deleteTokenMetadata t).amountAt = ao.amountAt := by
  unfold deleteTokenMetadata
  split
  case isTrue => rfl
  case isFalse => rfl

end AssetOf

/-- One balance, and the other places as they are. -/
def Purse.soleBalance {A : Type} (f : Purse → Option A) (t : TokenID) (v : A) : Purse → Option A
  | .balance t' => if t' = t then some v else none
  | pl => f pl

/-- One mandate, and the other places as they are. -/
def Purse.soleMandate {A : Type} (f : Purse → Option A) (id : Identifier) (t : TokenID) (v : A) :
    Purse → Option A
  | .mandate id' t' => if id' = id ∧ t' = t then some v else none
  | pl => f pl

namespace Reserved

variable {A : Type} {m : Reserved A} {id id' : Identifier} {t t' : TokenID} {e : AmountWithExpiry A}

theorem at?_singleton :
    at? (AList.singleton id (AList.singleton t e)) id' t' =
      if id' = id ∧ t' = t then some e else none := by
  rw [at?, lookup_singleton]
  by_cases hid : id' = id
  · rw [if_pos hid, bind_some, lookup_singleton]
    simp [hid]
  · rw [if_neg hid, if_neg fun h => hid h.1]
    rfl

/-- A holder that was not there. -/
theorem at?_insert_new (hm : m.lookup id = none) :
    at? (m.insert id (AList.singleton t e)) id' t' =
      if id' = id ∧ t' = t then some e else m.at? id' t' := by
  unfold at?
  by_cases hid : id' = id
  · subst hid
    rw [lookup_insert, bind_some, lookup_singleton, hm]
    simp
  · rw [lookup_insert_ne hid, if_neg fun h => hid h.1]

/-- A holder that was there. -/
theorem at?_modify_insert {tokens : GoMap TokenID (AmountWithExpiry A)}
    (hm : m.lookup id = some tokens) : at? (m.modify id (·.insert t e)) id' t' =
      if id' = id ∧ t' = t then some e else m.at? id' t' := by
  rw [at?_modify]
  by_cases hid : id' = id
  · subst hid
    rw [if_pos rfl, at?, hm]
    by_cases ht : t' = t
    · subst ht
      rw [if_pos ⟨rfl, rfl⟩]
      exact lookup_insert ..
    · rw [if_neg fun h => ht h.2]
      exact lookup_insert_ne ht
  · rw [if_neg hid, if_neg fun h => hid h.1]

end Reserved

namespace AssetOf

variable {A M : Type} {ao : AssetOf A M} {id : Identifier} {t : TokenID} {v : A}

theorem amountAt_soleBalance : ({ ao with balance := AList.singleton t v }).amountAt =
    Purse.soleBalance ao.amountAt t v := by
  funext pl
  cases pl with
  | balance t' => exact lookup_singleton
  | lockup id' t' => rfl
  | mandate id' t' => rfl

variable {e : Option (AmountWithExpiry A)} {m : Reserved A}

/-- An update of the lockups that sets or drops one of them. -/
theorem amountAt_setLockup
    (h : ∀ id' t', m.at? id' t' = if id' = id ∧ t' = t then e else ao.lockup.at? id' t') :
    ({ ao with lockup := m }).amountAt =
      update ao.amountAt (.lockup id t) (e.map (·.amount)) := by
  refine Function.eq_update_iff.mpr ⟨by rw [amountAt, h, if_pos ⟨rfl, rfl⟩], fun pl hpl => ?_⟩
  cases pl with
  | balance t' => rfl
  | lockup id' t' =>
    rw [amountAt, h, if_neg fun heq => hpl (by rw [heq.1, heq.2])]
    rfl
  | mandate id' t' => rfl

/-- An update of the mandates that sets or drops one of them. -/
theorem amountAt_setMandate
    (h : ∀ id' t', m.at? id' t' = if id' = id ∧ t' = t then e else ao.mandate.at? id' t') :
    ({ ao with mandate := m }).amountAt =
      update ao.amountAt (.mandate id t) (e.map (·.amount)) := by
  refine Function.eq_update_iff.mpr ⟨by rw [amountAt, h, if_pos ⟨rfl, rfl⟩], fun pl hpl => ?_⟩
  cases pl with
  | balance t' => rfl
  | lockup id' t' => rfl
  | mandate id' t' =>
    rw [amountAt, h, if_neg fun heq => hpl (by rw [heq.1, heq.2])]
    rfl

theorem amountAt_soleMandate {expiresAt : UInt64} :
    ({ ao with mandate := AList.singleton id (AList.singleton t ⟨v, expiresAt⟩) }).amountAt =
      Purse.soleMandate ao.amountAt id t v := by
  funext pl
  cases pl with
  | balance t' => rfl
  | lockup id' t' => rfl
  | mandate id' t' =>
    rw [amountAt, at?_singleton, Purse.soleMandate]
    split
    case isTrue => rfl
    case isFalse => rfl

/-! ## 3. Amounts as numbers -/

end AssetOf

/-- What an asset has in circulation, and how much of it there may be. -/
structure Supply where
  circulating : Int
  max : Int

/-- What an account holds of an asset; the account of the asset also records the supply. -/
structure Holding where
  amount : Purse → Option Int
  supply : Option Supply

/-- Nothing. -/
def Holding.empty : Holding := ⟨fun _ => none, none⟩

namespace AssetOf

/-- The supply in the properties. -/
def supply {A M : Type} (ao : AssetOf A M) : Option Supply :=
  ao.properties.map fun d => ⟨d.circulatingSupply, d.maxSupply⟩

def holding (d : AssetData) : Holding := ⟨d.amountAt, d.supply⟩

end AssetOf

/-- What is seen at a place is what the amount kept there leads to. -/
theorem Heap.viewObject_amountAt (h : Heap) (ao : AssetObject) (pl : Purse) :
    (h.viewObject ao).amountAt pl = (ao.amountAt pl).bind h.amounts.read := by
  have hreserved : ∀ (m : Reserved (Ptr Int)) id t,
      ((viewReserved h.amounts m).at? id t).map (·.amount) =
        ((m.at? id t).map (·.amount)).bind h.amounts.read := by
    intro m id t
    unfold viewReserved at?
    rw [lookup_filterMap]
    rcases m.lookup id with _ | tokens
    · rfl
    simp only [bind_some, lookup_filterMap]
    rcases tokens.lookup t with _ | e
    · rfl
    simp only [bind_some, map_some, viewAmount]
    cases h.amounts.read e.amount <;> rfl
  cases pl with
  | balance t => exact lookup_filterMap ..
  | lockup id t => exact hreserved ao.lockup id t
  | mandate id t => exact hreserved ao.mandate id t

/-! ## 4. Every amount at one place -/

/-- All pointers lead to cells, and an amount is kept at one place of one asset object. -/
structure Heap.Separate (h : Heap) : Prop where
  closed : h.Closed
  one : ∀ q q' ao ao' pl pl' x, h.assets.read q = some ao → h.assets.read q' = some ao' →
    ao.amountAt pl = some x → ao'.amountAt pl' = some x → q = q' ∧ pl = pl'

/-- An amount that is kept at no place. -/
structure Heap.Loose (h : Heap) (v : Ptr Int) : Prop where
  has : h.amounts.Has v
  nowhere : ∀ q ao pl, h.assets.read q = some ao → ao.amountAt pl ≠ some v

section

variable {A : Type} {c c' : Cells A}

/-- Of two cells one was there when the other was made. -/
theorem alloc_apart {c1 c1' : Cells A} {a a' : A}
    (h : (c1.alloc a).2.Kept c1' ∨ (c1'.alloc a').2.Kept c1) :
      (c1.alloc a).1 ≠ (c1'.alloc a').1 := by
  intro heq
  rcases h with h | h
  · have hhas := h.has (Cells.has_alloc.mpr (.inr rfl))
    rw [heq] at hhas
    exact Nat.lt_irrefl _ hhas
  · have hhas := h.has (Cells.has_alloc.mpr (.inr rfl))
    rw [← heq] at hhas
    exact Nat.lt_irrefl _ hhas

theorem allocAll_injective {K : Type} [DecidableEq K] {m : GoMap K A} {k k' : K} {p : Ptr A}
    (hk : (m.mapState (fun _ n c => c.alloc n) c).1.lookup k = some p)
    (hk' : (m.mapState (fun _ n c => c.alloc n) c).1.lookup k' = some p) : k = k' := by
  by_contra hne
  obtain ⟨n, _, _, _, rfl, heq, hround⟩ := rounds_apart (R := Cells.Kept)
    (fun _ n c => .new c n) hne hk hk'
  exact alloc_apart hround heq

variable {tokens : GoMap TokenID (AmountWithExpiry A)}

theorem loadTokens_made {t : TokenID} {e : AmountWithExpiry (Ptr A)}
    (h : (tokens.mapState (fun _ => loadAmount) c).1.lookup t = some e) :
    MadeIn c (tokens.mapState (fun _ => loadAmount) c).2 e.amount := by
  obtain ⟨a, _, -, h1, h2, rfl⟩ := of_lookup_mapState (fun _ => loadAmount_kept) h
  exact madeIn_alloc h1 h2

theorem loadTokens_injective {t t' : TokenID} {e e' : AmountWithExpiry (Ptr A)}
    (h : (tokens.mapState (fun _ => loadAmount) c).1.lookup t = some e)
    (h' : (tokens.mapState (fun _ => loadAmount) c).1.lookup t' = some e')
    (heq : e.amount = e'.amount) : t = t' := by
  by_contra hne
  obtain ⟨a, _, _, _, rfl, rfl, hround⟩ := rounds_apart (fun _ => loadAmount_kept) hne h h'
  exact alloc_apart hround heq

variable {m : Reserved A} {id id' : Identifier} {t t' : TokenID} {x : Ptr A}
  (h : ((loadReserved m c).1.at? id t).map (·.amount) = some x)
include h

theorem loadReserved_madeIn : MadeIn c (loadReserved m c).2 x := by
  obtain ⟨e, he, hex⟩ := map_eq_some_iff.mp h
  exact loadReserved_made m c x (mem_amounts.mpr ⟨_, _, _, he, hex⟩)

theorem loadReserved_injective
    (h' : ((loadReserved m c).1.at? id' t').map (·.amount) = some x) : id = id' ∧ t = t' := by
  obtain ⟨e, h, hex⟩ := map_eq_some_iff.mp h
  obtain ⟨_, h', hex'⟩ := map_eq_some_iff.mp h'
  have heq := hex.trans hex'.symm
  obtain ⟨tokens, hid, ht⟩ := bind_eq_some_iff.mp h
  obtain ⟨tokens', hid', ht'⟩ := bind_eq_some_iff.mp h'
  by_cases hne : id = id'
  · -- one holder: its tokens were loaded one after the other
    subst hne
    obtain rfl : tokens = tokens' := mem_unique hid hid'
    obtain ⟨old, c1, -, -, -, rfl⟩ := of_lookup_mapState (fun _ => loadTokens_kept) hid
    exact ⟨rfl, loadTokens_injective ht ht' heq⟩
  -- two holders: the cells of one are there when the other is loaded
  exfalso
  obtain ⟨_, _, _, _, rfl, rfl, hround⟩ := rounds_apart (fun _ => loadTokens_kept) hne hid hid'
  have hmade := loadTokens_made ht
  have hmade' := loadTokens_made ht'
  rcases hround with hk | hk
  · exact hmade'.1 (heq ▸ hk.has hmade.2)
  · exact hmade.1 (heq ▸ hk.has hmade'.2)

end

variable {ao : AssetObject}

section

variable (h : Heap) (d : AssetData)
  (hao : (h.loadAsset d).2.assets.read (h.loadAsset d).1 = some ao)
include hao

/-- Decoding keeps different places apart. -/
theorem Heap.loadAsset_one {pl pl' : Purse} {x : Ptr Int} (hx : ao.amountAt pl = some x)
    (hx' : ao.amountAt pl' = some x) : pl = pl' := by
  obtain rfl := mem_unique hao Cells.read_alloc_new
  -- the balances are made first, then the lockups, then the mandates
  let balance := d.balance.mapState (fun _ n c => c.alloc n) h.amounts
  let lockup := loadReserved d.lockup balance.2
  let mandate := loadReserved d.mandate lockup.2
  have hl : balance.2.Kept lockup.2 := loadReserved_kept d.lockup balance.2
  have inBalance : ∀ {t}, balance.1.lookup t = some x → balance.2.Has x := fun ht =>
    (allocAll_made d.balance h.amounts x (mem_values.mpr ⟨_, ht⟩)).2
  have inLockup : ∀ {id t}, (lockup.1.at? id t).map (·.amount) = some x →
      MadeIn balance.2 lockup.2 x := loadReserved_madeIn
  have inMandate : ∀ {id t}, (mandate.1.at? id t).map (·.amount) = some x →
      MadeIn lockup.2 mandate.2 x := loadReserved_madeIn
  cases pl with
  | balance t =>
    cases pl' with
    | balance t' => exact congrArg Purse.balance (allocAll_injective hx hx')
    | lockup id' t' => exact absurd (inBalance hx) (inLockup hx').1
    | mandate id' t' => exact absurd (hl.has (inBalance hx)) (inMandate hx').1
  | lockup id t =>
    cases pl' with
    | balance t' => exact absurd (inBalance hx') (inLockup hx).1
    | lockup id' t' =>
      obtain ⟨rfl, rfl⟩ := loadReserved_injective hx hx'
      rfl
    | mandate id' t' => exact absurd (inLockup hx).2 (inMandate hx').1
  | mandate id t =>
    cases pl' with
    | balance t' => exact absurd (hl.has (inBalance hx')) (inMandate hx).1
    | lockup id' t' => exact absurd (inLockup hx').2 (inMandate hx).1
    | mandate id' t' =>
      obtain ⟨rfl, rfl⟩ := loadReserved_injective hx hx'
      rfl

/-- Decoding gives each token metadata of its own. -/
theorem Heap.loadAsset_label {t t' : TokenID} {x : Ptr MetaData}
    (hx : ao.tokenMetaData.lookup t = some x) (hx' : ao.tokenMetaData.lookup t' = some x) :
    t = t' := by
  obtain rfl := mem_unique hao Cells.read_alloc_new
  exact allocAll_injective hx hx'

end

end GoMoi
