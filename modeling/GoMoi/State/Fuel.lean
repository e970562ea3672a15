/-
  File:      GoMoi/State/Fuel.lean
  Subject:   The fuel balance of an account: what the check before an interaction reads and what the
             fee after it is taken from (`state/object.go`).

  * `hasSufficientFuel_spec` -- the check returns, changes nothing that can be observed, and is true
    exactly if the committed balance covers a cost that is not negative;
  * `deductFuel_spec` -- the fee is taken whether the balance covers it or not, and not at all if
    there is no entry to take it from.
-/
import GoMoi.State.Snapshot

namespace GoMoi

open Proc AssetOf

namespace Object

variable {B : Backend} {s : Receiver} {assetID : AssetID} {tokenID : TokenID}

/-! ## 1. The check -/

/-- The committed balance of a token, if there is one. -/
def committedBalance (B : Backend) (object : Object) (assetID : AssetID) (tokenID : TokenID) :
    Option Int :=
  match committedAsset B object assetID with
  | .error _ => none
  | .ok d => d.balance.lookup tokenID

/-- A reader leaves all as it is, or has decoded an asset object that nobody else holds. -/
def Decoded (s s' : Receiver) : Prop := s' = s ∨ ∃ d, s' = s.loadAsset d

variable {s' : Receiver} {ao : AssetObject} {p : Ptr AssetObject}

theorem Decoded.object (h : Decoded s s') : s'.object = s.object := by
  rcases h with rfl | ⟨d, rfl⟩ <;> rfl

theorem Decoded.good {h0 h1 : Heap} (h : Decoded s s') (hs : s.Good h0 h1) : s'.Good h0 h1 := by
  rcases h with rfl | ⟨d, rfl⟩
  · exact hs
  · exact hs.loadAsset d

theorem balance_of_view {h : Heap} {d : AssetData} (hview : h.viewObject ao = d)
    (tokenID : TokenID) :
    d.balance.lookup tokenID = (ao.balance.lookup tokenID).bind fun p => h.amounts.read p := by
  rw [← hview]
  exact GoMap.lookup_filterMap _ _ _

/-- `BalanceOf` reads the committed balance. -/
theorem balanceOf_spec : wp (balanceOf B assetID tokenID)
    (fun r s' => Decoded s s' ∧ r.toOption = committedBalance B s.object assetID tokenID)
    (fun _ => False) s := by
  unfold balanceOf getAssetObject committedBalance
  simp only [wp_bind, wp_self, if_neg (Bool.false_ne_true)]
  rcases hcom : committedAsset B s.object assetID with e | d
  · exact ⟨.inl rfl, rfl⟩
  obtain ⟨-, -, ao, hread, hview, hin, -⟩ := s.heap.loadAsset_spec d
  have hdec : Decoded s (s.loadAsset d) := .inr ⟨d, rfl⟩
  have hbal := balance_of_view hview tokenID
  show wp (asset (s.heap.loadAsset d).1 >>= _) _ _ (s.loadAsset d)
  rw [wp_bind, wp_asset]
  refine ⟨fun ao' hao' => ?_, fun hnone => ?_⟩
  · obtain rfl : ao = ao' := Option.mem_unique hread hao'
    simp only
    rcases hp : ao.balance.lookup tokenID with _ | q
    · rw [hp] at hbal
      exact ⟨hdec, hbal.symm⟩
    obtain ⟨n, hn⟩ := Cells.has_iff_read.mp (hin.amounts q (mem_amounts_balance hp))
    rw [hp, Option.bind_some, hn] at hbal
    rw [wp_bind, wp_amount]
    refine ⟨fun n' hn' => ⟨hdec, ?_⟩, fun hnone => ?_⟩
    · rw [hbal]
      exact hn'.symm.trans hn
    · cases hn.symm.trans hnone
  · cases hread.symm.trans hnone

/-- **The check**: true exactly if the committed balance covers a cost that is not negative. -/
theorem hasSufficientFuel_spec {cost : Int} : wp (hasSufficientFuel B assetID cost)
    (fun r s' => Decoded s s' ∧ (r = .ok true ↔ 0 ≤ cost ∧
      ∃ n, committedBalance B s.object assetID defaultTokenID = some n ∧ cost ≤ n))
    (fun _ => False) s := by
  unfold hasSufficientFuel
  by_cases hneg : cost < 0
  · rw [if_pos hneg]
    exact ⟨.inl rfl, nofun, fun h => absurd h.1 (not_le.mpr hneg)⟩
  rw [if_neg hneg, wp_bind]
  refine wp_post balanceOf_spec fun r s' hr => ?_
  obtain ⟨hdec, hbal⟩ := hr
  rw [← hbal]
  rcases r with e | balance
  · refine ⟨hdec, nofun, fun h => ?_⟩
    obtain ⟨-, n, hn, -⟩ := h
    cases hn
  refine ⟨hdec, fun h => ⟨not_lt.mp hneg, balance, rfl, ?_⟩, fun h => ?_⟩
  · exact of_decide_eq_true (Except.ok.inj h)
  · obtain ⟨-, n, hn, hle⟩ := h
    cases hn
    rw [decide_eq_true hle]

/-! ## 2. The fee -/

/-- The balance of a token as the transaction has it, else as committed. -/
def pendingBalance (B : Backend) (s : Receiver) (assetID : AssetID) (tokenID : TokenID) :
    Option Int :=
  match s.object.pendingAsset assetID with
  | some p => (s.heap.viewAsset p).bind (·.balance.lookup tokenID)
  | none => committedBalance B s.object assetID tokenID

/-- What is pending is seen through the pointer in the transaction. -/
theorem pendingBalance_some (hp : s.object.pendingAsset assetID = some p)
    (hao : s.heap.assets.read p = some ao) :
    pendingBalance B s assetID tokenID =
      (ao.balance.lookup tokenID).bind fun q => s.heap.amounts.read q := by
  have hview : s.heap.viewAsset p = some (s.heap.viewObject ao) := by
    rw [Heap.viewAsset, hao]
    rfl
  simp only [pendingBalance, hp, hview]
  exact GoMap.lookup_filterMap _ _ _

theorem pendingBalance_insertAsset (hao : s.heap.assets.read p = some ao) :
    pendingBalance B (s.insertAsset assetID p) assetID tokenID =
      (ao.balance.lookup tokenID).bind fun q => s.heap.amounts.read q :=
  pendingBalance_some (AList.lookup_insert _) hao

/-- `SubBalance` from the asset object on, with `n` of the token there and a value of `fee`. -/
theorem subToken_balance {q value : Ptr Int} {n fee : Int} (hao : s.heap.assets.read p = some ao)
    (hq : ao.balance.lookup tokenID = some q) (hn : s.heap.amounts.read q = some n)
    (hv : s.heap.amounts.read value = some fee) :
    wp (subToken assetID tokenID value p)
      (fun _ s' => (pendingBalance B s' assetID tokenID).getD 0 = n - fee) (fun _ => False) s := by
  have hset : (s.heap.amounts.modify q fun _ => n - fee).read q = some (n - fee) := by
    rw [Cells.read_modify, if_pos rfl, hn]
    rfl
  unfold subToken takeAmount
  simp only [wp_bind, wp_asset, hao, Option.some.injEq, forall_eq', reduceCtorEq, false_implies,
    and_true, hq, wp_amount, hn, hv, wp_setAmount, wp_ite, wp_setAsset, wp_updateAssetTree,
    wp_pure]
  refine ⟨fun hzero => ?_, fun _ => ?_⟩
  · -- nothing is left: the entry is deleted
    have hread : ((s.setAmount q (n - fee)).setAsset p fun ao => deleteTokenMetadata
        { ao with balance := ao.balance.erase tokenID } tokenID).heap.assets.read p =
        some (deleteTokenMetadata { ao with balance := ao.balance.erase tokenID } tokenID) := by
      show (s.heap.assets.modify p _).read p = _
      rw [Cells.read_modify, if_pos rfl, hao]
      rfl
    have hbal : (deleteTokenMetadata { ao with balance := ao.balance.erase tokenID }
        tokenID).balance = ao.balance.erase tokenID := by
      unfold deleteTokenMetadata
      split <;> rfl
    rw [pendingBalance_insertAsset hread, hbal, AList.lookup_erase, hzero]
    rfl
  · have hread : (s.setAmount q (n - fee)).heap.assets.read p = some ao := hao
    rw [pendingBalance_insertAsset hread, hq]
    exact congrArg (Option.getD · 0) hset

section

variable (hc : s.heap.Closed) (hin : s.object.In s.heap)
include hc hin

/-- While the cells are kept the balance is as it was. -/
theorem pendingBalance_kept (hk : s.heap.Kept s'.heap) (ho : s'.object = s.object) :
    pendingBalance B s' assetID tokenID = pendingBalance B s assetID tokenID := by
  rcases hp : s.object.pendingAsset assetID with _ | p
  · simp [pendingBalance, ho, hp]
  obtain ⟨ao, hao⟩ := Cells.has_iff_read.mp (hin assetID p hp)
  rw [pendingBalance_some hp hao, pendingBalance_some (by rw [ho]; exact hp) (hk.assets.read hao)]
  cases hq : ao.balance.lookup tokenID with
  | none => rfl
  | some q =>
    exact hk.amounts.read_eq ((hc p ao hao).amounts q (mem_amounts_balance hq))

/-- **The fetched asset object** shows the balance. -/
theorem getAssetObject_balance (tokenID : TokenID) :
    wp (getAssetObject B assetID true)
      (fun r s' => s.heap.Kept s'.heap ∧ s'.object = s.object ∧
        (∀ e, r = .error e → pendingBalance B s assetID tokenID = none) ∧
        ∀ p, r = .ok p → ∃ ao, s'.heap.assets.read p = some ao ∧ ao.In s'.heap ∧
          pendingBalance B s assetID tokenID =
            (ao.balance.lookup tokenID).bind s'.heap.amounts.read) (fun _ => False) s := by
  unfold getAssetObject
  simp only [wp_bind, wp_self, if_true]
  rcases hpend : s.object.pendingAsset assetID with _ | p
  swap
  · obtain ⟨ao, hao⟩ := Cells.has_iff_read.mp (hin assetID p hpend)
    refine ⟨.refl _, rfl, by simp, fun p' hp' => ?_⟩
    cases hp'
    exact ⟨ao, hao, hc p ao hao, pendingBalance_some hpend hao⟩
  have hbal : pendingBalance B s assetID tokenID =
      committedBalance B s.object assetID tokenID := by
    simp [pendingBalance, hpend]
  rw [hbal, committedBalance]
  rcases hcom : committedAsset B s.object assetID with e | d
  · exact ⟨.refl _, rfl, fun _ _ => rfl, by simp⟩
  obtain ⟨hkept, -, ao, hread, hview, hao, -⟩ := s.heap.loadAsset_spec d
  refine ⟨hkept, rfl, by simp, fun p hp => ?_⟩
  cases hp
  exact ⟨ao, hread, hao, balance_of_view hview tokenID⟩

/-- **The fee**: taken from the entry if there is one, down to a negative balance if need be. -/
theorem deductFuel_spec {fee : Int} :
    wp (deductFuel B assetID fee)
      (fun _ s' => (pendingBalance B s' assetID defaultTokenID).getD 0 =
        ((pendingBalance B s assetID defaultTokenID).map (· - fee)).getD 0) (fun _ => False) s := by
  have hgood : s.Good .empty s.heap :=
    ⟨⟨List.nil_prefix, List.nil_prefix, List.nil_prefix⟩, ⟨le_rfl, le_rfl, le_rfl⟩, hc, hin⟩
  have hnew := hgood.newAmount fee
  have hkept : s.heap.Kept (s.newAmount fee).heap :=
    ⟨.new _ fee, .refl _, .refl _⟩
  have hbal : pendingBalance B (s.newAmount fee) assetID defaultTokenID =
      pendingBalance B s assetID defaultTokenID := pendingBalance_kept hc hin hkept rfl
  unfold deductFuel subBalance withAsset
  simp only [wp_bind, wp_newAmount]
  refine wp_post (getAssetObject_balance hnew.closed hnew.object defaultTokenID)
    fun r s' hr => ?_
  obtain ⟨hk, ho, herr, hok⟩ := hr
  have hsame : pendingBalance B s' assetID defaultTokenID =
    pendingBalance B s assetID defaultTokenID := pendingBalance_kept hc hin (hkept.trans hk) ho
  rcases r with e | p
  · have hnone := herr e rfl
    rw [hbal] at hnone
    show (pendingBalance B s' assetID defaultTokenID).getD 0 = _
    rw [hsame, hnone]
    rfl
  obtain ⟨ao, hao, haoin, hshown⟩ := hok p rfl
  rw [hbal] at hshown
  rw [hshown]
  rcases hq : ao.balance.lookup defaultTokenID with _ | q
  · unfold subToken
    simp only [wp_bind, wp_asset, hao, Option.some.injEq, forall_eq', reduceCtorEq,
      false_implies, and_true, hq, wp_pure, Option.bind_none, Option.map_none]
    rw [hsame, hshown, hq]
    rfl
  obtain ⟨n, hn⟩ := Cells.has_iff_read.mp
    (haoin.amounts q (mem_amounts_balance hq))
  have hv : s'.heap.amounts.read (s.heap.amounts.alloc fee).1 = some fee :=
    hk.amounts.read Cells.read_alloc_new
  rw [Option.bind_some, hn]
  exact wp_post (subToken_balance hao hq hn hv) fun _ _ h => h

end

end Object

/-- The tokens that an observation shows, pending ones first; no entry is no tokens. -/
def Observation.balance (o : Observation) (assetID : AssetID) (tokenID : TokenID) : Int :=
  match o.asset assetID true with
  | .ok (.ok d) => (d.balance.lookup tokenID).getD 0
  | _ => 0

theorem observe_balance (B : Backend) (s : Receiver) (assetID : AssetID) (tokenID : TokenID) :
    (s.observe B).balance assetID tokenID = (Object.pendingBalance B s assetID tokenID).getD 0 := by
  have hfetch := Object.fetchAsset_eq (B := B) (s := s) assetID true
  unfold Observation.balance Object.pendingBalance Receiver.observe
  simp only [hfetch]
  cases s.object.pendingAsset assetID with
  | some p =>
    cases hview : s.heap.viewAsset p <;> simp [hview, Go.deref, Except.map]
  | none =>
    unfold Object.committedBalance
    cases hcom : Object.committedAsset B s.object assetID <;> simp

end GoMoi
