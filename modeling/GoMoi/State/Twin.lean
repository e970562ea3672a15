/-
  File:      GoMoi/State/Twin.lean
  Subject:   Objects that the logics cannot tell apart.

  `Object.Twin` -- two objects of one account with the same storage, logics and keys. Their assets,
  deeds and contexts may differ. The readers and writers of storage give the same results on twins
  and leave twins (`Parallel`), and so do the methods that settle an interaction. A copy is a twin
  of its original unless its keys cannot be read back.
-/
import GoMoi.Lib.ProcPair
import GoMoi.State.Fuel

namespace GoMoi

open Proc Object

/-! ## 1. Twins -/

/-- The same storage, logics and keys. Keys that are loaded and empty are as good as keys that are
    not loaded, if loading them gives none. -/
structure Object.Twin (B : Backend) (o o' : Object) : Prop where
  id : o.id = o'.id
  data : o.data = o'.data
  storageTrees : o.storageTrees = o'.storageTrees
  storageTreeTxns : o.storageTreeTxns = o'.storageTreeTxns
  logicTreeTxn : o.logicTreeTxn = o'.logicTreeTxn
  keys : o.keys = o'.keys ∨ (o.keys = none ∧ o'.keys = some [] ∧ o'.storedKeys B = .ok [])

/-- All but the assets. -/
def Object.core (o : Object) : Object := { o with assetTreeTxn := none }

namespace Object.Twin

variable {B : Backend} {o o' o1 o1' : Object}

/-- A copy is a twin of an object whose keys can be read back. -/
theorem copy (hkeys : o.keys = some [] → o.storedKeys B = .ok []) : o.copy.Twin B o where
  id := rfl
  data := rfl
  storageTrees := rfl
  storageTreeTxns := rfl
  logicTreeTxn := rfl
  keys := by
    unfold Object.copy
    rcases hk : o.keys with _ | keys
    · exact .inl rfl
    cases keys with
    | nil => exact .inr ⟨rfl, rfl, hkeys hk⟩
    | cons key rest => exact .inl rfl

/-- Copies of twins are twins. -/
theorem copies (h : o.Twin B o') : o.copy.Twin B o'.copy where
  id := h.id
  data := h.data
  storageTrees := h.storageTrees
  storageTreeTxns := h.storageTreeTxns
  logicTreeTxn := h.logicTreeTxn
  keys := by
    unfold Object.copy
    rcases h.keys with heq | ⟨hnone, hempty, -⟩
    · exact .inl (congrArg (Option.bind · _) heq)
    · simp only [hnone, hempty]
      exact .inl rfl

/-- Assets do not matter. -/
theorem of_core (h : o.Twin B o') (hl : o1.core = o.core) (hr : o1'.core = o'.core) :
    o1.Twin B o1' := by
  have key : ∀ {a b : Object}, a.core = b.core → a.id = b.id ∧ a.data = b.data ∧
      a.storageTrees = b.storageTrees ∧ a.storageTreeTxns = b.storageTreeTxns ∧
      a.logicTreeTxn = b.logicTreeTxn ∧ a.keys = b.keys := by
    intro a b hab
    injection hab with hid _ hdata _ _ hkeys htrees _ htxns _ hlogic
    exact ⟨hid, hdata, htrees, htxns, hlogic, hkeys⟩
  obtain ⟨hid, hdata, htrees, htxns, hlogic, hkeys⟩ := key hl
  obtain ⟨hid', hdata', htrees', htxns', hlogic', hkeys'⟩ := key hr
  refine ⟨by rw [hid, hid', h.id], by rw [hdata, hdata', h.data], by rw [htrees, htrees',
    h.storageTrees], by rw [htxns, htxns', h.storageTreeTxns], by rw [hlogic, hlogic',
    h.logicTreeTxn], ?_⟩
  have hstored : o1'.storedKeys B = o'.storedKeys B := by
    unfold storedKeys
    rw [hid', hdata']
  rw [hkeys, hkeys', hstored]
  exact h.keys

/-- The logics of twins. -/
theorem getLogicObject (h : o.Twin B o') (logicID : LogicID) :
    getLogicObject B o logicID = getLogicObject B o' logicID := by
  unfold Object.getLogicObject
  rw [h.logicTreeTxn, h.id, h.data]

/-- The committed balances of twins. -/
theorem committedBalance (h : o.Twin B o') (assetID : AssetID) (tokenID : TokenID) :
    committedBalance B o assetID tokenID = committedBalance B o' assetID tokenID := by
  unfold Object.committedBalance Object.committedAsset
  rw [h.id, h.data]

end Object.Twin

/-! ## 2. Methods on twins -/

/-- On twins the two methods have the same result, and leave twins. -/
def Parallel {A : Type} (B : Backend) (x y : Method A) : Prop :=
  ∀ r r' : Receiver, r.object.Twin B r'.object →
    wp₂ x y (fun a b r₁ r₂ => a = b ∧ r₁.object.Twin B r₂.object)
      (fun r₁ r₂ => r₁.object.Twin B r₂.object) r r'

namespace Parallel

variable {A A' : Type} {B : Backend}

theorem pure (a : A) : Parallel B (Pure.pure a) (Pure.pure a) := fun _ _ h => ⟨rfl, h⟩

theorem bind {x y : Method A'} {f g : A' → Method A} (h : Parallel B x y)
    (hf : ∀ a, Parallel B (f a) (g a)) : Parallel B (x >>= f) (y >>= g) := by
  intro r r' htwin
  refine wp₂_seq (h r r' htwin) fun a b r1 r2 hab => ?_
  obtain ⟨rfl, htwin'⟩ := hab
  exact hf a r1 r2 htwin'

theorem option {C : Type} {f g : Option C → Method A} (hnone : Parallel B (f none) (g none))
    (hsome : ∀ c, Parallel B (f (some c)) (g (some c))) (o : Option C) :
      Parallel B (f o) (g o) := by
  cases o with
  | none => exact hnone
  | some c => exact hsome c

theorem this_bind {f g : Object → Method A}
    (h : ∀ o o' : Object, o.Twin B o' → Parallel B (f o) (g o')) :
    Parallel B (this >>= f) (this >>= g) :=
  fun r r' htwin => wp₂_bind (h _ _ htwin r r' htwin)

theorem set {f g : Object → Object} (h : ∀ o o' : Object, o.Twin B o' → (f o).Twin B (g o')) :
    Parallel B (set f) (set g) := fun _ _ htwin => ⟨rfl, h _ _ htwin⟩

theorem ofGo (g : Go A) : Parallel B (ofGo g) (ofGo g) :=
  fun _ _ htwin => wp₂_ofGo (fun _ _ => ⟨rfl, htwin⟩) htwin

theorem ite {c : Prop} [Decidable c] {x x' y y' : Method A} (hx : Parallel B x x')
    (hy : Parallel B y y') : Parallel B (if c then x else y) (if c then x' else y') := by
  by_cases h : c
  · rw [if_pos h, if_pos h]
    exact hx
  · rw [if_neg h, if_neg h]
    exact hy

end Parallel

namespace Object

variable {B : Backend} (logicID : LogicID)

theorem parallel_getStorageTree :
    Parallel B (getStorageTree B logicID) (getStorageTree B logicID) := by
  refine .this_bind fun o o' h => ?_
  rw [h.storageTrees, h.id, h.data]
  rcases o'.storageTrees.lookup logicID with _ | root
  swap
  · exact .pure _
  rcases B.metaStorageTree o'.id o'.data.storageRoot with e | roots
  · exact .pure _
  rcases hroot : roots logicID with e | _
  · simp only [hroot]
    exact .pure _
  simp only [hroot]
  refine .bind (.set fun a b hab => ?_) fun _ => .pure _
  exact { hab with storageTrees := by rw [hab.storageTrees] }

theorem parallel_createStorageTreeForLogic :
    Parallel B (createStorageTreeForLogic B logicID) (createStorageTreeForLogic B logicID) := by
  refine .this_bind fun o o' h => ?_
  rw [h.id, h.data]
  rcases B.metaStorageTree o'.id o'.data.storageRoot with e | _
  · exact .pure _
  refine .bind (.set fun a b hab => ?_) fun _ => .pure _
  exact { hab with storageTrees := by rw [hab.storageTrees] }

/-- **Writing.** -/
theorem parallel_setStorageEntry (key value : Bytes) :
    Parallel B (setStorageEntry B logicID key value) (setStorageEntry B logicID key value) := by
  have hopen : Parallel B (openStorage B logicID) (openStorage B logicID) := by
    refine .bind (parallel_getStorageTree logicID) fun r => ?_
    cases r with
    | ok root => exact .pure _
    | error e => exact .ite (parallel_createStorageTreeForLogic logicID) (.pure _)
  have htxns : ∀ f : GoMap LogicID (GoMap Bytes Bytes) → GoMap LogicID (GoMap Bytes Bytes),
      Parallel B (set fun o => { o with storageTreeTxns := f o.storageTreeTxns })
        (set fun o => { o with storageTreeTxns := f o.storageTreeTxns }) := by
    intro f
    refine .set fun a b hab => ?_
    exact { hab with storageTreeTxns := by rw [hab.storageTreeTxns] }
  refine .this_bind fun o o' h => ?_
  simp only [h.storageTreeTxns]
  have hwrite := Parallel.bind (htxns fun txns => txns.modify logicID fun txn =>
    if value.length = 0 then txn.erase key else txn.insert key value) fun _ =>
      .pure (none : Option Err)
  refine .ite (.bind (.pure _) (.option hwrite fun _ => .pure _))
    (.bind hopen (.option ?_ fun _ => ?_))
  · exact .bind (htxns fun txns => txns.insert logicID ∅) fun _ =>
      .bind (.pure _) (.option hwrite fun _ => .pure _)
  · exact .bind (.pure _) (.option hwrite fun _ => .pure _)

/-- **Reading.** -/
theorem parallel_getStorageEntry (key : Bytes) :
    Parallel B (getStorageEntry B logicID key) (getStorageEntry B logicID key) := by
  refine .this_bind fun o o' h => ?_
  rw [h.storageTreeTxns]
  rcases (o'.storageTreeTxns.lookup logicID).bind (·.lookup key) with _ | value
  swap
  · exact .pure _
  refine .bind (parallel_getStorageTree logicID) fun r => ?_
  rcases r with e | root
  · exact .pure _
  have hentry : treeEntry B o root key = treeEntry B o' root key := by
    unfold treeEntry
    rw [h.id]
  simp only [hentry]
  exact .pure _

/-! ## 3. Sequence number and fee -/

theorem Twin.keys_getD {o o' : Object} (h : o.Twin B o') : o.keys.getD [] = o'.keys.getD [] := by
  rcases h.keys with heq | ⟨hnone, hempty, -⟩
  · rw [heq]
  · rw [hnone, hempty]
    rfl

/-- Twins read the same keys. -/
theorem Twin.keys_eq {o o' : Object} (h : o.Twin B o') :
    o.keys.elim (o.storedKeys B) .ok = o'.keys.elim (o'.storedKeys B) .ok := by
  have hstored : o.storedKeys B = o'.storedKeys B := by rw [storedKeys, storedKeys, h.id, h.data]
  rcases h.keys with heq | ⟨hnone, hempty, hread⟩
  · rw [heq, hstored]
  · rw [hnone, hempty, Option.elim_none, hstored, hread]
    rfl

theorem parallel_ensureKeys : Parallel B (ensureKeys B) (ensureKeys B) := by
  intro r r' h
  rw [wp₂, ensureKeys_eq, ensureKeys_eq, h.keys_eq]
  cases r'.object.keys.elim (r'.object.storedKeys B) .ok with
  | ok keys => exact ⟨rfl, { h with keys := .inl rfl }⟩
  | error e => exact ⟨rfl, { h with keys := .inl rfl }⟩

/-- **The sequence number.** -/
theorem parallel_incrementSequenceID (keyID : UInt64) :
    Parallel B (incrementSequenceID B keyID) (incrementSequenceID B keyID) := by
  have hmodify : ∀ f : AccountKey → AccountKey,
      Parallel B (modifyKey keyID f) (modifyKey keyID f) := by
    intro f
    refine .this_bind fun o o' h => ?_
    rw [h.keys_getD]
    refine .ite (.set fun a b hab => ?_) (.ofGo _)
    exact { hab with keys := .inl (by rw [hab.keys_getD]) }
  refine .bind parallel_ensureKeys fun r => ?_
  cases r with
  | some err => exact .pure _
  | none => exact .bind (hmodify _) fun _ => .pure _

/-- The fee is taken from the assets alone. -/
theorem deductFuel_core (assetID : AssetID) (fee : Int) :
    Fixes (fun r => r.object.core) (deductFuel B assetID fee) := by
  have htoken : ∀ tokenID value p, Fixes (fun r : Receiver => r.object.core)
      (subToken assetID tokenID value p) := by
    intro tokenID value p
    refine .bind (fun _ => rfl) fun ao => ?_
    rcases ao.balance.lookup tokenID with _ | _
    · exact .pure _
    refine .bind ?_ fun _ => .bind (fun _ => rfl) fun _ => .pure _
    exact .bind (fun _ => rfl) fun _ => .bind (fun _ => rfl) fun _ => .bind (fun _ => rfl) fun _ =>
      .ite (fun _ => rfl) (.pure _)
  have hget : Fixes (fun r : Receiver => r.object.core) (getAssetObject B assetID true) := by
    refine .bind .self fun r => ?_
    cases r.object.pendingAsset assetID with
    | some p => exact .pure _
    | none =>
      cases committedAsset B r.object assetID with
      | error e => exact .pure _
      | ok d => exact .bind (fun _ => rfl) fun _ => .pure _
  refine .bind (fun _ => rfl) fun value => .bind (.bind hget fun r => ?_) fun _ => .pure _
  cases r with
  | error e => exact .pure _
  | ok p => exact htoken _ _ _

end Object

end GoMoi
