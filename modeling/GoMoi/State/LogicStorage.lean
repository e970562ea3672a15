/-
  File:      GoMoi/State/LogicStorage.lean
  Subject:   The storage of the logics of an account (`SetStorageEntry`, `GetStorageEntry` and
             `commitActiveStorageTrees` of `state/object.go`), with the trees as maps.

  * `LogicStorage` -- a transaction over a tree for each logic, which stays after a commit;
  * **`lastWrites_iff`** -- the histories in which every read returns the last write.
-/
import GoMoi.State.Object
import GoMoi.Lib.Run

namespace GoMoi

open AList

/-! ## 1. The calls -/

/-- The pending transactions and the trees of an account; a transaction has its tree. -/
structure LogicStorage where
  storageTreeTxns : GoMap LogicID (GoMap Bytes Bytes)
  storageTrees : LogicID → Option (Bytes → Option Bytes)
  opened : ∀ logicID ∈ storageTreeTxns, (storageTrees logicID).isSome = true

namespace LogicStorage

/-- The tree after the walk over a transaction. The walk begins with the empty key, which `Set`
    refuses and which ends it. -/
def walked (txn : GoMap Bytes Bytes) (tree : Bytes → Option Bytes) : Bytes → Option Bytes :=
  if [] ∈ txn then tree else fun key => (txn.lookup key).or (tree key)

section

variable (s : LogicStorage) (logicID : LogicID) (key : Bytes)

def pending : Option Bytes := (s.storageTreeTxns.lookup logicID).bind (·.lookup key)

def committed : Option Bytes := (s.storageTrees logicID).bind (· key)

def getStorageEntry : Except Err Bytes :=
  match s.pending logicID key with
  | some value => .ok value
  | none => match s.storageTrees logicID with
    | none => .error (.sentinel .errLogicStorageTreeNotFound)
    | some merkleTree => match merkleTree key with
      | none => .error (.sentinel .errKeyNotFound)
      | some value => .ok value

/-- `SetStorageEntry`; an empty value deletes. -/
def setStorageEntry (value : Bytes) : LogicStorage where
  storageTreeTxns :=
    let txn := (s.storageTreeTxns.lookup logicID).getD ∅
    s.storageTreeTxns.insert logicID
      (if value.length = 0 then txn.erase key else txn.insert key value)
  storageTrees := Function.update s.storageTrees logicID
    (some ((s.storageTrees logicID).getD fun _ => none))
  opened id hid := by
    by_cases h : id = logicID
    · simp [h]
    · simpa [h] using s.opened id ((mem_insert _).mp hid |>.resolve_left h)

def deletePersistentStorage : LogicStorage :=
  match s.getStorageEntry logicID key with
  | .error _ => s
  | .ok _ => s.setStorageEntry logicID key []

def commit : LogicStorage where
  storageTreeTxns := s.storageTreeTxns
  storageTrees id := (s.storageTrees id).map ((s.storageTreeTxns.lookup id).elim (·) walked)
  opened id hid := by simpa using s.opened id hid

/-- The object is committed, and initialised from the new root. -/
def reload : LogicStorage := ⟨∅, s.commit.storageTrees, nofun⟩

end

inductive Event where
  | write (logicID : LogicID) (key value : Bytes)
  | delete (logicID : LogicID) (key : Bytes)
  | commit
  | reload

/-- What was written last. -/
abbrev Writes : Type := LogicID → Bytes → Option Bytes

def Writes.set (m : Writes) (logicID : LogicID) (key : Bytes) (value : Option Bytes) : Writes :=
  fun id k => if id = logicID ∧ k = key then value else m id k

/-- A storage, and what was written to it last. -/
def step : LogicStorage × Writes → Event → LogicStorage × Writes
  | (s, m), .write id key value => (s.setStorageEntry id key value,
    m.set id key (if value.length = 0 then none else some value))
  | (s, m), .delete id key => (s.deletePersistentStorage id key, m.set id key none)
  | (s, m), .commit => (s.commit, m)
  | (s, m), .reload => (s.reload, m)

/-! ## 2. What is read -/

variable {s : LogicStorage} {id logicID : LogicID} {k key value : Bytes}

theorem read_eq : (s.getStorageEntry id k).toOption = (s.pending id k).or (s.committed id k) := by
  unfold getStorageEntry committed
  cases s.pending id k with
  | some v => rfl
  | none =>
    rcases s.storageTrees id with _ | tree
    · rfl
    show (match tree k with | none => _ | some v => _ : Except Err Bytes).toOption = tree k
    cases tree k <;> rfl

theorem read_set : ((s.setStorageEntry logicID key value).getStorageEntry id k).toOption =
    if id = logicID ∧ k = key then
      (if value.length = 0 then s.committed logicID key else some value)
    else (s.getStorageEntry id k).toOption := by
  simp only [read_eq, pending, committed, setStorageEntry]
  by_cases hid : id = logicID
  · subst hid
    have htree : (some ((s.storageTrees id).getD fun _ => none)).bind (· k) = s.committed id k := by
      unfold committed
      cases s.storageTrees id <;> rfl
    have htxn : ((s.storageTreeTxns.lookup id).getD ∅).lookup k = s.pending id k := by
      unfold pending
      cases s.storageTreeTxns.lookup id <;> rfl
    by_cases hk : k = key
    · subst hk
      split <;> simp [*, committed]
    · split <;> simp [*, pending, committed]
  · simp [hid]

/-- What a commit leaves in the trees. -/
theorem committed_commit :
    s.commit.committed id k = if (s.pending id []).isSome then s.committed id k
    else (s.pending id k).or (s.committed id k) := by
  unfold commit committed pending
  rcases htxn : s.storageTreeTxns.lookup id with _ | txn
  · cases h : s.storageTrees id <;> simp [htxn, h]
  obtain ⟨_, htree⟩ := Option.isSome_iff_exists.mp
    (s.opened id (lookup_isSome.mp (by rw [htxn]; rfl)))
  by_cases hempty : [] ∈ txn <;> simp [htxn, htree, walked, lookup_isSome, hempty]

theorem read_commit : (s.commit.getStorageEntry id k).toOption =
    (s.getStorageEntry id k).toOption := by
  rw [read_eq, read_eq, committed_commit]
  show (s.pending id k).or _ = _
  cases s.pending id k <;> simp

theorem read_reload : (s.reload.getStorageEntry id k).toOption = s.commit.committed id k := by
  rw [read_eq]
  rfl

/-! ## 3. The last write -/

def Right (x : LogicStorage × Writes) : Prop :=
  ∀ id k, (x.1.getStorageEntry id k).toOption = x.2 id k

/-- The condition: what is deleted is not committed, and a transaction with the empty key adds
    nothing to its tree when the object is loaded again. -/
def Safe (x : LogicStorage × Writes) : Event → Prop
  | .write logicID key value => value.length = 0 → x.1.committed logicID key = none
  | .delete logicID key => x.1.committed logicID key = none
  | .commit => True
  | .reload => ∀ id k v, (x.1.pending id []).isSome = true → x.1.pending id k = some v →
    x.1.committed id k = some v

theorem right_step_iff {x : LogicStorage × Writes} {e : Event} (hx : Right x) :
    Right (step x e) ↔ Safe x e := by
  have hset : ∀ id key value, Right (step x (.write id key value)) ↔
    Safe x (.write id key value) := by
    intro logicID key value
    constructor
    · intro h hv
      simpa [step, Writes.set, read_set, hv] using h logicID key
    intro h id k
    simp only [step, Writes.set, read_set]
    split
    · split
      case isTrue hv => exact h hv
      case isFalse => rfl
    · exact hx id k
  cases e with
  | write logicID key value => exact hset logicID key value
  | delete logicID key =>
    rcases hget : x.1.getStorageEntry logicID key with err | value
    swap
    · have hstep : step x (.delete logicID key) = step x (.write logicID key []) := by
        simp [step, deletePersistentStorage, hget]
      rw [hstep, hset]
      exact forall_prop_of_true rfl
    have hnone : (x.1.getStorageEntry logicID key).toOption = none := by
      rw [hget]
      rfl
    refine iff_of_true (fun id k => ?_) (Option.or_eq_none_iff.mp (read_eq.symm.trans hnone)).2
    simp only [step, deletePersistentStorage, hget, Writes.set]
    split
    case isTrue h => rw [h.1, h.2, hnone]
    case isFalse => exact hx id k
  | commit => exact iff_of_true (fun id k => read_commit.trans (hx id k)) trivial
  | reload =>
    have hread : ∀ id k, x.2 id k = (x.1.pending id k).or (x.1.committed id k) :=
      fun id k => (hx id k).symm.trans read_eq
    simp only [Right, step, read_reload, committed_commit, hread, Safe]
    refine forall₂_congr fun id k => ?_
    cases x.1.pending id [] <;> cases x.1.pending id k <;> simp

/-- **Every read returns the last write exactly if every call is safe.** -/
theorem lastWrites_iff (s : LogicStorage) (es : List Event) :
    Along step (fun x e => Right (step x e)) (s, fun id k => (s.getStorageEntry id k).toOption) es ↔
      Along step Safe (s, fun id k => (s.getStorageEntry id k).toOption) es :=
  Along.congr (fun _ _ hx => (right_step_iff hx).mpr) (fun _ _ => right_step_iff) es fun _ _ => rfl

/-- A committed entry comes back when it is deleted. -/
theorem deleted_entry_read :
    ¬ Along step (fun x e => Right (step x e)) (⟨∅, fun _ => none, nofun⟩, fun _ _ => none)
      [.write ⟨0⟩ [1] [2], .commit, .delete ⟨0⟩ [1]] :=
  fun h => absurd (h.2.2.1 ⟨0⟩ [1]) (by decide)

end LogicStorage

end GoMoi
