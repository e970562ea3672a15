/-
  File:      GoMoi/Consensus/Slots.lean
  Subject:   The slot table of the engine and the account locks it hands out.

  A slot is the engine's record of one running cluster. With it the accounts of the cluster are
  locked: `MutateLock` excludes every other cluster, `ReadLock` excludes writers only, `NoLock`
  is not recorded. The syncer takes locks of its own through `AddActiveAccounts`.

  * `Exclusive` -- one writer or only readers; `LocksInv` -- every list of the table is so, and
    none is empty; `LocksInv.lockAccounts_iff` -- admitted locks keep it exactly if they are
    named ones;
  * **`exclusive_run`** -- over every sequence of calls whose lock types are named ones, with
    `stray_lock_admits_writer` for a lock type that is none of the three.

  The methods that touch only `activeAccounts` are functions on that map. The channels of a slot
  are left out, and `addr` stands for its pointer.
-/
import GoMoi.Lib.Run
import GoMoi.Lib.SwapRemove
import GoMoi.Common.Types

namespace GoMoi

open List AList

/-! ## 1. The table -/

/-- `type SlotType int`, with its two constants. -/
inductive SlotType where
  | operatorSlot
  | validatorSlot
  deriving DecidableEq, Repr

/-- `type LockInfo struct`. -/
structure LockInfo where
  lockType : LockType
  clusterID : ClusterID
  deriving DecidableEq, Repr

/-- `type Slot struct`: its pointer, its type and the locks it was created with. -/
structure Slot where
  addr : Nat
  slotType : SlotType
  ps : GoMap Identifier LockType
  deriving DecidableEq

/-- The type of the field `activeAccounts`. -/
abbrev ActiveAccounts : Type := GoMap Identifier (List LockInfo)

/-- `type Slots struct`. `allocated` counts the slots made so far. -/
structure Slots where
  slots : GoMap ClusterID Slot
  availableOperatorSlots : Int
  availableValidatorSlots : Int
  activeAccounts : ActiveAccounts
  allocated : Nat
  deriving DecidableEq

/-- `NewSlots`. -/
def newSlots (operatorSlots validatorSlots : Int) : Slots where
  slots := ∅
  availableOperatorSlots := operatorSlots
  availableValidatorSlots := validatorSlots
  activeAccounts := ∅
  allocated := 0

namespace ActiveAccounts

/-- The loop of `areAccountsActive`. -/
def areActive (accs : ActiveAccounts) : List (Σ _ : Identifier, LockType) → Go Bool
  | [] => pure false
  | e :: rest =>
    match accs.lookup e.1 with
    | none => areActive accs rest
    | some activeLock => do
      let first ← sliceAt activeLock 0
      if first.lockType = mutateLock then
        pure true
      else if first.lockType = readLock ∧ e.2 = mutateLock then
        pure true
      else
        areActive accs rest

/-- `areAccountsActive`. -/
def areAccountsActive (accs : ActiveAccounts) (ids : GoMap Identifier LockType) : Go Bool :=
  accs.areActive ids.entries

/-- `addActiveAccount`. -/
def addActiveAccount (accs : ActiveAccounts) (id : Identifier) (lockInfo : LockInfo) :
    ActiveAccounts :=
  if lockInfo.lockType = noLock then accs
  else accs.insert id ((accs.lookup id).getD [] ++ [lockInfo])

/-- The loop of `AddActiveAccounts` and of `CreateSlotAndLockAccounts`. -/
def lockAccounts (accs : ActiveAccounts) (clusterID : ClusterID)
    (locks : List (Σ _ : Identifier, LockType)) : ActiveAccounts :=
  locks.foldl (fun accs e => accs.addActiveAccount e.1 ⟨e.2, clusterID⟩) accs

/-- `removeAccount`. -/
def removeAccount (accs : ActiveAccounts) (clusterID : ClusterID) (id : Identifier) :
    ActiveAccounts :=
  match accs.lookup id with
  | none => accs
  | some [] => accs
  | some [info] => if info.clusterID ≠ clusterID then accs else accs.erase id
  | some infos =>
    match infos.findIdx? (·.clusterID = clusterID) with
    | none => accs
    | some i => accs.insert id (swapRemove infos i)

/-- The loop of `ClearActiveAccounts` and of `CleanupSlot`. -/
def removeAccounts (accs : ActiveAccounts) (clusterID : ClusterID) (ids : List Identifier) :
    ActiveAccounts :=
  ids.foldl (fun accs id => accs.removeAccount clusterID id) accs

end ActiveAccounts

namespace Slots

/-- `areSlotsAvailable`. -/
def areSlotsAvailable (s : Slots) : SlotType → Bool
  | .operatorSlot => s.availableOperatorSlots > 0
  | .validatorSlot => true

/-- `decrementSlots`. -/
def decrementSlots (s : Slots) : SlotType → Slots
  | .operatorSlot => { s with availableOperatorSlots := s.availableOperatorSlots - 1 }
  | .validatorSlot => { s with availableValidatorSlots := s.availableValidatorSlots - 1 }

/-- `incrementSlots`. -/
def incrementSlots (s : Slots) : SlotType → Slots
  | .operatorSlot => { s with availableOperatorSlots := s.availableOperatorSlots + 1 }
  | .validatorSlot => { s with availableValidatorSlots := s.availableValidatorSlots + 1 }

/-- `AddActiveAccounts`. -/
def addActiveAccounts (s : Slots) (accountLocks : GoMap Identifier LockType)
    (clusterID : ClusterID) : Go (Bool × Slots) := do
  if ← s.activeAccounts.areAccountsActive accountLocks then
    return (false, s)
  return (true,
    { s with activeAccounts := s.activeAccounts.lockAccounts clusterID accountLocks.entries })

/-- `ClearActiveAccounts`. -/
def clearActiveAccounts (s : Slots) (clusterID : ClusterID) (ids : List Identifier) : Slots :=
  { s with activeAccounts := s.activeAccounts.removeAccounts clusterID ids }

/-- `CleanupSlot`. -/
def cleanupSlot (s : Slots) (cid : ClusterID) : Slots :=
  match s.slots.lookup cid with
  | none => s
  | some slot =>
    Slots.incrementSlots
      { s with
        activeAccounts := s.activeAccounts.removeAccounts cid slot.ps.keys
        slots := s.slots.erase cid }
      slot.slotType

/-- The new slot in the table and its accounts locked. A slot that the table has under this
    cluster id is overwritten. -/
def openSlot (s : Slots) (clusterID : ClusterID) (slotType : SlotType)
    (locks : GoMap Identifier LockType) : Slots :=
  Slots.decrementSlots
    { s with
      slots := s.slots.insert clusterID ⟨s.allocated, slotType, locks⟩
      allocated := s.allocated + 1
      activeAccounts := s.activeAccounts.lockAccounts clusterID locks.entries }
    slotType

/-- `CreateSlotAndLockAccounts`; the cluster id beside the slot is always empty. -/
def createSlotAndLockAccounts (s : Slots) (clusterID : ClusterID) (slotType : SlotType)
    (locks : GoMap Identifier LockType) : Go ((Option Slot × ClusterID) × Slots) := do
  if ← s.activeAccounts.areAccountsActive locks then
    return ((none, []), s)
  if !s.areSlotsAvailable slotType then
    return ((none, []), s)
  return ((some ⟨s.allocated, slotType, locks⟩, []), s.openSlot clusterID slotType locks)

/-- `GetSlot`. -/
def getSlot (s : Slots) (id : ClusterID) : Option Slot := s.slots.lookup id

end Slots

/-! ## 2. The lists of the table -/

namespace ActiveAccounts

/-- `activeAccounts[id]`: the empty slice for an account that is not active. -/
def holders (accs : ActiveAccounts) (id : Identifier) : List LockInfo := (accs.lookup id).getD []

/-- No list of the table is empty. -/
def Proper (accs : ActiveAccounts) : Prop := ∀ id, accs.lookup id ≠ some []

/-- The account may be locked in this way beside those who hold it. -/
def admits (accs : ActiveAccounts) (id : Identifier) (lock : LockType) : Bool :=
  match accs.holders id with
  | [] => true
  | first :: _ =>
    decide (first.lockType ≠ mutateLock) &&
      !(decide (first.lockType = readLock) && decide (lock = mutateLock))

variable {accs : ActiveAccounts} {id : Identifier} {l : List LockInfo}

theorem holders_of_lookup (h : accs.lookup id = some l) : accs.holders id = l := by
  rw [holders, h, Option.getD_some]

theorem Proper.lookup_eq_none (h : accs.Proper) : accs.lookup id = none ↔ accs.holders id = [] := by
  unfold holders
  rcases hl : accs.lookup id with _ | l
  · simp
  constructor
  · intro hn
    cases hn
  · rintro rfl
    exact absurd hl (h id)

/-- **The test asks every account whether it admits the lock.** -/
theorem areAccountsActive_eq (h : accs.Proper) (ids : GoMap Identifier LockType) :
    accs.areAccountsActive ids = .ok (ids.entries.any fun e => !accs.admits e.1 e.2) := by
  unfold areAccountsActive
  induction ids.entries with
  | nil => rfl
  | cons e rest ih =>
    rw [areActive, any_cons]
    rcases hl : accs.lookup e.1 with _ | l
    · have hadm : accs.admits e.1 e.2 = true := by simp [admits, h.lookup_eq_none.mp hl]
      simp [ih, hadm]
    rcases l with _ | ⟨first, infos⟩
    · exact absurd hl (h e.1)
    have hfirst : sliceAt (first :: infos) 0 = .ok first := rfl
    simp only [admits, holders_of_lookup hl, hfirst, ih]
    by_cases hm : first.lockType = mutateLock
    · simp [hm, bind, Except.bind, pure, Except.pure]
    by_cases hr : first.lockType = readLock ∧ e.2 = mutateLock
    · simp [hr.1, hr.2, bind, Except.bind, pure, Except.pure]
    · simp only [bind, Except.bind, if_neg hm, if_neg hr]
      rcases not_and_or.mp hr with hr | hr <;> simp [hm, hr]

/-! ### Locking -/

theorem holders_addActiveAccount (accs : ActiveAccounts) (id : Identifier) (info : LockInfo)
    (id' : Identifier) :
    (accs.addActiveAccount id info).holders id' =
      if id' = id ∧ info.lockType ≠ noLock then accs.holders id ++ [info]
      else accs.holders id' := by
  unfold addActiveAccount
  by_cases hn : info.lockType = noLock
  · simp [hn]
  by_cases hid : id' = id
  · subst hid
    simp [hn, holders]
  · simp [hn, hid, holders, lookup_insert_ne hid]

theorem Proper.addActiveAccount (h : accs.Proper) (id : Identifier) (info : LockInfo) :
    (accs.addActiveAccount id info).Proper := by
  intro id'
  unfold ActiveAccounts.addActiveAccount
  by_cases hn : info.lockType = noLock
  · rw [if_pos hn]
    exact h id'
  rw [if_neg hn]
  by_cases hid : id' = id
  · subst hid
    simp
  · rw [lookup_insert_ne hid]
    exact h id'

theorem Proper.lockAccounts (h : accs.Proper) (clusterID : ClusterID)
    (locks : List (Σ _ : Identifier, LockType)) : (accs.lockAccounts clusterID locks).Proper := by
  induction locks generalizing accs with
  | nil => exact h
  | cons e rest ih => exact ih (h.addActiveAccount e.1 _)

/-- What a cluster's locks add to one account's list. -/
def granted (clusterID : ClusterID) : Option LockType → List LockInfo
  | none => []
  | some lock => if lock = noLock then [] else [⟨lock, clusterID⟩]

/-- **Each account gets at most one entry for a cluster's locks.** -/
theorem holders_lockAccounts (accs : ActiveAccounts) (clusterID : ClusterID)
    (locks : GoMap Identifier LockType) (id : Identifier) :
    (accs.lockAccounts clusterID locks.entries).holders id =
      accs.holders id ++ granted clusterID (locks.lookup id) := by
  obtain ⟨l, hl⟩ := locks
  simp only [AList.lookup]
  induction l generalizing accs with
  | nil => simp [lockAccounts, granted]
  | cons e rest ih =>
    obtain ⟨k, lock⟩ := e
    obtain ⟨hnew, hrest⟩ := nodupKeys_cons.mp hl
    have hstep := ih (accs.addActiveAccount k ⟨lock, clusterID⟩) hrest
    refine hstep.trans ?_
    rw [holders_addActiveAccount]
    by_cases hid : id = k
    · subst hid
      have hnone : List.dlookup id rest = none := dlookup_eq_none.mpr hnew
      rw [hnone, dlookup_cons_eq]
      by_cases hn : lock = noLock <;> simp [granted, hn]
    · rw [dlookup_cons_ne _ _ hid]
      simp [hid]

/-! ### Releasing -/

/-- The entry is one of the cluster's. -/
def ofCluster (clusterID : ClusterID) (info : LockInfo) : Bool := info.clusterID = clusterID

/-- **Releasing an account takes the cluster's first entry out of its list.** -/
theorem holders_removeAccount (accs : ActiveAccounts) (clusterID : ClusterID) (id : Identifier) :
    ((accs.removeAccount clusterID id).holders id).Perm
      ((accs.holders id).eraseP (ofCluster clusterID)) := by
  unfold removeAccount
  split
  case h_1 hl => simp [holders, hl]
  case h_2 hl => simp [holders, hl]
  case h_3 info hl =>
    rw [holders_of_lookup hl]
    by_cases hc : info.clusterID = clusterID
    · simp [hc, holders, ofCluster]
    · simp [hc, ofCluster, holders_of_lookup hl]
  case h_4 infos _ _ hl =>
    rw [holders_of_lookup hl]
    split
    case h_1 hi =>
      have hno : ∀ info ∈ infos, ¬ ofCluster clusterID info = true := by
        intro info hmem
        simpa [ofCluster] using List.findIdx?_eq_none_iff.mp hi info hmem
      rw [holders_of_lookup hl, eraseP_of_forall_not hno]
    case h_2 i hi =>
      have hset : holders (accs.insert id (swapRemove infos i)) id = swapRemove infos i := by
        simp [holders]
      rw [hset]
      exact swapRemove_perm hi

theorem holders_removeAccount_ne (accs : ActiveAccounts) (clusterID : ClusterID) {id' : Identifier}
    (h : id' ≠ id) : (accs.removeAccount clusterID id).holders id' = accs.holders id' := by
  unfold removeAccount
  split
  case h_1 => rfl
  case h_2 => rfl
  case h_3 info _ =>
    by_cases hc : info.clusterID = clusterID
    · simp [hc, holders, lookup_erase_ne h]
    · simp [hc]
  case h_4 infos _ _ _ =>
    split
    case h_1 => rfl
    case h_2 => simp [holders, lookup_insert_ne h]

theorem Proper.removeAccount (h : accs.Proper) (clusterID : ClusterID) (id : Identifier) :
    (accs.removeAccount clusterID id).Proper := by
  intro id'
  unfold ActiveAccounts.removeAccount
  split
  case h_1 => exact h id'
  case h_2 => exact h id'
  case h_3 info _ =>
    by_cases hc : info.clusterID = clusterID
    · rw [if_neg (not_not.mpr hc)]
      by_cases hid : id' = id
      · subst hid
        simp
      · rw [lookup_erase_ne hid]
        exact h id'
    · rw [if_pos hc]
      exact h id'
  case h_4 infos hne hone hl =>
    split
    case h_1 => exact h id'
    case h_2 i hi =>
      by_cases hid : id' = id
      · -- a list with two entries keeps one of them
        subst hid
        obtain ⟨hlt, _⟩ := List.findIdx?_eq_some_iff_getElem.mp hi
        rw [lookup_insert, Ne, Option.some.injEq]
        intro hnil
        have hlen := (swapRemove_perm hi).length_eq
        rw [hnil, eraseP_eq_eraseIdx, hi, length_nil, length_eraseIdx_of_lt hlt]
          at hlen
        rcases infos with _ | ⟨info, _ | ⟨_, _⟩⟩
        · cases hlt
        · exact hone info rfl
        · simp at hlen
      · rw [lookup_insert_ne hid]
        exact h id'

/-! ### The loops -/

theorem Proper.removeAccounts (h : accs.Proper) (clusterID : ClusterID) (ids : List Identifier) :
    (accs.removeAccounts clusterID ids).Proper := by
  induction ids generalizing accs with
  | nil => exact h
  | cons id ids ih => exact ih (h.removeAccount clusterID id)

variable {ids : List Identifier} {lock : LockType}

theorem holders_removeAccounts_of_notMem (accs : ActiveAccounts) (clusterID : ClusterID)
    (h : id ∉ ids) : (accs.removeAccounts clusterID ids).holders id = accs.holders id := by
  induction ids generalizing accs with
  | nil => rfl
  | cons id' ids ih =>
    obtain ⟨hne, hrest⟩ := not_or.mp (mt mem_cons.mpr h)
    exact (ih (accs.removeAccount clusterID id') hrest).trans
      (holders_removeAccount_ne accs clusterID hne)

/-- **A loop over different accounts releases each of them once.** -/
theorem holders_removeAccounts (accs : ActiveAccounts) (clusterID : ClusterID) (hnd : ids.Nodup)
    (h : id ∈ ids) :
    ((accs.removeAccounts clusterID ids).holders id).Perm
      ((accs.holders id).eraseP (ofCluster clusterID)) := by
  induction ids generalizing accs with
  | nil => cases h
  | cons id' ids ih =>
    obtain ⟨hnew, hnd'⟩ := nodup_cons.mp hnd
    rcases mem_cons.mp h with rfl | hmem
    · show ((removeAccounts (accs.removeAccount clusterID id) clusterID ids).holders id).Perm _
      rw [holders_removeAccounts_of_notMem _ clusterID hnew]
      exact holders_removeAccount accs clusterID id
    have hne : id ≠ id' := by
      rintro rfl
      exact hnew hmem
    rw [← holders_removeAccount_ne accs clusterID hne]
    exact ih (accs.removeAccount clusterID id') hnd' hmem

/-! ## 3. One writer or only readers -/

/-- The list of an account that one cluster mutates or that only readers hold. -/
def Exclusive (l : List LockInfo) : Prop :=
  (∃ c, l = [⟨mutateLock, c⟩]) ∨ ∀ info ∈ l, info.lockType = readLock

/-- What the table keeps. -/
structure LocksInv (accs : ActiveAccounts) : Prop where
  proper : accs.Proper
  exclusive : ∀ id, Exclusive (accs.holders id)

/-- The invariant, read off the lists of the table. -/
theorem locksInv_iff :
    accs.LocksInv ↔ ∀ id l, accs.lookup id = some l →
      l ≠ [] ∧ ((∃ c, l = [⟨mutateLock, c⟩]) ∨ ∀ info ∈ l, info.lockType = readLock) := by
  constructor
  · intro h id l hl
    have hex := h.exclusive id
    rw [holders_of_lookup hl] at hex
    refine ⟨?_, hex⟩
    rintro rfl
    exact h.proper id hl
  · intro h
    refine ⟨fun id hl => (h id [] hl).1 rfl, fun id => ?_⟩
    rcases hl : accs.lookup id with _ | l
    · simp [holders, hl, Exclusive]
    rw [holders_of_lookup hl]
    exact (h id l hl).2

theorem exclusive_nil : Exclusive [] := .inr (by simp)

theorem Exclusive.perm {l' : List LockInfo} (h : Exclusive l) (hp : l'.Perm l) : Exclusive l' := by
  rcases h with ⟨c, rfl⟩ | h
  · exact .inl ⟨c, perm_singleton.mp hp⟩
  · exact .inr fun info hmem => h info (hp.mem_iff.mp hmem)

theorem Exclusive.eraseP (h : Exclusive l) (p : LockInfo → Bool) : Exclusive (l.eraseP p) := by
  rcases h with ⟨c, rfl⟩ | h
  · by_cases hp : p ⟨mutateLock, c⟩ = true
    · rw [eraseP_cons_of_pos hp]
      exact exclusive_nil
    · rw [eraseP_cons_of_neg hp]
      exact .inl ⟨c, rfl⟩
  · exact .inr fun info hmem => h info (mem_of_mem_eraseP hmem)

/-- The lock types that package `common` names. -/
def Named (lock : LockType) : Prop := lock = mutateLock ∨ lock = readLock ∨ lock = noLock

instance (lock : LockType) : Decidable (Named lock) := by
  unfold Named
  infer_instance

/-- **Where an account admits a named lock its list stays exclusive.** -/
theorem Exclusive.grant (h : Exclusive (accs.holders id)) (hadm : accs.admits id lock = true)
    (hn : Named lock) (clusterID : ClusterID) :
    Exclusive (accs.holders id ++ granted clusterID (some lock)) := by
  unfold admits at hadm
  rcases hh : accs.holders id with _ | ⟨first, infos⟩
  · rcases hn with rfl | rfl | rfl
    · exact .inl ⟨clusterID, rfl⟩
    · exact .inr (by simp [granted, readLock, noLock])
    · exact exclusive_nil
  rw [hh] at h hadm
  simp only [Bool.and_eq_true, decide_eq_true_eq, Bool.not_eq_true', Bool.and_eq_false_iff,
    decide_eq_false_iff_not] at hadm
  obtain ⟨hfirst, hreq⟩ := hadm
  have hread : ∀ info ∈ first :: infos, info.lockType = readLock := by
    rcases h with ⟨c, hc⟩ | hr
    · cases hc
      exact absurd rfl hfirst
    · exact hr
  have hnw : lock ≠ mutateLock := by
    rcases hreq with hr | hr
    · exact absurd (hread first mem_cons_self) hr
    · exact hr
  rcases hn with rfl | rfl | rfl
  · exact absurd rfl hnw
  · exact .inr (forall_mem_append.mpr ⟨hread, forall_mem_singleton.mpr rfl⟩)
  · have hnone : granted clusterID (some noLock) = [] := rfl
    rw [hnone, append_nil]
    exact .inr hread

/-- A list that a lock was added to can be exclusive only if the lock is named. -/
theorem Exclusive.named {clusterID : ClusterID}
    (h : Exclusive (l ++ granted clusterID (some lock))) : Named lock := by
  by_cases hno : lock = noLock
  · exact .inr (.inr hno)
  rw [granted, if_neg hno] at h
  rcases h with ⟨c, hc⟩ | hr
  · have hmem : (⟨lock, clusterID⟩ : LockInfo) ∈ [⟨mutateLock, c⟩] := by simp [← hc]
    cases mem_singleton.mp hmem
    exact .inl rfl
  · exact .inr (.inl (hr ⟨lock, clusterID⟩ (by simp)))

/-- **Locks that every account admits keep the invariant exactly if they are named.** -/
theorem LocksInv.lockAccounts_iff (h : accs.LocksInv) {locks : GoMap Identifier LockType}
    (hadm : ∀ e ∈ locks.entries, accs.admits e.1 e.2 = true) (clusterID : ClusterID) :
    LocksInv (accs.lockAccounts clusterID locks.entries) ↔ ∀ e ∈ locks.entries, Named e.2 := by
  constructor
  · intro h' e he
    have hex := h'.exclusive e.1
    rw [holders_lockAccounts, mem_lookup_iff.mpr he] at hex
    exact hex.named
  · intro hn
    refine ⟨h.proper.lockAccounts clusterID _, fun id => ?_⟩
    rw [holders_lockAccounts]
    rcases hl : locks.lookup id with _ | lock
    · simpa [granted] using h.exclusive id
    have hmem := mem_lookup_iff.mp hl
    exact (h.exclusive id).grant (hadm _ hmem) (hn _ hmem) clusterID

theorem LocksInv.removeAccount (h : accs.LocksInv) (clusterID : ClusterID) (id : Identifier) :
    LocksInv (accs.removeAccount clusterID id) := by
  refine ⟨h.proper.removeAccount clusterID id, fun id' => ?_⟩
  by_cases hid : id' = id
  · subst hid
    exact ((h.exclusive id').eraseP _).perm (holders_removeAccount accs clusterID id')
  · rw [holders_removeAccount_ne accs clusterID hid]
    exact h.exclusive id'

theorem LocksInv.removeAccounts (h : accs.LocksInv) (clusterID : ClusterID)
    (ids : List Identifier) : LocksInv (accs.removeAccounts clusterID ids) := by
  induction ids generalizing accs with
  | nil => exact h
  | cons id ids ih => exact ih (h.removeAccount clusterID id)

end ActiveAccounts

/-! ## 4. Sequences of calls -/

/-- The calls that change the table. -/
inductive Call where
  | addActiveAccounts (accountLocks : GoMap Identifier LockType) (clusterID : ClusterID)
  | clearActiveAccounts (clusterID : ClusterID) (ids : List Identifier)
  | createSlotAndLockAccounts (clusterID : ClusterID) (slotType : SlotType)
      (locks : GoMap Identifier LockType)
  | cleanupSlot (cid : ClusterID)

/-- The locks that a call asks for. -/
def Call.locks : Call → GoMap Identifier LockType
  | .addActiveAccounts accountLocks _ => accountLocks
  | .clearActiveAccounts _ _ => ∅
  | .createSlotAndLockAccounts _ _ locks => locks
  | .cleanupSlot _ => ∅

/-- Every lock that the call asks for is a `MutateLock`, a `ReadLock` or a `NoLock`. -/
def Call.Named (c : Call) : Prop := ∀ e ∈ c.locks.entries, ActiveAccounts.Named e.2

namespace Slots

/-- A call: whether it succeeds, and the table after it. -/
def call (s : Slots) : Call → Go (Bool × Slots)
  | .addActiveAccounts accountLocks clusterID => s.addActiveAccounts accountLocks clusterID
  | .clearActiveAccounts clusterID ids => pure (true, s.clearActiveAccounts clusterID ids)
  | .createSlotAndLockAccounts clusterID slotType locks => do
    let ((slot, _), s') ← s.createSlotAndLockAccounts clusterID slotType locks
    return (slot.isSome, s')
  | .cleanupSlot cid => pure (true, s.cleanupSlot cid)

/-- The machine of the calls. -/
def Called (s : Slots) (c : Call) (s' : Slots) : Prop := ∃ ok, s.call c = .ok (ok, s')

@[simp] theorem incrementSlots_activeAccounts (s : Slots) (t : SlotType) :
    (s.incrementSlots t).activeAccounts = s.activeAccounts := by
  cases t <;> rfl

@[simp] theorem openSlot_activeAccounts (s : Slots) (clusterID : ClusterID) (slotType : SlotType)
    (locks : GoMap Identifier LockType) :
    (s.openSlot clusterID slotType locks).activeAccounts =
      s.activeAccounts.lockAccounts clusterID locks.entries := by
  cases slotType <;> rfl

theorem cleanupSlot_activeAccounts (s : Slots) (cid : ClusterID) :
    ∃ ids, (s.cleanupSlot cid).activeAccounts = s.activeAccounts.removeAccounts cid ids := by
  unfold cleanupSlot
  cases s.slots.lookup cid with
  | none => exact ⟨[], rfl⟩
  | some slot => exact ⟨slot.ps.keys, incrementSlots_activeAccounts _ _⟩

variable {s : Slots}

/-- **What `AddActiveAccounts` does**: refuse, or lock accounts that all admit it. -/
theorem addActiveAccounts_spec (h : s.activeAccounts.Proper)
    (accountLocks : GoMap Identifier LockType) (clusterID : ClusterID) :
    s.addActiveAccounts accountLocks clusterID = .ok (false, s) ∨
      (∀ e ∈ accountLocks.entries, s.activeAccounts.admits e.1 e.2 = true) ∧
        s.addActiveAccounts accountLocks clusterID = .ok (true,
          { s with
            activeAccounts := s.activeAccounts.lockAccounts clusterID accountLocks.entries }) := by
  unfold addActiveAccounts
  rw [ActiveAccounts.areAccountsActive_eq h]
  cases hb : accountLocks.entries.any fun e => !s.activeAccounts.admits e.1 e.2 with
  | true => exact .inl rfl
  | false => exact .inr ⟨by simpa using hb, rfl⟩

/-- **What `CreateSlotAndLockAccounts` does**: refuse, or open a slot whose accounts all admit
    its locks. -/
theorem createSlotAndLockAccounts_spec (h : s.activeAccounts.Proper) (clusterID : ClusterID)
    (slotType : SlotType) (locks : GoMap Identifier LockType) :
    s.createSlotAndLockAccounts clusterID slotType locks = .ok ((none, []), s) ∨
      (∀ e ∈ locks.entries, s.activeAccounts.admits e.1 e.2 = true) ∧
        s.createSlotAndLockAccounts clusterID slotType locks =
          .ok ((some ⟨s.allocated, slotType, locks⟩, []), s.openSlot clusterID slotType locks) := by
  unfold createSlotAndLockAccounts
  rw [ActiveAccounts.areAccountsActive_eq h]
  cases hb : locks.entries.any fun e => !s.activeAccounts.admits e.1 e.2 with
  | true => exact .inl rfl
  | false =>
    cases ha : s.areSlotsAvailable slotType with
    | false => exact .inl rfl
    | true => exact .inr ⟨by simpa using hb, rfl⟩

/-- A call on a table that keeps the invariant returns; one that fails returns the table it was
    given, one that succeeds keeps the invariant exactly if its locks are named. -/
theorem call_spec (h : s.activeAccounts.LocksInv) (c : Call) :
    ∃ ok s', s.call c = .ok (ok, s') ∧ (ok = false → s' = s) ∧
      (ok = true → (s'.activeAccounts.LocksInv ↔ c.Named)) := by
  cases c with
  | addActiveAccounts accountLocks clusterID =>
    rcases addActiveAccounts_spec h.proper accountLocks clusterID with hr | ⟨hadm, hr⟩
    · exact ⟨false, s, hr, fun _ => rfl, fun e => (by cases e)⟩
    · exact ⟨true, _, hr, fun e => (by cases e), fun _ => h.lockAccounts_iff hadm clusterID⟩
  | clearActiveAccounts clusterID ids =>
    refine ⟨true, _, rfl, fun e => (by cases e), fun _ => ⟨fun _ e he => ?_, fun _ => ?_⟩⟩
    · cases he
    · exact h.removeAccounts clusterID ids
  | createSlotAndLockAccounts clusterID slotType locks =>
    rcases createSlotAndLockAccounts_spec h.proper clusterID slotType locks with hr | ⟨hadm, hr⟩
    · exact ⟨false, s, by simp [call, hr], fun _ => rfl, fun e => (by cases e)⟩
    refine ⟨true, s.openSlot clusterID slotType locks, by simp [call, hr],
      fun e => (by cases e), fun _ => ?_⟩
    rw [openSlot_activeAccounts]
    exact h.lockAccounts_iff hadm clusterID
  | cleanupSlot cid =>
    refine ⟨true, _, rfl, fun e => (by cases e), fun _ => ⟨fun _ e he => ?_, fun _ => ?_⟩⟩
    · cases he
    · obtain ⟨ids, hids⟩ := cleanupSlot_activeAccounts s cid
      rw [hids]
      exact h.removeAccounts cid ids

theorem newSlots_inv (operatorSlots validatorSlots : Int) :
    (newSlots operatorSlots validatorSlots).activeAccounts.LocksInv := by
  refine ⟨fun id => ?_, fun id => ?_⟩
  · simp [newSlots]
  · exact ActiveAccounts.exclusive_nil

theorem locksInv_run {operatorSlots validatorSlots : Int} {cs : List Call}
    (h : Run (Guarded (fun _ c => c.Named) Called) (newSlots operatorSlots validatorSlots) cs s) :
    s.activeAccounts.LocksInv := by
  apply h.invariant
  · exact newSlots_inv operatorSlots validatorSlots
  rintro _ s c s' hinv ⟨hn, ok, hr⟩
  obtain ⟨_, _, hr', hfail, hkeep⟩ := call_spec hinv c
  rw [hr] at hr'
  cases hr'
  cases ok with
  | false =>
    rw [hfail rfl]
    exact hinv
  | true => exact (hkeep rfl).mpr hn

/-- **One writer or only readers, in every run.** After every sequence of calls that ask only for
    named lock types, the list of an active account is not empty and holds either one
    `MutateLock` or only `ReadLock`s. The next call, whatever it asks for, returns; it returns
    the same table if it fails, and if it succeeds the lists stay so exactly if it asked for
    named lock types. -/
theorem exclusive_run {operatorSlots validatorSlots : Int} {cs : List Call} {s : Slots}
    (h : Run (Guarded (fun _ c => c.Named) Called) (newSlots operatorSlots validatorSlots) cs s) :
    (∀ id l, s.activeAccounts.lookup id = some l →
      l ≠ [] ∧ ((∃ c, l = [⟨mutateLock, c⟩]) ∨ ∀ info ∈ l, info.lockType = readLock)) ∧
    ∀ c, ∃ ok s', s.call c = .ok (ok, s') ∧ (ok = false → s' = s) ∧
      (ok = true →
        ((∀ id l, s'.activeAccounts.lookup id = some l →
          l ≠ [] ∧ ((∃ c, l = [⟨mutateLock, c⟩]) ∨ ∀ info ∈ l, info.lockType = readLock)) ↔
          c.Named)) := by
  have hinv := locksInv_run h
  refine ⟨ActiveAccounts.locksInv_iff.mp hinv, fun c => ?_⟩
  obtain ⟨ok, s', hr, hfail, hkeep⟩ := call_spec hinv c
  exact ⟨ok, s', hr, hfail, fun hok => ActiveAccounts.locksInv_iff.symm.trans (hkeep hok)⟩

/-- Two readers and, once both are gone, a writer. -/
theorem readers_then_writer :
    let id : Identifier := ⟨7⟩
    let s := ((((newSlots 1 1).openSlot [1] .validatorSlot (AList.singleton id readLock)).openSlot
      [2] .operatorSlot (AList.singleton id readLock)).cleanupSlot [1]).cleanupSlot [2]
    ∃ s', s.call (.addActiveAccounts (AList.singleton id mutateLock) [3]) = .ok (true, s') ∧
      ∀ l, s'.activeAccounts.lookup id = some l →
        l ≠ [] ∧ ((∃ c, l = [⟨mutateLock, c⟩]) ∨ ∀ info ∈ l, info.lockType = readLock) := by
  intro id s
  have hrun : Run (Guarded (fun _ c => c.Named) Called) (newSlots 1 1)
      [.createSlotAndLockAccounts [1] .validatorSlot (AList.singleton id readLock),
        .createSlotAndLockAccounts [2] .operatorSlot (AList.singleton id readLock),
        .cleanupSlot [1], .cleanupSlot [2],
        .addActiveAccounts (AList.singleton id mutateLock) [3]]
      { s with activeAccounts := s.activeAccounts.lockAccounts [3] [⟨id, mutateLock⟩] } := by
    refine .cons ⟨?_, true, rfl⟩ (.cons ⟨?_, true, rfl⟩ (.cons ⟨?_, true, rfl⟩
      (.cons ⟨?_, true, rfl⟩ (.cons ⟨?_, true, rfl⟩ .start)))) <;>
      simp [Call.Named, Call.locks, ActiveAccounts.Named]
  exact ⟨_, rfl, (exclusive_run hrun).1 id⟩

/-- **A lock type that is none of the three lets a writer in.** The first cluster asks for lock
    type 3 and gets it; the list of the account then starts with an entry that the test knows
    nothing of, and the second cluster mutates the account beside the first. -/
theorem stray_lock_admits_writer :
    ∃ s, Run Called (newSlots 1 1)
        [.createSlotAndLockAccounts [1] .validatorSlot (AList.singleton ⟨7⟩ ⟨3⟩),
          .createSlotAndLockAccounts [2] .validatorSlot (AList.singleton ⟨7⟩ mutateLock)] s ∧
      s.activeAccounts.lookup ⟨7⟩ = some [⟨⟨3⟩, [1]⟩, ⟨mutateLock, [2]⟩] :=
  ⟨_, .cons ⟨true, rfl⟩ (.cons ⟨true, rfl⟩ .start), rfl⟩

end Slots

end GoMoi
