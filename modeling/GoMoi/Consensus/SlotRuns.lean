/-
  File:      GoMoi/Consensus/SlotRuns.lean
  Subject:   The slots of the engine from the proposal to the clean-up (`consensus/handler.go`,
             `consensus/krama_engine.go`).

  A validator opens a slot for a proposal, locks the accounts that the proposal names, checks the
  proposal further, and starts a handler for the cluster; if a check fails, the slot of the
  message's cluster id is cleaned up. An operator does the same for a cluster id it has drawn. A
  handler that ends asks the engine to clean up the slot of its cluster id.

  * `SlotsInv` -- the locks of the table are those of the slots in it, each held once, and the
    slots in it are those that are counted as taken;
  * **`slots_run`** -- in runs in which no proposal names a live cluster a slot loses its locks
    only by the end of its own handler, and an empty slot table means an empty lock table;
  * `repeated_proposal_releases` -- what a repeated proposal does instead.

  Checks that do not touch the slots are answers of the environment.
-/
import GoMoi.Consensus.Kbft
import GoMoi.Consensus.Slots

namespace GoMoi

open ActiveAccounts List AList Slots

/-! ## 1. Messages -/

/-- `type ProposalMsg struct`, without the interactions. -/
structure ProposalMsg where
  prepareQc : Option PreparedInfo
  tesseract : Option Tesseract
  commitInfo : Option CommitInfo

namespace ProposalMsg

/-- `ProposalMsg.Proposal`: the commit information of the message is set in the tesseract. -/
def proposal (pmsg : ProposalMsg) : Go Proposal := do
  let ts ← Go.deref pmsg.tesseract
  return ⟨pmsg.prepareQc, some { ts with commitInfo := pmsg.commitInfo }⟩

/-- The cluster id that a proposal made of this message names. -/
def clusterID? (pmsg : ProposalMsg) : Option ClusterID := pmsg.commitInfo.map (·.clusterID)

end ProposalMsg

namespace Proposal

/-- `View`. -/
def view (p : Proposal) : Go UInt64 := do
  let qc ← Go.deref p.prepareQc
  return qc.view

/-- `ClusterID`. -/
def clusterID (p : Proposal) : Go ClusterID := do
  let ts ← Go.deref p.tesseract
  let info ← Go.deref ts.commitInfo
  return info.clusterID

/-- `Locks`. -/
def locks (p : Proposal) : Go (GoMap Identifier LockType) := do
  let ts ← Go.deref p.tesseract
  return ts.consensusInfo.accountLocks

end Proposal

/-- `type ICSMSG struct` of type `PROPOSAL`; no payload stands for one that cannot be decompressed
    or decoded. -/
structure ICSMsg where
  sender : KramaID
  clusterID : ClusterID
  payload : Option ProposalMsg

/-- What the checks of a proposal answer that do not read the slots. -/
structure ProposalAnswers where
  isValidTimeStamp : Bool
  isOperatorEligible : Bool
  loadClusterState : Option Err
  getValidators : Option Err
  isICSMember : Bool
  isTSStored : Bool
  validateInteractions : Option Err

/-- What the checks of a new cluster answer. -/
structure ICSAnswers where
  loadClusterState : Option Err
  validateInteractions : Option Err

/-! ## 2. The engine -/

/-- A running `icsHandler`: the cluster id it was started with and the slot it serves. -/
structure Handler where
  clusterID : ClusterID
  addr : Nat
  deriving DecidableEq, Repr

/-- The part of `Engine` that slots depend on. -/
structure EngineSlots where
  slots : Slots
  handlers : List Handler
  currentView : UInt64

namespace EngineSlots

/-- The checks of `createICSForProposal` that follow the creation of the slot. -/
def checkProposal (ans : ProposalAnswers) : Option Err :=
  if !ans.isOperatorEligible then some (.sentinel .errOperatorNotEligible)
  else match ans.loadClusterState with
    | some err => some err
    | none => match ans.getValidators with
      | some err => some err
      | none =>
        if !ans.isICSMember then some (.sentinel .errNotAMember)
        -- interactions of a tesseract that is stored already are not validated
        else if !ans.isTSStored then ans.validateInteractions
        else none

/-- `go k.icsHandler(ctx, clusterID)`. -/
def startHandler (k : EngineSlots) (clusterID : ClusterID) (slot : Slot) : EngineSlots :=
  { k with handlers := k.handlers ++ [⟨clusterID, slot.addr⟩] }

def withSlots (k : EngineSlots) (slots : Slots) : EngineSlots := { k with slots := slots }

/-- `createICSForProposal`. -/
def createICSForProposal (k : EngineSlots) (proposal : ProposalMsg) (ans : ProposalAnswers) :
    Go (Option Err × EngineSlots) := do
  let msg ← proposal.proposal
  if (← msg.view) ≠ k.currentView then
    return (some (.sentinel .errInvalidView), k)
  if !ans.isValidTimeStamp then
    return (some (.sentinel .errInvalidTimestamp), k)
  let clusterID ← msg.clusterID
  let locks ← msg.locks
  let ((slot, _), slots) ← k.slots.createSlotAndLockAccounts clusterID .validatorSlot locks
  match slot with
  | none => return (some (.new "failed to create slot"), k.withSlots slots)
  | some slot =>
    match checkProposal ans with
    | some err => return (some err, k.withSlots slots)
    | none => return (none, (k.withSlots slots).startHandler clusterID slot)

/-- `handleConsensusMessage` for a message of type `PROPOSAL`. -/
def handleProposalMsg (k : EngineSlots) (msg : ICSMsg) (ans : ProposalAnswers) : Go EngineSlots :=
  match msg.payload with
  | none => pure k
  | some proposal => do
    let (err, k') ← k.createICSForProposal proposal ans
    if err.isSome then
      return k'.withSlots (k'.slots.cleanupSlot msg.clusterID)
    return k'

/-- `createICS`. -/
def createICS (k : EngineSlots) (clusterID : ClusterID) (locks : GoMap Identifier LockType)
    (ans : ICSAnswers) : Go (Option Slot × Option Err × EngineSlots) := do
  let ((slot, _), slots) ← k.slots.createSlotAndLockAccounts clusterID .operatorSlot locks
  match slot with
  | none => return (none, some (.sentinel .errSlotsFull), k.withSlots slots)
  | some slot =>
    match ans.loadClusterState with
    | some err => return (none, some err, k.withSlots slots)
    | none =>
      match ans.validateInteractions with
      | some err => return (none, some err, k.withSlots slots)
      | none => return (some slot, none, k.withSlots slots)

/-- The part of `handleNewView` and of `handleFailedView` that follows `GenerateClusterID`. -/
def handleNewICS (k : EngineSlots) (clusterID : ClusterID) (locks : GoMap Identifier LockType)
    (ans : ICSAnswers) : Go EngineSlots := do
  let (slot, _, k') ← k.createICS clusterID locks ans
  match slot with
  | none => return k'.withSlots (k'.slots.cleanupSlot clusterID)
  | some slot => return k'.startHandler clusterID slot

/-- A handler has ended, and the engine receives its cluster id from `icsCloseCh`. -/
def closeICS (k : EngineSlots) (h : Handler) : EngineSlots :=
  { k with
    handlers := k.handlers.erase h
    slots := k.slots.cleanupSlot h.clusterID }

end EngineSlots

/-! ## 3. The locks of the table are those of its slots -/

/-- The slots of a type in the table. -/
def Slots.taken (s : Slots) (t : SlotType) : Nat :=
  s.slots.entries.countP fun e => e.2.slotType = t

/-- What a table keeps that started with these numbers of slots. -/
structure SlotsInv (operatorSlots validatorSlots : Int) (s : Slots) : Prop where
  proper : s.activeAccounts.Proper
  held : ∀ id info, info ∈ s.activeAccounts.holders id ↔
    ∃ slot, s.slots.lookup info.clusterID = some slot ∧
      slot.ps.lookup id = some info.lockType ∧ info.lockType ≠ noLock
  once : ∀ id, ((s.activeAccounts.holders id).map (·.clusterID)).Nodup
  operators : s.availableOperatorSlots + s.taken .operatorSlot = operatorSlots
  validators : s.availableValidatorSlots + s.taken .validatorSlot = validatorSlots

namespace SlotsInv

variable {operatorSlots validatorSlots : Int} {s : Slots}

theorem newSlots :
    SlotsInv operatorSlots validatorSlots (newSlots operatorSlots validatorSlots) where
  proper := (newSlots_inv operatorSlots validatorSlots).proper
  held := fun id info => by simp [GoMoi.newSlots, holders]
  once := fun id => nodup_nil
  operators := Int.add_zero _
  validators := Int.add_zero _

/-- **An empty slot table means an empty lock table and all slots available.** -/
theorem of_no_slot (h : SlotsInv operatorSlots validatorSlots s) (hs : s.slots = ∅) :
    s.activeAccounts = ∅ ∧ s.availableOperatorSlots = operatorSlots ∧
      s.availableValidatorSlots = validatorSlots := by
  have htaken : ∀ t, s.taken t = 0 := by
    intro t
    rw [taken, hs]
    rfl
  have hop := h.operators
  have hval := h.validators
  rw [htaken] at hop hval
  refine ⟨?_, by omega, by omega⟩
  refine AList.ext (eq_nil_iff_forall_not_mem.mpr fun e he => ?_)
  have hl := mem_lookup_iff.mpr he
  rcases hinfos : e.2 with _ | ⟨info, infos⟩
  · rw [hinfos] at hl
    exact h.proper e.1 hl
  have hmem : info ∈ s.activeAccounts.holders e.1 := by
    rw [holders_of_lookup hl, hinfos]
    exact mem_cons_self
  obtain ⟨slot, hslot, _⟩ := (h.held e.1 info).mp hmem
  rw [hs] at hslot
  cases hslot

/-! ### A slot opened -/

variable {clusterID cid : ClusterID} {slot : Slot}

theorem mem_granted {lock : Option LockType} {info : LockInfo} :
    info ∈ granted clusterID lock ↔
      info.clusterID = clusterID ∧ lock = some info.lockType ∧ info.lockType ≠ noLock := by
  obtain ⟨l, c⟩ := info
  rcases lock with _ | lock
  · simp [granted]
  by_cases hn : lock = noLock
  · subst hn
    simp only [granted, if_pos, not_mem_nil, Option.some.injEq, false_iff]
    rintro ⟨_, rfl, h⟩
    exact h rfl
  simp only [granted, if_neg hn, mem_singleton, LockInfo.mk.injEq, Option.some.injEq]
  constructor
  · rintro ⟨rfl, rfl⟩
    exact ⟨rfl, rfl, hn⟩
  · rintro ⟨rfl, rfl, _⟩
    exact ⟨rfl, rfl⟩

theorem granted_nodup (clusterID : ClusterID) (lock : Option LockType) :
    ((granted clusterID lock).map (·.clusterID)).Nodup := by
  unfold granted
  split
  · exact nodup_nil
  · split
    · exact nodup_nil
    · exact nodup_singleton _

theorem openSlot_slots (s : Slots) (clusterID : ClusterID) (slotType : SlotType)
    (locks : GoMap Identifier LockType) :
    (s.openSlot clusterID slotType locks).slots =
      s.slots.insert clusterID ⟨s.allocated, slotType, locks⟩ := by
  cases slotType <;> rfl

/-- The slots of a type after one is opened under a new cluster id. -/
theorem taken_openSlot (hnew : s.slots.lookup clusterID = none) (slotType : SlotType)
    (locks : GoMap Identifier LockType) (t : SlotType) :
    (s.openSlot clusterID slotType locks).taken t = s.taken t + if slotType = t then 1 else 0 := by
  rw [taken, openSlot_slots, entries_insert_of_notMem (lookup_eq_none.mp hnew), countP_cons]
  simp [taken]

theorem openSlot (h : SlotsInv operatorSlots validatorSlots s)
    (hnew : s.slots.lookup clusterID = none) (slotType : SlotType)
    (locks : GoMap Identifier LockType) :
    SlotsInv operatorSlots validatorSlots (s.openSlot clusterID slotType locks) := by
  -- no entry of the table is of the new cluster
  have hfresh : ∀ id info, info ∈ s.activeAccounts.holders id → info.clusterID ≠ clusterID := by
    rintro id info hmem rfl
    obtain ⟨_, hslot, _⟩ := (h.held id info).mp hmem
    rw [hnew] at hslot
    cases hslot
  refine ⟨?_, fun id info => ?_, fun id => ?_, ?_, ?_⟩
  · rw [openSlot_activeAccounts]
    exact h.proper.lockAccounts clusterID _
  · rw [openSlot_activeAccounts, holders_lockAccounts, mem_append,
      mem_granted, openSlot_slots, h.held]
    by_cases hc : info.clusterID = clusterID
    · rw [hc, hnew, lookup_insert]
      simp
    · rw [lookup_insert_ne hc]
      simp [hc]
  · rw [Slots.openSlot_activeAccounts, holders_lockAccounts, map_append]
    refine List.Nodup.append (h.once id) (granted_nodup clusterID _) fun c hold hgranted => ?_
    obtain ⟨info, hinfo, rfl⟩ := mem_map.mp hold
    obtain ⟨_, hinfo', hc⟩ := mem_map.mp hgranted
    exact hfresh id info hinfo (hc.symm.trans (mem_granted.mp hinfo').1)
  · rw [taken_openSlot hnew, ← h.operators]
    cases slotType <;> simp [Slots.openSlot, Slots.decrementSlots]
  · rw [taken_openSlot hnew, ← h.validators]
    cases slotType <;> simp [Slots.openSlot, Slots.decrementSlots]

/-! ### A slot cleaned up -/

/-- Where no cluster stands twice, removing the first entry of a cluster removes all of them. -/
theorem eraseP_ofCluster {l : List LockInfo} (hnd : (l.map (·.clusterID)).Nodup) :
    l.eraseP (ofCluster cid) = l.filter fun info => info.clusterID ≠ cid := by
  induction l with
  | nil => rfl
  | cons info l ih =>
    obtain ⟨hnew, hnd'⟩ := nodup_cons.mp hnd
    by_cases hc : info.clusterID = cid
    · have hrest : ∀ i ∈ l, i.clusterID ≠ cid := by
        rintro i hi rfl
        exact hnew (mem_map.mpr ⟨i, hi, hc.symm⟩)
      rw [eraseP_cons_of_pos (by simpa [ofCluster] using hc),
        filter_cons_of_neg (by simpa using hc)]
      exact (filter_eq_self.mpr (by simpa using hrest)).symm
    · rw [eraseP_cons_of_neg (by simpa [ofCluster] using hc),
        filter_cons_of_pos (by simpa using hc), ih hnd']

theorem cleanupSlot_eq (hs : s.slots.lookup cid = some slot) :
    s.cleanupSlot cid =
      incrementSlots
        { s with
          activeAccounts := s.activeAccounts.removeAccounts cid slot.ps.keys
          slots := s.slots.erase cid }
        slot.slotType := by
  rw [cleanupSlot, hs]

theorem cleanupSlot_slots (hs : s.slots.lookup cid = some slot) :
    (s.cleanupSlot cid).slots = s.slots.erase cid := by
  rw [cleanupSlot_eq hs]
  cases slot.slotType <;> rfl

theorem lookup_cleanupSlot (s : Slots) (cid cid' : ClusterID) :
    (s.cleanupSlot cid).slots.lookup cid' = if cid' = cid then none else s.slots.lookup cid' := by
  rcases hs : s.slots.lookup cid with _ | _
  · rw [cleanupSlot, hs]
    by_cases hc : cid' = cid
    · rw [if_pos hc, hc, hs]
    · rw [if_neg hc]
  rw [cleanupSlot_slots hs]
  by_cases hc : cid' = cid
  · rw [if_pos hc, hc, lookup_erase]
  · rw [if_neg hc, lookup_erase_ne hc]

/-- **The clean-up of a slot takes the entries of its cluster out of every list.** -/
theorem holders_cleanupSlot (h : SlotsInv operatorSlots validatorSlots s)
    (hs : s.slots.lookup cid = some slot) (id : Identifier) :
    ((s.cleanupSlot cid).activeAccounts.holders id).Perm
      ((s.activeAccounts.holders id).filter fun info => info.clusterID ≠ cid) := by
  rw [cleanupSlot_eq hs, incrementSlots_activeAccounts]
  by_cases hid : id ∈ slot.ps.keys
  · rw [← eraseP_ofCluster (h.once id)]
    exact holders_removeAccounts _ cid slot.ps.keys_nodup hid
  have hno : ∀ info ∈ s.activeAccounts.holders id, info.clusterID ≠ cid := by
    rintro info hmem rfl
    obtain ⟨_, hslot', hps, _⟩ := (h.held id info).mp hmem
    rw [hs] at hslot'
    cases hslot'
    exact hid (lookup_isSome.mp (by rw [hps]; rfl))
  rw [holders_removeAccounts_of_notMem _ cid hid,
    filter_eq_self.mpr (by simpa using hno)]

theorem taken_erase (hs : s.slots.lookup cid = some slot) (t : SlotType) :
    ((s.slots.erase cid).entries.countP fun e => e.2.slotType = t) +
      (if slot.slotType = t then 1 else 0) = s.taken t := by
  have hmem : cid ∈ s.slots.entries.keys :=
    mem_keys.mp (lookup_isSome.mp (by rw [hs]; rfl))
  obtain ⟨slot', l1, l2, _, hl, hk⟩ := exists_of_kerase hmem
  have hslot : slot' = slot := by
    have hin : (⟨cid, slot'⟩ : Σ _ : ClusterID, Slot) ∈ s.slots.entries := by simp [hl]
    have := mem_lookup_iff.mpr hin
    rw [hs] at this
    cases this
    rfl
  subst hslot
  have herase : (s.slots.erase cid).entries = l1 ++ l2 := hk
  rw [herase, taken, hl]
  simp [countP_cons]
  omega

theorem cleanupSlot (h : SlotsInv operatorSlots validatorSlots s) (cid : ClusterID) :
    SlotsInv operatorSlots validatorSlots (s.cleanupSlot cid) := by
  rcases hs : s.slots.lookup cid with _ | slot
  · rw [Slots.cleanupSlot, hs]
    exact h
  have hslots := cleanupSlot_slots hs
  refine ⟨?_, fun id info => ?_, fun id => ?_, ?_, ?_⟩
  · rw [cleanupSlot_eq hs, incrementSlots_activeAccounts]
    exact h.proper.removeAccounts cid _
  · rw [(holders_cleanupSlot h hs id).mem_iff, hslots, mem_filter, h.held]
    by_cases hc : info.clusterID = cid
    · rw [hc, lookup_erase]
      simp
    · simp [hc, lookup_erase_ne hc]
  · refine ((holders_cleanupSlot h hs id).map _).nodup_iff.mpr ?_
    exact (h.once id).sublist (filter_sublist.map _)
  · rw [taken, hslots, ← h.operators, ← taken_erase hs, cleanupSlot_eq hs]
    cases slot.slotType <;> simp [incrementSlots]
    omega
  · rw [taken, hslots, ← h.validators, ← taken_erase hs, cleanupSlot_eq hs]
    cases slot.slotType <;> simp [incrementSlots]
    omega

end SlotsInv

/-! ## 4. Runs of the engine -/

/-- What happens to the slots of an engine. -/
inductive SlotEvent where
  | proposal (msg : ICSMsg) (ans : ProposalAnswers)
  | newICS (clusterID : ClusterID) (locks : GoMap Identifier LockType) (ans : ICSAnswers)
  | closeICS (h : Handler)
  | newView (view : UInt64)

namespace EngineSlots

/-- The machine of the events. -/
inductive Step (k : EngineSlots) : SlotEvent → EngineSlots → Prop where
  | proposal {msg : ICSMsg} {ans : ProposalAnswers} {k' : EngineSlots}
      (h : k.handleProposalMsg msg ans = .ok k') : Step k (.proposal msg ans) k'
  | newICS {clusterID : ClusterID} {locks : GoMap Identifier LockType} {ans : ICSAnswers}
      {k' : EngineSlots} (h : k.handleNewICS clusterID locks ans = .ok k') :
      Step k (.newICS clusterID locks ans) k'
  | closeICS {h : Handler} (hmem : h ∈ k.handlers) : Step k (.closeICS h) (k.closeICS h)
  | newView (view : UInt64) : Step k (.newView view) { k with currentView := view }

/-- The engine at its start. -/
def start (operatorSlots validatorSlots : Int) : EngineSlots where
  slots := newSlots operatorSlots validatorSlots
  handlers := []
  currentView := 0

/-- A proposal's message is of the cluster that the proposal names, and neither it nor a new
    cluster of the operator has a slot already. -/
def Fresh (k : EngineSlots) : SlotEvent → Prop
  | .proposal msg _ => ∀ p, msg.payload = some p →
      p.clusterID? = some msg.clusterID ∧ k.slots.getSlot msg.clusterID = none
  | .newICS clusterID _ _ => k.slots.getSlot clusterID = none
  | .closeICS _ => True
  | .newView _ => True

/-- What the engine keeps: the table's invariant, and one handler for each slot. -/
structure Inv (operatorSlots validatorSlots : Int) (k : EngineSlots) : Prop where
  slots : SlotsInv operatorSlots validatorSlots k.slots
  served : ∀ cid addr, (⟨cid, addr⟩ : Handler) ∈ k.handlers ↔
    ∃ slot, k.slots.slots.lookup cid = some slot ∧ slot.addr = addr
  distinct : k.handlers.Nodup

/-- What a slot that was tried leaves: nothing, or the slot and its handler. -/
inductive Tried (k : EngineSlots) (cid : ClusterID) (t : SlotType)
    (locks : GoMap Identifier LockType) : EngineSlots → Prop where
  | refused : Tried k cid t locks k
  | undone : Tried k cid t locks
      (k.withSlots ((k.slots.openSlot cid t locks).cleanupSlot cid))
  | opened : Tried k cid t locks
      ((k.withSlots (k.slots.openSlot cid t locks)).startHandler cid ⟨k.slots.allocated, t, locks⟩)

variable {cid : ClusterID} {k k' : EngineSlots} {locks : GoMap Identifier LockType}

theorem cleanupSlot_of_none {s : Slots} (h : s.slots.lookup cid = none) :
    s.cleanupSlot cid = s := by
  rw [cleanupSlot, h]

variable {ans : ProposalAnswers} {e : SlotEvent}

section

variable (hp : k.slots.activeAccounts.Proper)
include hp

/-- The slot is not made, or it is opened under the proposal's cluster id. -/
theorem createICSForProposal_spec {pmsg : ProposalMsg} {err : Option Err}
    (h : k.createICSForProposal pmsg ans = .ok (err, k')) :
    (err.isSome ∧ k' = k) ∨
      ∃ cid locks, pmsg.clusterID? = some cid ∧
        ((err.isSome ∧ k' = k.withSlots (k.slots.openSlot cid .validatorSlot locks)) ∨
          (err = none ∧ k' = (k.withSlots (k.slots.openSlot cid .validatorSlot locks)).startHandler
            cid ⟨k.slots.allocated, .validatorSlot, locks⟩)) := by
  obtain ⟨_, hmsg, h⟩ := Go.bind_eq_ok.mp h
  obtain ⟨_, _, h⟩ := Go.bind_eq_ok.mp h
  split at h
  · cases h
    exact .inl ⟨rfl, rfl⟩
  split at h
  · cases h
    exact .inl ⟨rfl, rfl⟩
  obtain ⟨_, hcid, h⟩ := Go.bind_eq_ok.mp h
  obtain ⟨_, hlocks, h⟩ := Go.bind_eq_ok.mp h
  obtain ⟨ts, _, hts⟩ := Go.bind_eq_ok.mp hmsg
  cases hts
  obtain ⟨info, hinfo, hci⟩ := Go.bind_eq_ok (x := Go.deref pmsg.commitInfo).mp hcid
  cases hci
  cases hlocks
  have hcommit : pmsg.commitInfo = some info := Go.deref_eq_ok.mp hinfo
  have hnamed : pmsg.clusterID? = some info.clusterID := by
    rw [ProposalMsg.clusterID?, hcommit]
    rfl
  rcases createSlotAndLockAccounts_spec hp info.clusterID .validatorSlot
    ts.consensusInfo.accountLocks with hr | ⟨_, hr⟩
  · rw [hr] at h
    cases h
    exact .inl ⟨rfl, rfl⟩
  refine .inr ⟨info.clusterID, ts.consensusInfo.accountLocks, hnamed, ?_⟩
  rw [hr] at h
  cases hc : checkProposal ans with
  | some e =>
    rw [hc] at h
    cases h
    exact .inl ⟨rfl, rfl⟩
  | none =>
    rw [hc] at h
    cases h
    exact .inr ⟨rfl, rfl⟩

/-- **What a proposal of a new cluster does to the slots.** -/
theorem handleProposalMsg_spec {msg : ICSMsg} (hf : k.Fresh (.proposal msg ans))
    (h : k.handleProposalMsg msg ans = .ok k') :
    k' = k ∨ k.slots.slots.lookup msg.clusterID = none ∧
      ∃ locks, Tried k msg.clusterID .validatorSlot locks k' := by
  unfold handleProposalMsg at h
  rcases hpay : msg.payload with _ | pmsg
  · rw [hpay] at h
    cases h
    exact .inl rfl
  rw [hpay] at h
  obtain ⟨hcid, hnew⟩ := hf pmsg hpay
  obtain ⟨⟨_, _⟩, hcreate, hend⟩ := Go.bind_eq_ok.mp h
  rcases createICSForProposal_spec hp hcreate with
    ⟨herr, rfl⟩ | ⟨cid, locks, hcid', ⟨herr, rfl⟩ | ⟨rfl, rfl⟩⟩
  · simp only [herr, if_true] at hend
    cases hend
    refine .inl ?_
    rw [cleanupSlot_of_none hnew]
    rfl
  · rw [hcid] at hcid'
    cases hcid'
    simp only [herr, if_true] at hend
    cases hend
    exact .inr ⟨hnew, locks, .undone⟩
  · rw [hcid] at hcid'
    cases hcid'
    cases hend
    exact .inr ⟨hnew, locks, .opened⟩

/-- **What a new cluster of the operator does to the slots.** -/
theorem handleNewICS_spec {ans : ICSAnswers} (hnew : k.slots.slots.lookup cid = none)
    (h : k.handleNewICS cid locks ans = .ok k') : Tried k cid .operatorSlot locks k' := by
  unfold handleNewICS createICS at h
  rcases createSlotAndLockAccounts_spec hp cid .operatorSlot locks with hr | ⟨_, hr⟩
  · rw [hr] at h
    cases h
    show Tried k cid .operatorSlot locks (k.withSlots (k.slots.cleanupSlot cid))
    rw [cleanupSlot_of_none hnew]
    exact .refused
  rw [hr] at h
  rcases hload : ans.loadClusterState with _ | e
  swap
  · simp only [hload] at h
    cases h
    exact .undone
  cases hval : ans.validateInteractions with
  | some e =>
    simp only [hload, hval] at h
    cases h
    exact .undone
  | none =>
    simp only [hload, hval] at h
    cases h
    exact .opened

end

/-! ### What a step keeps -/

variable {operatorSlots validatorSlots : Int}

theorem Inv.start : Inv operatorSlots validatorSlots (start operatorSlots validatorSlots) := by
  refine ⟨SlotsInv.newSlots, fun cid addr => ?_, nodup_nil⟩
  simp [EngineSlots.start, newSlots]

open SlotsInv

theorem Inv.tried (h : Inv operatorSlots validatorSlots k) {t : SlotType}
    (hnew : k.slots.slots.lookup cid = none) (ht : Tried k cid t locks k') :
    Inv operatorSlots validatorSlots k' := by
  have hopen := h.slots.openSlot hnew t locks
  cases ht with
  | refused => exact h
  | undone =>
    refine ⟨hopen.cleanupSlot cid, fun cid' addr => ?_, h.distinct⟩
    show _ ∈ k.handlers ↔ ∃ slot,
      ((k.slots.openSlot cid t locks).cleanupSlot cid).slots.lookup cid' = some slot ∧ _
    rw [h.served, lookup_cleanupSlot, openSlot_slots]
    by_cases hc : cid' = cid
    · rw [if_pos hc, hc, hnew]
    · rw [if_neg hc, lookup_insert_ne hc]
  | opened =>
    refine ⟨hopen, fun cid' addr => ?_, ?_⟩
    · show _ ∈ k.handlers ++ [_] ↔ ∃ slot,
        (k.slots.openSlot cid t locks).slots.lookup cid' = some slot ∧ _
      rw [mem_append, mem_singleton, h.served, openSlot_slots]
      by_cases hc : cid' = cid
      · subst hc
        rw [hnew, lookup_insert]
        simp [eq_comm]
      · rw [lookup_insert_ne hc]
        simp [hc]
    · refine nodup_append'.mpr ⟨h.distinct, nodup_singleton _, ?_⟩
      intro hd hmem hnewh
      rw [mem_singleton.mp hnewh] at hmem
      obtain ⟨_, hslot, _⟩ := (h.served _ _).mp hmem
      rw [hnew] at hslot
      cases hslot

theorem Inv.closeICS {k : EngineSlots} (h : Inv operatorSlots validatorSlots k) {hd : Handler}
    (hmem : hd ∈ k.handlers) : Inv operatorSlots validatorSlots (k.closeICS hd) := by
  refine ⟨h.slots.cleanupSlot hd.clusterID, fun cid addr => ?_, h.distinct.erase hd⟩
  show _ ∈ k.handlers.erase hd ↔ ∃ slot,
    (k.slots.cleanupSlot hd.clusterID).slots.lookup cid = some slot ∧ _
  rw [h.distinct.mem_erase_iff, h.served, lookup_cleanupSlot]
  by_cases hc : cid = hd.clusterID
  · -- the handler that ended is the only one of its cluster
    obtain ⟨_, hslot, haddr⟩ := (h.served hd.clusterID hd.addr).mp hmem
    rw [if_pos hc, hc, hslot]
    constructor
    · rintro ⟨hne, _, hs, rfl⟩
      cases hs
      exact absurd (by rw [haddr]) hne
    · rintro ⟨_, hs, _⟩
      cases hs
  · rw [if_neg hc]
    constructor
    · rintro ⟨_, hs⟩
      exact hs
    · intro hs
      exact ⟨fun he => hc (by rw [← he]), hs⟩

theorem Inv.step (h : Inv operatorSlots validatorSlots k) (hf : k.Fresh e) (hs : Step k e k') :
    Inv operatorSlots validatorSlots k' := by
  cases hs with
  | proposal hr =>
    rcases handleProposalMsg_spec h.slots.proper hf hr with rfl | ⟨hnew, _, ht⟩
    · exact h
    · exact h.tried hnew ht
  | newICS hr => exact h.tried hf (handleNewICS_spec h.slots.proper hf hr)
  | closeICS hmem => exact h.closeICS hmem
  | newView view => exact ⟨h.slots, h.served, h.distinct⟩

theorem inv_run {es : List SlotEvent}
    (h : Run (Guarded Fresh Step) (start operatorSlots validatorSlots) es k) :
    Inv operatorSlots validatorSlots k := by
  apply h.invariant
  · exact Inv.start
  intro _ k e k' hinv hstep
  exact hinv.step hstep.1 hstep.2

/-- A slot leaves the table only when its own handler ends. -/
theorem slot_kept (h : Inv operatorSlots validatorSlots k) (hf : k.Fresh e) (hs : Step k e k')
    {slot : Slot} (hslot : k.slots.slots.lookup cid = some slot)
    (he : e ≠ .closeICS ⟨cid, slot.addr⟩) : k'.slots.slots.lookup cid = some slot := by
  have htried : ∀ {cid' t locks}, k.slots.slots.lookup cid' = none → Tried k cid' t locks k' →
      k'.slots.slots.lookup cid = some slot := by
    intro cid' t locks hnew ht
    have hc : cid ≠ cid' := by
      rintro rfl
      rw [hnew] at hslot
      cases hslot
    cases ht with
    | refused => exact hslot
    | undone =>
      show ((k.slots.openSlot cid' t locks).cleanupSlot cid').slots.lookup cid = _
      rw [lookup_cleanupSlot, if_neg hc, openSlot_slots, lookup_insert_ne hc, hslot]
    | opened =>
      show (k.slots.openSlot cid' t locks).slots.lookup cid = _
      rw [openSlot_slots, lookup_insert_ne hc, hslot]
  cases hs with
  | proposal hr =>
    rcases handleProposalMsg_spec h.slots.proper hf hr with rfl | ⟨hnew, _, ht⟩
    · exact hslot
    · exact htried hnew ht
  | newICS hr => exact htried hf (handleNewICS_spec h.slots.proper hf hr)
  | @closeICS hd hmem =>
    show (k.slots.cleanupSlot hd.clusterID).slots.lookup cid = _
    have hc : cid ≠ hd.clusterID := by
      rintro rfl
      obtain ⟨_, hslot', haddr⟩ := (h.served hd.clusterID hd.addr).mp hmem
      rw [hslot] at hslot'
      cases hslot'
      exact he (by rw [haddr])
    rw [lookup_cleanupSlot, if_neg hc, hslot]
  | newView view => exact hslot

/-- **Slots keep their locks.** In every run in which no proposal and no new cluster takes the
    cluster id of a live slot: the locks of a slot in the table are held; they stay held by every
    next step of that kind but the end of the slot's own handler; and once no slot is in the
    table, no account is locked and every slot is available again. -/
theorem slots_run {es : List SlotEvent} {k : EngineSlots}
    (h : Run (Guarded Fresh Step) (start operatorSlots validatorSlots) es k) :
    (∀ cid slot id lock, k.slots.slots.lookup cid = some slot → slot.ps.lookup id = some lock →
      lock ≠ noLock →
        ⟨lock, cid⟩ ∈ k.slots.activeAccounts.holders id ∧
        ∀ e k', Guarded Fresh Step k e k' →
          ⟨lock, cid⟩ ∈ k'.slots.activeAccounts.holders id ∨ e = .closeICS ⟨cid, slot.addr⟩) ∧
    (k.slots.slots = ∅ → k.slots.activeAccounts = ∅ ∧
      k.slots.availableOperatorSlots = operatorSlots ∧
      k.slots.availableValidatorSlots = validatorSlots) := by
  have hinv := inv_run h
  refine ⟨fun cid slot id lock hslot hlock hn => ⟨?_, fun e k' hstep => ?_⟩,
    hinv.slots.of_no_slot⟩
  · exact (hinv.slots.held id ⟨lock, cid⟩).mpr ⟨slot, hslot, hlock, hn⟩
  by_cases he : e = .closeICS ⟨cid, slot.addr⟩
  · exact .inr he
  · have hslot' := slot_kept hinv hstep.1 hstep.2 hslot he
    have hinv' := hinv.step hstep.1 hstep.2
    exact .inl ((hinv'.slots.held id ⟨lock, cid⟩).mpr ⟨slot, hslot', hlock, hn⟩)

/-! ## 5. Repeated proposals -/

namespace Twice

/-- A proposal for the cluster `[1]` that locks one account. -/
def proposalOf (lock : LockType) : ProposalMsg where
  prepareQc := some ⟨0⟩
  tesseract := some
    { participants := ∅, interactionsHash := nilHash, receiptsHash := nilHash, epoch := 0
      timestamp := 0, fuelUsed := 0, fuelLimit := 0
      consensusInfo :=
        { proposer := [], binaryHash := nilHash, identityHash := nilHash, view := 0, lastCommit := ∅
          evidenceHash := ∅, accountLocks := AList.singleton ⟨7⟩ lock, icsSeed := nilHash
          icsProof := [] }
      sealBytes := [], sealBy := [], commitInfo := none }
  commitInfo := some
    { qc := none, operator := [9], clusterID := [1], view := 0, randomSet := []
      randomSetSizeWithoutDelta := 0 }

/-- The event of its arrival, with checks that all pass. -/
def arrives (lock : LockType) : SlotEvent :=
  .proposal ⟨[9], [1], some (proposalOf lock)⟩ ⟨true, true, none, none, true, false, none⟩

/-- The engine after the first proposal. -/
def once (lock : LockType) : EngineSlots where
  slots := (newSlots 1 1).openSlot [1] .validatorSlot (AList.singleton ⟨7⟩ lock)
  handlers := [⟨[1], 0⟩]
  currentView := 0

end Twice

open Twice in
/-- One proposal, handled to its end. -/
theorem single_proposal_keeps :
    ⟨mutateLock, [1]⟩ ∈ (once mutateLock).slots.activeAccounts.holders ⟨7⟩ ∧
      ((once mutateLock).closeICS ⟨[1], 0⟩).slots.activeAccounts = ∅ := by
  have hfresh : (start 1 1).Fresh (arrives mutateLock) := by
    rintro p hp
    cases hp
    exact ⟨rfl, rfl⟩
  have hfirst : Run (Guarded Fresh Step) (start 1 1) [arrives mutateLock] (once mutateLock) :=
    .snoc .start (arrives mutateLock) ⟨hfresh, .proposal rfl⟩
  have hboth : Run (Guarded Fresh Step) (start 1 1) [arrives mutateLock, .closeICS ⟨[1], 0⟩]
      ((once mutateLock).closeICS ⟨[1], 0⟩) :=
    .snoc hfirst _ ⟨trivial, .closeICS mem_cons_self⟩
  exact ⟨((slots_run hfirst).1 [1] ⟨0, .validatorSlot, AList.singleton ⟨7⟩ mutateLock⟩ ⟨7⟩
    mutateLock rfl rfl (by decide)).1, ((slots_run hboth).2 rfl).1⟩

open Twice in
/-- **A repeated proposal releases the locks of the live slot, or leaks them.** With a
    `MutateLock` the second proposal is refused, and the clean-up that follows takes the slot of
    the first one out of the table while its handler runs. With a `ReadLock` it overwrites that
    slot, and the clean-ups of both handlers leave one lock and one slot behind. -/
theorem repeated_proposal_releases :
    (∃ k, Run Step (start 1 1) [arrives mutateLock, arrives mutateLock] k ∧
      (once mutateLock).slots.activeAccounts.holders ⟨7⟩ = [⟨mutateLock, [1]⟩] ∧
      k.slots.activeAccounts.holders ⟨7⟩ = [] ∧ k.handlers = [⟨[1], 0⟩]) ∧
    ∃ k, Run Step (start 1 1) [arrives readLock, arrives readLock, .closeICS ⟨[1], 0⟩,
        .closeICS ⟨[1], 1⟩] k ∧
      k.slots.slots = ∅ ∧ k.handlers = [] ∧
      k.slots.activeAccounts.holders ⟨7⟩ = [⟨readLock, [1]⟩] ∧
      k.slots.availableValidatorSlots = 0 := by
  refine ⟨⟨_, .cons (.proposal rfl) (.cons (.proposal rfl) .start), rfl, rfl, rfl⟩, ?_⟩
  exact ⟨_, .cons (.proposal rfl) (.cons (.proposal rfl) (.cons (.closeICS (by decide))
    (.cons (.closeICS (by decide)) .start))), rfl, rfl, rfl, rfl⟩

end EngineSlots

end GoMoi
