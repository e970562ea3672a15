/-
  File:      GoMoi/Consensus/Participants.lean
  Subject:   The participants of an ICS at run time, and the states of them that a tesseract records
             (`consensus/types/ics.go`, `common/participant.go`).

  * `excludeParticipantsFromICS` -- after the execution: a set is excluded once every participant
    counted for it has failed;
  * `participantStates` -- what is committed: of a failed participant the nil state hash.

  Loops over a map take the order of the iteration as an argument, or read the entries in the order
  of the list, which stands for any.
-/
import GoMoi.Common.Interaction
import GoMoi.Consensus.Committee

namespace GoMoi

/-! ## 1. Data -/

/-- The fields of `type AccountMetaInfo struct` that are read here. -/
structure AccountMetaInfo where
  id : Identifier
  height : UInt64
  tesseractHash : Hash
  contextHash : Hash
  commitHash : Hash
  inheritedAccount : Identifier
  deriving DecidableEq, Repr

/-- `type Participant struct`. -/
structure Participant where
  id : Identifier
  isGenesis : Bool
  isSigner : Bool
  height : UInt64
  contextHash : Hash
  consensusNodesHash : Hash
  tesseractHash : Hash
  nodeSetPosition : Nat
  lockType : LockType
  contextDelta : Option DeltaGroup
  consensusQuorum : UInt32
  commitHash : Hash
  excludeFromICS : Bool
  deriving DecidableEq, Repr

namespace Participant

/-- `NewHeight`. -/
def newHeight (p : Participant) : UInt64 :=
  if p.isGenesis ∨ mutateLock.val < p.lockType.val ∨ p.excludeFromICS then p.height
  else p.height + 1

/-- `ExcludedFromICS`. -/
def excludedFromICS (p : Participant) : Bool := !p.isGenesis && p.excludeFromICS

end Participant

/-- `type Participants map[Identifier]*Participant`. -/
abbrev Participants : Type := GoMap Identifier Participant

namespace Participants

/-- `LockInfo(true)`: the locks of the participants that are not excluded. -/
def lockInfo (ps : Participants) : GoMap Identifier LockType :=
  ps.filterMap fun _ info => if info.excludedFromICS then none else some info.lockType

/-- `ExcludeFromICS`; an identifier that does not take part is passed over. -/
def excludeFromICS (ps : Participants) (ids : List Identifier) : Participants :=
  ids.foldl (fun ps id => ps.modify id fun info => { info with excludeFromICS := true }) ps

end Participants

theorem lookup_excludeFromICS (participants : Participants) (ids : List Identifier)
    (id : Identifier) :
    (participants.excludeFromICS ids).lookup id = (participants.lookup id).map fun p =>
      { p with excludeFromICS := p.excludeFromICS || decide (id ∈ ids) } := by
  induction ids generalizing participants with
  | nil =>
    rw [Participants.excludeFromICS, List.foldl_nil]
    cases participants.lookup id <;> simp
  | cons id0 rest ih =>
    refine (ih _).trans ?_
    rw [GoMap.lookup_modify, Option.map_map]
    congr 1
    funext p
    by_cases he : id = id0 <;> simp [he]

/-! ## 2. The committee at run time -/

/-- The loop of `ExcludeParticipantsFromICS`, in the order of one iteration over the map. -/
def countExcluded (participants : Participants) : List Identifier → ICSCommittee → Go ICSCommittee
  | [], committee => pure committee
  | id :: rest, committee => do
    let info ← Go.deref (participants.lookup id)
    if info.excludedFromICS then do
      let committee ← committee.incrementExcludedPSCount info.consensusNodesHash
      countExcluded participants rest committee
    else countExcluded participants rest committee

/-- `ExcludeParticipantsFromICS`. -/
def excludeParticipantsFromICS (order : List Identifier) (participants : Participants)
    (committee : ICSCommittee) (ids : List Identifier) : Go (Participants × ICSCommittee) := do
  let participants := participants.excludeFromICS ids
  let committee ← countExcluded participants order committee
  pure (participants, committee)

/-! ## 3. What is committed -/

/-- The state hashes of `type AccountStateHashes`. -/
abbrev AccountStateHashes : Type := GoMap Identifier Hash

namespace AccountStateHashes

/-- `StateHash`. -/
def stateHash (hs : AccountStateHashes) (id : Identifier) : Hash := (hs.lookup id).getD nilHash

/-- `ExcludedAccounts`. -/
def excludedAccounts (hs : AccountStateHashes) : List Identifier :=
  hs.sortedKeys.filter fun id => hs.lookup id = some nilHash

end AccountStateHashes

/-- `participantStates`. -/
def participantStates (participants : Participants) (hs : AccountStateHashes) : ParticipantsState :=
  participants.filterMap fun id p => some
    { height := p.newHeight, transitiveLink := p.tesseractHash, lockedContext := p.contextHash
      contextDelta := p.contextDelta, stateHash := hs.stateHash id }

end GoMoi
