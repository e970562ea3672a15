/-
  File:      GoMoi/Consensus/Prepare.lean
  Subject:   What the nodes of a cluster tell each other before a proposal
             (`consensus/ics_handler.go`).

  A prepared message holds, for each account of the cluster, what its sender knows of the last
  views: a VIEW INFO. The highest view info of each account is folded from those of the peers.

  * `shouldReplace` -- whether the next info of an account takes the place of the one held;
  * `createClusterState` -- the cluster state that a validator makes of a proposal.
-/
import GoMoi.Consensus.Participants
import GoMoi.Consensus.Kbft

namespace GoMoi

/-! ## 1. View infos -/

/-- `type ViewInfo struct`; a `nil` slice of certificates is `none`. -/
structure ViewInfo where
  id : Identifier
  lastView : UInt64
  currentLock : LockType
  qc : Option (List (Option Qc))
  deriving DecidableEq, Repr

/-- `type Views []*ViewInfo`. -/
abbrev Views : Type := List (Option ViewInfo)

/-- `type Prepared struct`. -/
structure Prepared where
  view : UInt64
  infos : Option Views
  signature : Bytes
  deriving DecidableEq, Repr

/-- `Qc[0]`. -/
def ViewInfo.firstQc (v : ViewInfo) : Go Qc := do
  let qc ← sliceAt (v.qc.getD []) 0
  Go.deref qc

/-- `shouldReplace`. -/
def shouldReplace (highestViewInfo peerViewInfo : Option ViewInfo) : Go Bool :=
  match highestViewInfo with
  | none => pure true
  | some highest => do
    let peer ← Go.deref peerViewInfo
    if peer.qc.getD [] = [] then pure false
    else do
      let qc ← peer.firstQc
      if highest.lastView < qc.view then pure true
      else if highest.lastView = qc.view ∧ highest.qc ≠ none then do
        let highestQc ← highest.firstQc
        pure (decide (highestQc.type.val < qc.type.val))
      else pure false

/-! ## 2. The loaded cluster -/

/-- What a node knows of an account when it loads the cluster. -/
structure KnownView where
  lastView : UInt64
  currentLock : LockType
  qc : Option (List (Option Qc))

/-- `AccountsWithoutNoLocks`. -/
def Participants.accountsWithoutNoLocks (ps : Participants) : List Identifier :=
  ps.sortedKeys.filter fun id => (ps.lookup id).all fun p => p.lockType ≠ noLock

/-- `loadViewInfo` where every account can be read. -/
def loadViewInfo (known : Identifier → KnownView) (participants : Participants) : Views :=
  participants.accountsWithoutNoLocks.map fun id =>
    some ⟨id, (known id).lastView, (known id).currentLock, (known id).qc⟩

/-- `Tesseract.ExcludedAccounts`, in one order of the map. -/
def Tesseract.excludedAccounts (ts : Tesseract) : List Identifier :=
  (ts.participants.entries.filter fun e => e.2.stateHash = nilHash).map (·.1)

/-- The cluster state of a validator, as far as the proposal is evaluated with it. -/
structure PrepareValidator (D : Type) where
  ixnsHash : Hash
  participants : Participants
  committee : ICSCommittee
  localViewInfo : Views
  highestViewInfo : Views
  data : D

/-- The cluster state that `createICSForProposal` makes of the loaded cluster: the participants that
    the proposal excludes are excluded, and the random set is the proposal's. -/
def PrepareValidator.createClusterState {D : Type} (so : SystemObject) (order : List Identifier)
    (ixnsHash : Hash)
    (participants : Participants) (c : ICSCommittee) (known : Identifier → KnownView) (d : D)
    (ts : Tesseract) : Go (Except Err (PrepareValidator D)) := do
  let localViewInfo := loadViewInfo known participants
  let (participants, c) ← excludeParticipantsFromICS order participants c ts.excludedAccounts
  let info ← Go.deref ts.commitInfo
  match so.getValidators info.randomSet with
  | .error e => pure (.error e)
  | .ok vals => pure (.ok
      { ixnsHash := ixnsHash
        participants := participants
        committee := c.appendNodeSet nilHash
          (some (NodeSet.new vals info.randomSetSizeWithoutDelta))
        localViewInfo := localViewInfo
        highestViewInfo := List.replicate localViewInfo.length none
        data := d })

end GoMoi
