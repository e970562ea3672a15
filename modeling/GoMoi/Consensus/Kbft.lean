/-
  File:      GoMoi/Consensus/Kbft.lean
  Subject:   One instance of the agreement protocol: `consensus/kbft/kbft.go` and the
             `HeightVoteSet` it counts votes with.

  An instance is driven by messages and timeouts. Each handler may move it on through the steps of
  a view, `NewHeight < NewView < Propose < Prevote < Precommit < Commit`, and most of them do their
  last work in deferred functions, which run after an early return and after a panic alike; hence
  the handlers are calls of `Proc`.

  * `KBFT` -- the fields of the instance, and `history`: what it has done so far, in this order.
    Each entry of the history says which majorities the vote sets had by then;
  * `World` -- what the vault, the safety store, the tesseract handler and the evidence encoder
    answer while one event is handled. They may answer differently at the next;
  * `KBFT.Step` -- the machine. A panic ends it, but not before its deferred functions have run.

  The ticker delivers timeouts that were scheduled, in any number. Messages are arbitrary: those the
  instance sends to itself are among them. Logging, tracing, the event bus, the write-ahead log, the
  times of a view and the dirty storage are left out; nothing below reads them.
-/
import GoMoi.Consensus.VoteSet
import GoMoi.Lib.Proc

namespace GoMoi

/-! ## 1. Votes of a height -/

/-- `type HeightVoteSet struct`; the cluster state is passed along. -/
structure HeightVoteSet where
  tsHash : Hash
  prevotes : VoteSet
  precommits : VoteSet

namespace HeightVoteSet

/-- `Reset`. -/
def new (view : UInt64) (cs : ClusterState) : HeightVoteSet :=
  ⟨nilHash, VoteSet.new view PREVOTE cs, VoteSet.new view PRECOMMIT cs⟩

/-- `getVoteSet`; `nil` for any other type. -/
def getVoteSet (hvs : HeightVoteSet) (votetype : ConsensusMsgType) : Option VoteSet :=
  if votetype = PREVOTE then some hvs.prevotes
  else if votetype = PRECOMMIT then some hvs.precommits
  else none

/-- The vote set of a type after a call on it. -/
def withVoteSet (hvs : HeightVoteSet) (votetype : ConsensusMsgType) (vs : VoteSet) :
    HeightVoteSet :=
  if votetype = PREVOTE then { hvs with prevotes := vs } else { hvs with precommits := vs }

/-- What `AddVote` and `AddQC` return, with the objects they change. -/
abbrev Result : Type := ClusterState × HeightVoteSet × Bool × Option Err

/-- `AddVote`. -/
def addVote (C : Codec) (P : Primitives) (cs : ClusterState) (hvs : HeightVoteSet) (v : Vote) :
    Go Result := do
  let vs ← Go.deref (hvs.getVoteSet v.type)
  let (cs, vs, added, err) ← vs.addVote C P cs (some v) hvs.tsHash
  pure (cs, hvs.withVoteSet v.type vs, added, err)

/-- `AddQC`. -/
def addQC (C : Codec) (P : Primitives) (cs : ClusterState) (hvs : HeightVoteSet) (v : Vote) :
    Go Result := do
  let vs ← Go.deref (hvs.getVoteSet v.type)
  let (cs, vs, added, err) ← vs.addQc C P cs (some v) hvs.tsHash
  pure (cs, hvs.withVoteSet v.type vs, added, err)

/-- `GetQC`. -/
def getQC (hvs : HeightVoteSet) (tsHash : Hash) (view : UInt64) (voteType : ConsensusMsgType) :
    Go (Except Err Qc) := do
  let vs ← Go.deref (hvs.getVoteSet voteType)
  match ← vs.getQC tsHash view with
  | .error e => pure (.error e)
  | .ok qc => pure (.ok { qc with type := voteType })

end HeightVoteSet

/-- `HasMajorityAny`. -/
def VoteSet.hasMajorityAny (vs : VoteSet) (cs : ClusterState) : Go (ClusterState × Bool) :=
  if vs.sum = [] then pure (cs, true)
  else do
    let (cs, quorum) ← cs.getQuorum
    let all ← VoteSet.areGreater vs.sum quorum
    pure (cs, all)

/-! ## 2. Messages and the instance -/

/-- The view of `type PreparedInfo struct`. -/
structure PreparedInfo where
  view : UInt64
  deriving DecidableEq, Repr

/-- `type Proposal struct`. -/
structure Proposal where
  prepareQc : Option PreparedInfo
  tesseract : Option Tesseract

/-- The payloads of a `ConsensusMessage`, each a pointer. -/
inductive Payload where
  | proposal (p : Option Proposal)
  | vote (v : Option Vote)
  | other

/-- `type ConsensusMessage struct`. -/
structure ConsensusMessage where
  peerID : KramaID
  recipient : KramaID
  payload : Payload

/-- `type ViewStepType uint8`. -/
inductive ViewStepType where
  | newHeight
  | newView
  | propose
  | prevote
  | precommit
  | commit
  deriving DecidableEq, Repr

/-- The number of a step. -/
def ViewStepType.val : ViewStepType → Nat
  | .newHeight => 1
  | .newView => 2
  | .propose => 3
  | .prevote => 4
  | .precommit => 5
  | .commit => 6

instance : LinearOrder ViewStepType :=
  LinearOrder.lift' ViewStepType.val fun a b h => by
    cases a <;> cases b <;> first | rfl | cases h

/-- `type timeoutInfo struct`. -/
structure TimeoutInfo where
  view : UInt64
  step : ViewStepType
  deriving DecidableEq, Repr

/-- Something the instance does. -/
inductive Effect where
  /-- `updateViewStep` -/
  | step (view : UInt64) (step : ViewStepType)
  /-- `kbft.Proposal = p` -/
  | accept (p : Proposal)
  /-- `selfMsgChan <- msg` -/
  | sendInternal (msg : ConsensusMessage)
  /-- `outboundMsgChan <- msg` -/
  | sendExternal (msg : ConsensusMessage)
  /-- `UpdateSafetyInfo` has returned -/
  | safety (p : Proposal) (qc : Qc) (err : Option Err)
  /-- `tesseractHandler` is called -/
  | handler (ts : Tesseract)
  /-- `closeChan <- err` -/
  | close (err : Option Err)

/-- An effect, with the majorities that were recorded by then. -/
structure Entry where
  effect : Effect
  prevoteMajority : Option Hash
  precommitMajority : Option Hash

/-- The part of `type ClusterState struct` that an instance reads. -/
structure ICS extends ClusterState where
  operator : KramaID
  tesseract : Option Tesseract
  prepareQc : Option PreparedInfo

/-- `type KBFT struct` with its `ViewState`. -/
structure KBFT where
  heights : GoMap Identifier UInt64
  view : UInt64
  step : ViewStepType
  votes : HeightVoteSet
  commitView : UInt64
  proposal : Option Proposal
  proposalTS : Option Tesseract
  id : KramaID
  operator : KramaID
  ics : ICS
  evidence : List Vote
  hasVault : Bool
  isTSStored : Bool
  /-- the timeouts handed to the ticker -/
  scheduled : List TimeoutInfo
  /-- what was done so far -/
  history : List Entry

/-- The answers of the other components while an event is handled. -/
structure World where
  /-- `vault.Sign` -/
  sign : Bytes → Go (Except Err Bytes)
  /-- `safety.UpdateSafetyInfo` -/
  updateSafetyInfo : Proposal → Qc → Go (Option Err)
  /-- `tesseractHandler` -/
  tesseractHandler : Tesseract → Go (Option Err)
  /-- `FlushEvidence` -/
  flushEvidence : List Vote → Go (Option Err)

/-- The heights of `areHeightsEqual`. -/
def areHeightsEqual (systemHeights newHeights : GoMap Identifier UInt64) : Bool :=
  decide (systemHeights.keys.length = newHeights.keys.length) &&
    systemHeights.entries.all fun e => newHeights.lookup e.1 = some e.2

/-- `Heights`. -/
def Tesseract.heights (ts : Tesseract) : GoMap Identifier UInt64 :=
  ts.participants.filterMap fun _ ps => some ps.height

/-- `CompareHash`; false for `nil`. -/
def compareHash (C : Codec) (t : Option Tesseract) (tsHash : Hash) : Go Bool :=
  match t with
  | none => pure false
  | some ts => do
    let h ← ts.hash C
    pure (h = tsHash)

namespace KBFT

open Proc

/-- The entry of an effect. -/
def entry (s : KBFT) (e : Effect) : Entry :=
  ⟨e, s.votes.prevotes.maj23TsHash, s.votes.precommits.maj23TsHash⟩

/-- The history with one entry more. -/
def emit (s : KBFT) (e : Effect) : KBFT := { s with history := s.history ++ [s.entry e] }

/-- `kbft.Proposal`, `kbft.ProposalTS` assigned. -/
def withProposal (s : KBFT) (p : Option Proposal) (ts : Option Tesseract) : KBFT :=
  { s with proposal := p, proposalTS := ts }

/-- `Votes.SetTSHash`. -/
def setTSHash (s : KBFT) (h : Hash) : KBFT := { s with votes := { s.votes with tsHash := h } }

/-- The vote sets and the cluster state after a call on them. -/
def withVotes (s : KBFT) (cs : ClusterState) (votes : HeightVoteSet) : KBFT :=
  { s with ics := { s.ics with toClusterState := cs }, votes := votes }

/-- `kbft.CommitView` assigned. -/
def withCommitView (s : KBFT) (view : UInt64) : KBFT := { s with commitView := view }

/-- `evidence.AddVote`. -/
def addEvidence (s : KBFT) (v : Vote) : KBFT := { s with evidence := s.evidence ++ [v] }

/-- An effect. -/
def effect (e : Effect) : Proc KBFT Unit := assign (·.emit e)

/-- `isProposalReceived`. -/
def isProposalReceived (s : KBFT) : Bool := s.proposal.isSome && s.proposalTS.isSome

/-- `isLeader`; the view is not looked at. -/
def isLeader (s : KBFT) (kramaID : KramaID) : Bool := s.operator = kramaID

/-- `updateViewStep`. -/
def updateViewStep (view : UInt64) (step : ViewStepType) : Proc KBFT Unit := do
  assign fun s => { s with view := view, step := step }
  effect (.step view step)

/-- `Close`. -/
def close (err : Option Err) : Proc KBFT Unit := effect (.close err)

/-! ## 3. Sending -/

section

variable (C : Codec) (P : Primitives) (w : World)

/-- `signVote`. -/
def signVote (msgType : ConsensusMsgType) (tsHash : Hash) : Proc KBFT (Except Err Vote) := do
  let s ← self
  let (valIndex, _, _) ← ofGo (s.ics.committee.hasKramaID s.id)
  if valIndex = -1 then pure (.error (.sentinel .errKramaIDNotFound))
  else
    let v : Vote := { type := msgType, isQC := false, view := s.view
                      signerIndex := Int32.ofInt valIndex, tsHash := tsHash, signerIndices := none
                      signature := [] }
    match v.signBytes C with
    | .error e => pure (.error e)
    | .ok rawData => do
      match ← ofGo (w.sign rawData) with
      | .error e => pure (.error e)
      | .ok sign => pure (.ok { v with signature := sign })

/-- `sendVote`. Without a vault, or if the vote cannot be signed, nothing is sent. -/
def sendVote (msgType : ConsensusMsgType) (tsHash : Hash) (internalMessage : Bool) :
    Proc KBFT Unit := do
  let s ← self
  if !s.hasVault then pure ()
  else do
    match ← signVote C w msgType tsHash with
    | .error _ => pure ()
    | .ok vote =>
      if internalMessage then effect (.sendInternal ⟨s.id, [], .vote (some vote)⟩)
      else effect (.sendExternal ⟨s.id, s.ics.operator, .vote (some vote)⟩)

/-- `sendQc`. -/
def sendQc (msgType : ConsensusMsgType) (tsHash : Hash) : Proc KBFT Unit := do
  let s ← self
  if !s.hasVault then pure ()
  else
    let (signerIndices, signature) := match s.votes.getVoteSet msgType with
      | none => (none, [])
      | some vs => (vs.votesBitArray, vs.maj23aggSignature)
    effect (.sendExternal ⟨s.id, [], .vote (some
      { type := msgType, isQC := true, view := s.view, signerIndex := 0, tsHash := tsHash
        signerIndices := signerIndices, signature := signature })⟩)

/-- `UpdateSafetyInfo`, called with the proposal of the instance. -/
def storeSafetyInfo (qc : Qc) : Proc KBFT (Option Err) := do
  let s ← self
  let p ← ofGo (Go.deref s.proposal)
  let err ← ofGo (w.updateSafetyInfo p qc)
  effect (.safety p qc err)
  pure err

/-! ## 4. The steps of a view -/

/-- The body of `enterPrevote`. -/
def prevoteBody : Proc KBFT Unit := do
  let s ← self
  match s.proposalTS with
  | none => sendVote C w PREVOTE nilHash (s.isLeader s.id)
  | some ts => do
    let h ← ofGo (ts.hash C)
    sendVote C w PREVOTE h (s.isLeader s.id)

/-- `enterPrevote`. -/
def enterPrevote (view : UInt64) : Proc KBFT Unit := do
  let s ← self
  if view < s.view ∨ (s.view = view ∧ .prevote ≤ s.step) then pure ()
  else deferred (prevoteBody C w) (updateViewStep view .prevote)

/-- `createProposal`. -/
def createProposal : Proc KBFT Unit := do
  let s ← self
  effect (.sendInternal ⟨s.id, [], .proposal (some ⟨s.ics.prepareQc, s.ics.tesseract⟩)⟩)

/-- The body of `enterPropose`. -/
def proposeBody : Proc KBFT Unit := do
  let s ← self
  if !s.hasVault then pure ()
  else if !s.isLeader s.id then pure ()
  else createProposal

/-- What `enterPropose` defers. -/
def proposeDeferred (view : UInt64) : Proc KBFT Unit := do
  updateViewStep view .propose
  let s ← self
  if s.isProposalReceived then enterPrevote C w s.view else pure ()

/-- `enterPropose`. -/
def enterPropose (view : UInt64) : Proc KBFT Unit := do
  let s ← self
  if view < s.view ∨ (s.view = view ∧ .propose ≤ s.step) then pure ()
  else deferred proposeBody (proposeDeferred C w view)

/-- `enterNewView`. -/
def enterNewView (view : UInt64) : Proc KBFT Unit := do
  let s ← self
  if view < s.view ∨ (s.view = view ∧ s.step ≠ .newHeight) then pure ()
  else do
    updateViewStep view .newView
    if view ≠ 0 then assign (·.withProposal none none) else pure ()
    enterPropose C w view

/-- The heights in `setProposal`: not compared if the tesseract is already stored. -/
def validHeights (p : Proposal) : Proc KBFT Bool := do
  let s ← self
  if s.isTSStored then pure true
  else do
    let ts ← ofGo (Go.deref p.tesseract)
    pure (areHeightsEqual s.heights ts.heights)

/-- The end of `setProposal`: the leader sends the proposal out, and the PREVOTE step is entered. -/
def announceProposal (p : Proposal) : Proc KBFT Unit := do
  let s ← self
  if s.isLeader s.id then effect (.sendExternal ⟨s.id, [], .proposal (some p)⟩) else pure ()
  if s.step ≤ .propose ∧ s.isProposalReceived = true then enterPrevote C w s.view else pure ()

/-- The part of `setProposal` after its checks. -/
def acceptProposal (p : Proposal) : Proc KBFT Unit := do
  assign (·.withProposal (some p) p.tesseract)
  effect (.accept p)
  let ts ← ofGo (Go.deref p.tesseract)
  let h ← ofGo (ts.hash C)
  assign (·.setTSHash h)
  announceProposal C w p

/-- `setProposal`. -/
def setProposal (p : Option Proposal) : Proc KBFT (Option Err) := do
  let s ← self
  if s.proposal.isSome then pure (some (.new "proposal already set"))
  else do
    let p ← ofGo (Go.deref p)
    if !(← validHeights p) then pure (some (.new "invalid height or view"))
    else do
      let info ← ofGo (Go.deref p.prepareQc)
      if info.view ≠ s.view then pure (some (.new "invalid height or view"))
      else do
        acceptProposal C w p
        pure none

/-- The end of `enterPreCommit`: the PRECOMMIT for the hash of the majority. -/
def preCommitVote (tsHash : Hash) : Proc KBFT Unit := do
  let s ← self
  if !(← ofGo (compareHash C s.proposalTS tsHash)) then pure ()
  else do
    match ← ofGo (s.votes.getQC tsHash s.view PREVOTE) with
    | .error _ => pure ()
    | .ok qc => do
      let err ← if s.isTSStored then pure none else storeSafetyInfo w qc
      if err.isSome then pure ()
      else sendVote C w PRECOMMIT tsHash (s.isLeader s.id)

/-- The body of `enterPreCommit`. -/
def preCommitBody : Proc KBFT Unit := do
  let s ← self
  match s.votes.prevotes.superMajority with
  | (_, false) => pure ()
  | (tsHash, true) => do
    if s.isLeader s.id then sendQc PREVOTE tsHash else pure ()
    preCommitVote C w tsHash

/-- `enterPreCommit`. -/
def enterPreCommit (view : UInt64) : Proc KBFT Unit := do
  let s ← self
  if .precommit ≤ s.step then pure ()
  else deferred (preCommitBody C w) (updateViewStep view .precommit)

/-- The tesseract of the proposal changed through either of its two pointers. -/
def modifyTesseract (s : KBFT) (f : Tesseract → Tesseract) : KBFT :=
  { s with
    proposal := s.proposal.map fun p => { p with tesseract := p.tesseract.map f }
    proposalTS := s.proposalTS.map f }

/-- `updateConsensusInfoInTesseracts`. -/
def updateConsensusInfoInTesseracts (preCommitBitSet : Option ArrayOfBits) (signature : Bytes) :
    Proc KBFT (Option Err) := do
  let s ← self
  match ← ofGo (w.flushEvidence s.evidence) with
  | some e => pure (some e)
  | none => do
    let p ← ofGo (Go.deref s.proposal)
    let ts ← ofGo (Go.deref p.tesseract)
    let h ← ofGo (ts.hash C)
    let info ← ofGo (Go.deref ts.commitInfo)
    let qc : Qc := ⟨PRECOMMIT, s.view, h, preCommitBitSet, signature⟩
    assign (·.modifyTesseract fun ts => { ts with commitInfo := some { info with qc := some qc } })
    match ts.signBytes C with
    | .error e => pure (some e)
    | .ok rawData =>
      if !s.hasVault then ofGo (.error .nilDeref)
      else do
        match ← ofGo (w.sign rawData) with
        | .error e => pure (some (.wrap e "failed to sign the tesseract"))
        | .ok sealBytes => do
          assign (·.modifyTesseract fun ts =>
            { ts with sealBytes := sealBytes, sealBy := s.id })
          pure none

/-- `finalizeCommit`. -/
def finalizeCommit : Proc KBFT Unit := do
  let s ← self
  let (tsHash, ok) := s.votes.precommits.superMajority
  if !ok || tsHash.isNil then pure ()
  else do
    let same ← match s.proposal with
      | none => pure false
      | some p => ofGo (compareHash C p.tesseract tsHash)
    if !same then pure ()
    else if s.step ≠ .commit then pure ()
    else do
      let (voteBitSet, sign) :=
        (s.votes.precommits.votesBitArray, s.votes.precommits.maj23aggSignature)
      match ← updateConsensusInfoInTesseracts C w voteBitSet sign with
      | some e => close (some e)
      | none => do
        let s ← self
        let ts ← ofGo (Go.deref s.proposalTS)
        effect (.handler ts)
        match ← ofGo (w.tesseractHandler ts) with
        | some e => close (some e)
        | none => close none

/-- The body of `enterCommit`. -/
def commitBody : Proc KBFT Unit := do
  let s ← self
  match s.votes.precommits.superMajority with
  | (_, false) => ofGo (.error (.explicit "expecting precommits"))
  | (tsHash, true) => do
    match ← ofGo (s.votes.getQC tsHash s.view PRECOMMIT) with
    | .error _ => pure ()
    | .ok qc => do
      let err ← if s.isTSStored then pure none else storeSafetyInfo w qc
      if err.isSome then pure ()
      else if s.isLeader s.id then sendQc PRECOMMIT tsHash
      else pure ()

/-- What `enterCommit` defers. -/
def commitDeferred (view : UInt64) : Proc KBFT Unit := do
  let s ← self
  updateViewStep s.view .commit
  assign (·.withCommitView view)
  -- a tesseract that is already stored is not stored again
  if s.isTSStored then close none else finalizeCommit C w

/-- `enterCommit`. -/
def enterCommit (view : UInt64) : Proc KBFT Unit := do
  let s ← self
  if .commit ≤ s.step then pure ()
  else deferred (commitBody w) (commitDeferred C w view)

/-! ## 5. Events -/

/-- The part of `addVote` after a vote was added. -/
def voteAdded (v : Vote) : Proc KBFT Unit := do
  let s ← self
  if v.type = PREVOTE then
    if s.view = v.view ∧ .prevote ≤ s.step then
      let (tsHash, ok) := s.votes.prevotes.superMajority
      if ok && (s.isProposalReceived || !tsHash.isNil) then enterPreCommit C w v.view else pure ()
    else pure ()
  else if v.type = PRECOMMIT then
    let (tsHash, ok) := s.votes.precommits.superMajority
    if ok && s.isProposalReceived then
      if !tsHash.isNil then enterCommit C w v.view else pure ()
    else if s.view ≤ v.view then do
      let (cs, _) ← ofGo (s.votes.precommits.hasMajorityAny s.ics.toClusterState)
      assign fun s => s.withVotes cs s.votes
    else pure ()
  else pure ()

/-- `addVote`. -/
def addVote (v : Option Vote) (peerID : KramaID) : Proc KBFT (Bool × Option Err) := do
  let s ← self
  let v ← ofGo (Go.deref v)
  if s.view ≠ v.view then pure (false, some (.sentinel .errInvalidView))
  else match s.proposalTS with
    | none => pure (false, none)
    | some ts => do
      let h ← ofGo (ts.hash C)
      if h ≠ v.tsHash then pure (false, none)
      else if v.isQC ∧ !s.isLeader peerID then pure (false, some (.new "Invalid Leader"))
      else do
        let (cs, votes, added, err) ← ofGo (if v.isQC
          then s.votes.addQC C P s.ics.toClusterState v
          else s.votes.addVote C P s.ics.toClusterState v)
        assign (·.withVotes cs votes)
        if err.any (·.is .errConflictingVote) then do
          assign (·.addEvidence v)
          pure (added, err)
        else if !added then pure (added, err)
        else do
          voteAdded C w v
          pure (added, err)

/-- `handleMsg`; the errors of the handlers are logged. -/
def handleMsg (msg : ConsensusMessage) : Proc KBFT Unit := do
  match msg.payload with
  | .proposal p => do
    let _ ← setProposal C w p
    pure ()
  | .vote v => do
    let _ ← addVote C P w v msg.peerID
    pure ()
  | .other => pure ()

/-- `handleTimeout`; the view state it is given is the current one. -/
def handleTimeout (ti : TimeoutInfo) : Proc KBFT Unit := do
  let s ← self
  if ti.view < s.view ∨ (ti.view = s.view ∧ ti.step < s.step) then pure ()
  else if ti.step = .newHeight then enterNewView C w ti.view
  else pure ()

/-- What the loop of `handler` reads from its channels. -/
inductive Event where
  | message (msg : ConsensusMessage)
  | timeout (ti : TimeoutInfo)

/-- One round of the loop of `handler`. -/
def handle (w : World) : Event → Proc KBFT Unit
  | .message msg => handleMsg C P w msg
  | .timeout ti => handleTimeout C w ti

/-- How the last round ended, and the instance after it. -/
abbrev State : Type := Except Panic Unit × KBFT

/-- The machine: while no round has panicked, a message or a scheduled timeout is handled, with any
    answers of the other components. -/
def Step (s : State) (e : World × Event) (s' : State) : Prop :=
  s.1 = .ok () ∧ (∀ ti, e.2 = .timeout ti → ti ∈ s.2.scheduled) ∧ handle C P e.1 e.2 s.2 = s'

end

/-! ## 6. The start -/

/-- What an instance is made from. -/
structure Config where
  operator : KramaID
  id : KramaID
  ics : ICS
  heights : GoMap Identifier UInt64
  currentView : UInt64
  votes : HeightVoteSet
  evidence : List Vote
  hasVault : Bool
  isTSStored : Bool

/-- `NewKBFTService` with `updateToState`; the vote set is the caller's and need not be empty. -/
def new (c : Config) : KBFT :=
  let s : KBFT :=
    { heights := c.heights, view := c.currentView, step := .newHeight, votes := c.votes
      commitView := 0, proposal := none, proposalTS := none, id := c.id, operator := c.operator
      ics := c.ics, evidence := c.evidence, hasVault := c.hasVault, isTSStored := c.isTSStored
      scheduled := [], history := [] }
  s.emit (.step c.currentView .newHeight)

/-- `scheduleView`. -/
def scheduleView (s : KBFT) : KBFT :=
  { s with scheduled := s.scheduled ++ [⟨s.view, .newHeight⟩] }

/-- The state in which `Start` enters the loop. -/
def start (c : Config) : State := (.ok (), (new c).scheduleView)

end KBFT

end GoMoi
