/-
  File:      GoMoi/Consensus/ExecutionContext.lean
  Subject:   The context in which a batch of interactions is executed: by the leader, which makes it
             from its cluster state, and by everyone else, who makes it from the tesseract
             (`consensus/types/ics.go`, `consensus/krama_engine.go`, `common/tesseract.go`).

  A context has three parts: the changes of the participants' contexts, the cluster and a time.
  -- The leader's time is the start of the view in seconds, a tesseract's is the same start in
     nanoseconds.
  -- The leader leaves out participants that are excluded already, a tesseract does not.

  * **`executionContext_agree_iff`** -- when the two contexts are the same;
  * `view_time_differs` -- a view that starts a second after the epoch.
-/
import GoMoi.Lib.Run
import GoMoi.Consensus.Participants

namespace GoMoi

open Sample Participant

/-! ## 1. Times -/

/-- `time.Time`: seconds since the epoch, and nanoseconds within the second. -/
structure Time where
  sec : Int
  nsec : Nat
  nsec_lt : nsec < 1000000000
  deriving DecidableEq, Repr

namespace Time

/-- `uint64(t.Unix())`: "the number of seconds elapsed since January 1, 1970 UTC". -/
def unix (t : Time) : UInt64 := UInt64.ofInt t.sec

/-- The nanoseconds since the epoch. -/
def nanoseconds (t : Time) : Int := t.sec * 1000000000 + t.nsec

/-- `uint64(t.UnixNano())`: "the number of nanoseconds elapsed since January 1, 1970 UTC". -/
def unixNano (t : Time) : UInt64 := UInt64.ofInt t.nanoseconds

/-- Seconds and nanoseconds are the same 64 bits. -/
def SameStamp (t : Time) : Prop := (2 ^ 64 : Int) ∣ t.sec * 999999999 + t.nsec

theorem toNat_ofInt (x : Int) : (UInt64.ofInt x).toNat = (x % 2 ^ 64).toNat := by
  have hlt : (x % 2 ^ 64).toNat < UInt64.size := by
    show _ < 18446744073709551616
    omega
  rw [UInt64.ofInt, UInt64.toNat_ofNat_of_lt' hlt]

theorem ofInt_eq_iff (a b : Int) : UInt64.ofInt a = UInt64.ofInt b ↔ (2 ^ 64 : Int) ∣ b - a := by
  rw [← UInt64.toNat_inj, toNat_ofInt, toNat_ofInt]
  omega

theorem unix_eq_unixNano (t : Time) : t.unix = t.unixNano ↔ t.SameStamp := by
  have hdiff : t.nanoseconds - t.sec = t.sec * 999999999 + t.nsec := by
    unfold nanoseconds
    omega
  rw [unix, unixNano, ofInt_eq_iff, hdiff, SameStamp]

/-- **Of the times for which `UnixNano` is defined**, the epoch and the nanosecond before it have
    the same stamp in seconds and in nanoseconds. -/
theorem stamp_eq_iff (t : Time) (hlow : -2 ^ 63 ≤ t.nanoseconds) (hhigh : t.nanoseconds < 2 ^ 63) :
    t.SameStamp ↔ t.nanoseconds = 0 ∨ t.nanoseconds = -1 := by
  have hlt := t.nsec_lt
  unfold nanoseconds at hlow hhigh ⊢
  constructor
  · rintro ⟨q, hq⟩
    -- the difference of the two stamps is too small for another multiple than zero
    omega
  · rintro (h | h) <;> exact ⟨0, by omega⟩

end Time

/-! ## 2. Contexts -/

/-- `type ContextDelta map[Identifier]*DeltaGroup`. -/
abbrev ContextDelta : Type := GoMap Identifier DeltaGroup

/-- `type ExecutionContext struct`. -/
structure ExecutionContext where
  ctxDelta : ContextDelta
  cluster : ClusterID
  time : UInt64

/-- The contexts agree, field by field; maps are compared by their entries. -/
structure ExecutionContext.Same (a b : ExecutionContext) : Prop where
  ctxDelta : ∀ id, a.ctxDelta.lookup id = b.ctxDelta.lookup id
  cluster : a.cluster = b.cluster
  time : a.time = b.time

/-- `Tesseract.ContextDelta`. -/
def Tesseract.contextDelta (ts : Tesseract) : ContextDelta :=
  ts.participants.filterMap fun _ st => st.contextDelta

/-- `Tesseract.ExecutionContext`. -/
def Tesseract.executionContext (ts : Tesseract) : Go ExecutionContext := do
  let info ← Go.deref ts.commitInfo
  pure ⟨ts.contextDelta, info.clusterID, ts.timestamp⟩

/-- `IsContextUpdateRequired`. -/
def Participant.isContextUpdateRequired (ids : AccountIDs) (p : Participant) : Bool :=
  !p.id.isParticipantVariant &&
    !(!p.isSigner && !p.isGenesis && decide (ids.accountTypeFromID p.id = .regularAccount))

/-- The cluster state, as far as the leader's execution reads and writes it. -/
structure ExecutionCluster where
  selfID : KramaID
  operator : KramaID
  clusterID : ClusterID
  view : UInt64
  /-- `CurrentView().StartTime()` -/
  startTime : Time
  trustedPeers : List KramaID
  participants : Participants
  committee : ICSCommittee

namespace ExecutionCluster

/-- `ClusterState.ContextDelta`. -/
def contextDelta (cs : ExecutionCluster) : ContextDelta :=
  cs.participants.filterMap fun _ p => if p.excludeFromICS then none else p.contextDelta

/-- `ClusterState.ExecutionContext`. -/
def executionContext (cs : ExecutionCluster) : ExecutionContext :=
  ⟨cs.contextDelta, cs.clusterID, cs.startTime.unix⟩

end ExecutionCluster

/-! ## 3. The leader -/

/-- `ConsensusNodesSize`. -/
def consensusNodesSize : Nat := 5

/-- What of a node's set-up the execution depends on. -/
structure ExecutionConfig where
  ids : AccountIDs
  enableDebugMode : Bool
  trustedPeersPresent : Bool

/-- `Engine.getConsensusNodes`: the first trusted peers, or the first of the random set. -/
def ExecutionConfig.getConsensusNodes (k : ExecutionConfig) (cs : ExecutionCluster)
    (requiredConsensusNodes : Nat) : Go (List KramaID) :=
  if k.trustedPeersPresent then
    if cs.trustedPeers.length < requiredConsensusNodes then .error .indexOutOfRange
    else pure (cs.trustedPeers.take requiredConsensusNodes)
  else do
    let set ← cs.committee.randomSet
    pure ((set.infos.take requiredConsensusNodes).map (·.kramaID))

/-- One round of `updateContextDelta`: a new account is given its nodes. -/
def ExecutionConfig.updateDelta (k : ExecutionConfig) (cs : ExecutionCluster)
    (participants : Participants) (id : Identifier) : Go Participants := do
  let p ← Go.deref (participants.lookup id)
  if mutateLock.val < p.lockType.val ∨ p.isContextUpdateRequired k.ids = false then
    pure participants
  else if k.enableDebugMode ∧ p.isGenesis = false then pure participants
  else if p.isGenesis then do
    let consensusNodes ← k.getConsensusNodes cs consensusNodesSize
    pure (participants.modify id fun p => { p with contextDelta := some ⟨consensusNodes, []⟩ })
  else pure participants

/-- `updateContextDelta`, in the order of one iteration over the map. -/
def ExecutionConfig.updateContextDelta (k : ExecutionConfig) (order : List Identifier)
    (cs : ExecutionCluster) : Go ExecutionCluster := do
  let participants ← order.foldlM (k.updateDelta cs) cs.participants
  return { cs with participants := participants }

/-- What the leader asks the state and the executor for. -/
structure ExecutionAnswers where
  loadTransitionObjects : Option Err
  /-- the state hashes, the fuel used and the hash of the receipts -/
  executeInteractions : ExecutionContext →
    Except Err (AccountStateHashes × UInt64 × Except Err Hash)
  ixnsHash : Except Err Hash
  /-- the orders of the two iterations over the participants -/
  updateOrder : List Identifier
  excludeOrder : List Identifier

/-- What an execution comes to: the context it ran in, and what it returned. -/
structure Executed where
  context : ExecutionContext
  stateHashes : AccountStateHashes
  fuelUsed : UInt64
  receiptsHash : Except Err Hash

/-- `executionInteractions`. -/
def executionInteractions (k : ExecutionConfig) (a : ExecutionAnswers) (cs : ExecutionCluster) :
    Go (Except Err (Executed × ExecutionCluster)) :=
  match a.loadTransitionObjects with
  | some e => pure (.error (.wrap e "failed to load state transition objects"))
  | none => do
    let cs ← k.updateContextDelta a.updateOrder cs
    let context := cs.executionContext
    match a.executeInteractions context with
    | .error e => pure (.error e)
    | .ok (stateHashes, fuelUsed, receiptsHash) => do
      let (participants, committee) ← excludeParticipantsFromICS a.excludeOrder cs.participants
        cs.committee stateHashes.excludedAccounts
      pure (.ok (⟨context, stateHashes, fuelUsed, receiptsHash⟩,
        { cs with participants := participants, committee := committee }))

/-- `generateTesseract`. -/
def generateTesseract (a : ExecutionAnswers) (cs : ExecutionCluster) (poxt : PoXtData)
    (e : Executed) : Go (Except Err Tesseract) :=
  match a.ixnsHash with
  | .error err => pure (.error err)
  | .ok ixnsHash =>
    match e.receiptsHash with
    | .error err => pure (.error err)
    | .ok receiptsHash => do
      let random ← cs.committee.randomSet
      return .ok
        { participants := participantStates cs.participants e.stateHashes
          interactionsHash := ixnsHash
          receiptsHash := receiptsHash
          epoch := 0
          timestamp := cs.startTime.unixNano
          fuelUsed := e.fuelUsed
          fuelLimit := 1000
          consensusInfo := poxt
          sealBytes := []
          sealBy := cs.selfID
          commitInfo := some
            { qc := none, operator := cs.operator, clusterID := cs.clusterID, view := cs.view
              randomSet := random.infos.map (·.id)
              randomSetSizeWithoutDelta := random.setSizeWithOutDelta } }

/-- The consensus information of a new tesseract. -/
def ExecutionCluster.poxt (cs : ExecutionCluster) : PoXtData where
  proposer := cs.selfID
  binaryHash := nilHash
  identityHash := nilHash
  view := cs.view
  lastCommit := cs.participants.lockInfo.filterMap fun id _ =>
    (cs.participants.lookup id).map (·.commitHash)
  evidenceHash := ∅
  accountLocks := cs.participants.lockInfo
  icsSeed := nilHash
  icsProof := []

/-- `Engine.createProposalTesseract`: the execution, and the tesseract made after it. -/
def ExecutionConfig.createProposalTesseract (k : ExecutionConfig) (a : ExecutionAnswers)
    (cs : ExecutionCluster) : Go (Except Err (Executed × Tesseract)) := do
  match ← executionInteractions k a cs with
  | .error e => pure (.error e)
  | .ok (executed, cs) =>
    match ← generateTesseract a cs cs.poxt executed with
    | .error e => pure (.error e)
    | .ok ts => pure (.ok (executed, ts))

/-! ## 4. The context deltas -/

/-- The participants that `updateContextDelta` gives nodes: new accounts that are changed. -/
def Participant.getsDelta (p : Participant) : Bool :=
  p.isGenesis && decide (p.lockType.val ≤ mutateLock.val) && !p.id.isParticipantVariant

/-- The participants after the rounds for `d`: only context deltas have changed. -/
def Updated (ps : Participants) (d : List Identifier) (ps' : Participants) : Prop :=
  ∀ id, (ps.lookup id = none → ps'.lookup id = none) ∧
    ∀ p, ps.lookup id = some p → ∃ delta : Option DeltaGroup,
      ps'.lookup id = some { p with contextDelta := delta } ∧
        delta.isSome = (decide (id ∈ d) && p.getsDelta || p.contextDelta.isSome)

section

variable {k : ExecutionConfig} {cs : ExecutionCluster} {id : Identifier}

/-- The round of one participant. -/
theorem updateDelta_cases {ps ps' : Participants} (h : k.updateDelta cs ps id = .ok ps') :
    ∃ p, ps.lookup id = some p ∧
      ((p.getsDelta = true ∧ ∃ nodes, ps' = ps.modify id fun p =>
        { p with contextDelta := some ⟨nodes, []⟩ }) ∨ (p.getsDelta = false ∧ ps' = ps)) := by
  obtain ⟨p, hp, h⟩ := Go.bind_eq_ok.mp h
  refine ⟨p, Go.deref_eq_ok.mp hp, ?_⟩
  split at h
  · rename_i hskip
    cases h
    refine .inr ⟨?_, rfl⟩
    rw [getsDelta, Bool.and_eq_false_iff, Bool.and_eq_false_iff]
    rcases hg : p.isGenesis with _ | _
    · exact .inl (.inl rfl)
    rcases hskip with hlock | hctx
    · exact .inl (.inr (decide_eq_false (by omega)))
    · refine .inr ?_
      simpa [isContextUpdateRequired, hg] using hctx
  · rename_i hskip
    obtain ⟨hlock, hctx⟩ := not_or.mp hskip
    split at h
    · rename_i hdebug
      cases h
      exact .inr ⟨by rw [getsDelta, hdebug.2]; rfl, rfl⟩
    split at h
    · rename_i hg
      obtain ⟨nodes, _, h⟩ := Go.bind_eq_ok.mp h
      cases h
      refine .inl ⟨?_, nodes, rfl⟩
      have hvariant : p.id.isParticipantVariant = false := by
        simpa [isContextUpdateRequired, hg] using hctx
      rw [getsDelta, hg, hvariant, decide_eq_true (by omega)]
      rfl
    rename_i hg
    cases h
    rw [Bool.not_eq_true] at hg
    exact .inr ⟨by rw [getsDelta, hg]; rfl, rfl⟩

/-- **The step**: one more round. -/
theorem Updated.step {ps ps1 ps' : Participants} {d : List Identifier} (h : Updated ps d ps1)
    (hround : k.updateDelta cs ps1 id = .ok ps') : Updated ps (d ++ [id]) ps' := by
  intro id'
  obtain ⟨hnone, hsome⟩ := h id'
  obtain ⟨_, hp1, hcases⟩ := updateDelta_cases hround
  refine ⟨fun hfree => ?_, fun p hp => ?_⟩
  · rcases hcases with ⟨_, nodes, rfl⟩ | ⟨_, rfl⟩
    · rw [GoMap.lookup_modify, hnone hfree]
      rfl
    · exact hnone hfree
  obtain ⟨delta, hlookup, hdelta⟩ := hsome p hp
  by_cases hid : id' = id
  · subst hid
    rw [hlookup] at hp1
    cases hp1
    rcases hcases with ⟨hgets, nodes, rfl⟩ | ⟨hgets, rfl⟩
    · refine ⟨some ⟨nodes, []⟩, by rw [GoMap.lookup_modify, hlookup]; simp, ?_⟩
      have hgets' : p.getsDelta = true := hgets
      simp [hgets']
    · refine ⟨delta, hlookup, ?_⟩
      have hgets' : p.getsDelta = false := hgets
      simpa [hgets'] using hdelta
  · have hmem : decide (id' ∈ d ++ [id]) = decide (id' ∈ d) := by simp [hid]
    rw [hmem]
    refine ⟨delta, ?_, hdelta⟩
    rcases hcases with ⟨_, _, rfl⟩ | ⟨_, rfl⟩
    · rw [GoMap.lookup_modify, hlookup]
      simp [hid]
    · exact hlookup

/-- **The run**: all participants. -/
theorem updateContextDelta_updated {order : List Identifier} {cs' : ExecutionCluster}
    (h : k.updateContextDelta order cs = .ok cs') :
    ∃ ps', cs' = { cs with participants := ps' } ∧ Updated cs.participants order ps' := by
  obtain ⟨ps', hloop, h⟩ := Go.bind_eq_ok.mp h
  cases h
  refine ⟨ps', rfl, Run.invariant (fun id => ⟨fun hnone => hnone, fun p hp =>
    ⟨p.contextDelta, hp, by simp⟩⟩)
    (fun d ps id ps1 hinv hround => hinv.step hround) (Run.of_foldlM hloop)⟩

end

/-! ## 5. The two contexts -/

/-- No participant that is excluded already has a context delta, or is given one. -/
def NoExcludedDelta (participants : Participants) : Prop :=
  ∀ id p, participants.lookup id = some p → p.excludeFromICS = true →
    p.contextDelta = none ∧ p.getsDelta = false

variable {a : ExecutionAnswers} {cs : ExecutionCluster} {k : ExecutionConfig} {executed : Executed}
  {ts : Tesseract}

theorem executionInteractions_cases {cs' : ExecutionCluster}
    (h : executionInteractions k a cs = .ok (.ok (executed, cs'))) :
    ∃ ps' ids committee, Updated cs.participants a.updateOrder ps' ∧
      executed.context = ({ cs with participants := ps' } : ExecutionCluster).executionContext ∧
      cs' = { cs with participants := ps'.excludeFromICS ids, committee := committee } := by
  unfold executionInteractions at h
  split at h
  · cases h
  obtain ⟨_, hcs1, h⟩ := Go.bind_eq_ok.mp h
  obtain ⟨ps', rfl, hupdated⟩ := updateContextDelta_updated hcs1
  simp only at h
  split at h
  · cases h
  rename_i stateHashes fuelUsed receiptsHash _
  obtain ⟨⟨_, committee⟩, hexclude, h⟩ := Go.bind_eq_ok.mp h
  cases h
  obtain ⟨_, _, hexclude⟩ := Go.bind_eq_ok.mp hexclude
  cases hexclude
  exact ⟨ps', stateHashes.excludedAccounts, committee, hupdated, rfl, rfl⟩

theorem generateTesseract_cases {poxt : PoXtData} {e : Executed}
    (h : generateTesseract a cs poxt e = .ok (.ok ts)) :
    ts.participants = participantStates cs.participants e.stateHashes ∧
      ts.timestamp = cs.startTime.unixNano ∧
      ∃ info, ts.commitInfo = some info ∧ info.clusterID = cs.clusterID := by
  unfold generateTesseract at h
  split at h
  · cases h
  split at h
  · cases h
  obtain ⟨_, _, h⟩ := Go.bind_eq_ok.mp h
  cases h
  exact ⟨rfl, rfl, _, rfl, rfl⟩

/-- **The context of the execution and what the tesseract says**, from the participants as they were
    updated. -/
theorem ExecutionConfig.createProposalTesseract_cases
    (h : k.createProposalTesseract a cs = .ok (.ok (executed, ts))) :
    ∃ ps' ids, Updated cs.participants a.updateOrder ps' ∧
      executed.context = ({ cs with participants := ps' } : ExecutionCluster).executionContext ∧
      ts.participants = participantStates (ps'.excludeFromICS ids) executed.stateHashes ∧
      ts.timestamp = cs.startTime.unixNano ∧
      ∃ info, ts.commitInfo = some info ∧ info.clusterID = cs.clusterID := by
  obtain ⟨r, hr, h⟩ := Go.bind_eq_ok.mp h
  rcases r with e | res
  · cases h
  obtain ⟨_, _⟩ := res
  obtain ⟨r', hgen, h⟩ := Go.bind_eq_ok.mp h
  rcases r' with e | _
  · cases h
  cases h
  obtain ⟨ps', ids, _, hupdated, hcontext, rfl⟩ := executionInteractions_cases hr
  exact ⟨ps', ids, hupdated, hcontext, generateTesseract_cases hgen⟩

/-- The entries of the two context deltas. -/
theorem contextDelta_agree_iff {ps ps' : Participants} {order : List Identifier}
    (hupdated : Updated ps order ps') (horder : order.Perm ps.keys) (ids : List Identifier)
    (hs : AccountStateHashes) :
    (∀ id, (ps'.filterMap fun _ p => if p.excludeFromICS then none else p.contextDelta).lookup id =
      ((participantStates (ps'.excludeFromICS ids) hs).filterMap fun _ st => st.contextDelta).lookup
        id) ↔ NoExcludedDelta ps := by
  have hboth : ∀ id, ((ps'.filterMap fun _ p => if p.excludeFromICS then none
      else p.contextDelta).lookup id = ((participantStates (ps'.excludeFromICS ids) hs).filterMap
        fun _ st => st.contextDelta).lookup id) ↔
      ∀ p, ps.lookup id = some p → p.excludeFromICS = true →
        p.contextDelta = none ∧ p.getsDelta = false := by
    intro id
    obtain ⟨hnone, hsome⟩ := hupdated id
    rw [participantStates, GoMap.lookup_filterMap, GoMap.lookup_filterMap, GoMap.lookup_filterMap,
      lookup_excludeFromICS]
    rcases hp : ps.lookup id with _ | p
    · simp [hnone hp]
    obtain ⟨_, hlookup, hdelta⟩ := hsome p hp
    have hmem : decide (id ∈ order) = true := decide_eq_true
      (horder.mem_iff.mpr (AList.mem_keys.mp (AList.lookup_isSome.mp (by rw [hp]; rfl))))
    rw [hmem, Bool.true_and] at hdelta
    simp only [hlookup, Option.map_some, Option.bind_some, Option.some.injEq, forall_eq']
    rcases hx : p.excludeFromICS with _ | _
    · simp
    rw [if_pos rfl, eq_comm, ← Option.not_isSome_iff_eq_none, hdelta]
    simp [and_comm]
  exact forall_congr' hboth

/-- **When the leader executes in the context of the tesseract it makes**: the seconds of the view's
    start are its nanoseconds, as 64 bits, and no participant that is excluded already has a context
    delta, or is given one. -/
theorem executionContext_agree_iff {k : ExecutionConfig} {a : ExecutionAnswers}
    {cs : ExecutionCluster} {executed : Executed} {ts : Tesseract}
    (horder : a.updateOrder.Perm cs.participants.keys)
    (h : k.createProposalTesseract a cs = .ok (.ok (executed, ts))) :
    (∃ context, ts.executionContext = .ok context ∧ executed.context.Same context) ↔
      cs.startTime.SameStamp ∧ NoExcludedDelta cs.participants := by
  obtain ⟨_, ids, hupdated, hcontext, hstates, hstamp, _, hinfo, hcluster⟩ :=
    ExecutionConfig.createProposalTesseract_cases h
  have hts : ts.executionContext = .ok ⟨ts.contextDelta, cs.clusterID, cs.startTime.unixNano⟩ := by
    rw [Tesseract.executionContext, hinfo, hstamp, ← hcluster]
    rfl
  have hdelta := contextDelta_agree_iff hupdated horder ids executed.stateHashes
  rw [← hstates] at hdelta
  rw [hts, hcontext, ← Time.unix_eq_unixNano, ← hdelta]
  constructor
  · rintro ⟨_, hok, hsame⟩
    cases hok
    exact ⟨hsame.time, hsame.ctxDelta⟩
  · rintro ⟨htime, hentries⟩
    exact ⟨_, rfl, hentries, rfl, htime⟩

namespace Sample

def accountIDs : AccountIDs where
  sargaAccountID := ⟨BitVec.ofNat 256 (2 ^ 253)⟩
  systemAccountID := ⟨BitVec.ofNat 256 (2 ^ 253 + 1)⟩
  sarga_kind := by decide
  system_kind := by decide
  ne := by decide

def newIdentifier : Identifier := ⟨BitVec.ofNat 256 (2 ^ 40)⟩

def executionConfig : ExecutionConfig := ⟨accountIDs, false, false⟩

/-- A cluster whose one participant is a new account, in a view that starts at this second. -/
def newAccountCluster (sec : Int) : ExecutionCluster where
  selfID := [1]
  operator := [1]
  clusterID := [6]
  view := 3
  startTime := ⟨sec, 0, by decide⟩
  trustedPeers := []
  participants := (∅ : Participants).insert newIdentifier
    ⟨newIdentifier, true, false, 0, nilHash, nilHash, nilHash, 0, mutateLock, none, 0, nilHash,
      false⟩
  committee := ICSCommittee.new.appendNodeSet nilHash (some (NodeSet.new [⟨0, [1], [7]⟩] 1))

def executionAnswers : ExecutionAnswers where
  loadTransitionObjects := none
  executeInteractions _ := .ok ((∅ : AccountStateHashes).insert newIdentifier ⟨1⟩, 7, .ok ⟨2⟩)
  ixnsHash := .ok ⟨5⟩
  updateOrder := [newIdentifier]
  excludeOrder := [newIdentifier]

/-- The times of the two contexts. -/
def contextTimes (sec : Int) : Option (UInt64 × UInt64) :=
  match executionConfig.createProposalTesseract executionAnswers (newAccountCluster sec) with
  | .ok (.ok (executed, ts)) => some (executed.context.time, ts.timestamp)
  | _ => none

theorem contextTimes_eq_some {sec : Int} {t t' : UInt64} (h : contextTimes sec = some (t, t')) :
    ∃ executed ts, executionConfig.createProposalTesseract executionAnswers
      (newAccountCluster sec) =
      .ok (.ok (executed, ts)) ∧ executed.context.time = t ∧ ts.timestamp = t' := by
  unfold contextTimes at h
  split at h
  · rename_i executed ts hcall
    cases h
    exact ⟨executed, ts, hcall, rfl, rfl⟩
  · cases h

end Sample

/-- A view that starts at the epoch: the contexts agree. -/
theorem epoch_contexts_agree : ∃ executed ts context,
    executionConfig.createProposalTesseract executionAnswers
      (newAccountCluster 0) = .ok (.ok (executed, ts)) ∧
    ts.executionContext = .ok context ∧ executed.context.Same context := by
  have htimes : contextTimes 0 = some (0, 0) := by decide +kernel
  obtain ⟨executed, ts, hcall, _, _⟩ := contextTimes_eq_some htimes
  have hnone : NoExcludedDelta (newAccountCluster 0).participants := by
    intro id p hp hexcluded
    by_cases hid : id = newIdentifier
    · subst hid
      cases hp
      cases hexcluded
    · rw [newAccountCluster, AList.lookup_insert_ne hid, AList.lookup_empty] at hp
      cases hp
  obtain ⟨context, hcontext, hsame⟩ :=
    (executionContext_agree_iff (.refl _) hcall).mpr ⟨⟨0, rfl⟩, hnone⟩
  exact ⟨executed, ts, context, hcall, hcontext, hsame⟩

/-- A view that starts one second after the epoch: the leader executes at time 1, a validator at
    time 1000000000. -/
theorem view_time_differs : ∃ executed ts,
    executionConfig.createProposalTesseract executionAnswers
      (newAccountCluster 1) = .ok (.ok (executed, ts)) ∧
    executed.context.time = 1 ∧ ts.timestamp = 1000000000 ∧
    ∀ context, ts.executionContext = .ok context → ¬ executed.context.Same context := by
  have htimes : contextTimes 1 = some (1, 1000000000) := by decide +kernel
  obtain ⟨executed, ts, hcall, htime, hstamp⟩ := contextTimes_eq_some htimes
  refine ⟨executed, ts, hcall, htime, hstamp, fun context hcontext hsame => ?_⟩
  obtain ⟨_, _, hcontext⟩ := Go.bind_eq_ok.mp hcontext
  cases hcontext
  have heq := hsame.time
  rw [htime] at heq
  exact absurd (heq.trans hstamp) (by decide)

end GoMoi
