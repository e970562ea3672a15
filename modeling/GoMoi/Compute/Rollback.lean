/-
  File:      GoMoi/Compute/Rollback.lean
  Subject:   Failed operations, the status of the receipt, and what is rolled back
             (`compute/executor.go`).

  An interaction should succeed as a whole or leave nothing but its sequence number and its fee. The
  loop of `runInteraction` sets the status of the receipt after every operation, so what counts in
  the end is the LAST result alone.

  * `LastDecides` -- the condition on the results: if one of them is a failure, so is the last one;
  * `allOrNothing_iff` -- the property implies the condition; the condition implies the property
    if, where there is something to undo, a snapshot restores at all (`State/Snapshot`);
  * `failure_forgotten` -- a failure followed by a success.
-/
import GoMoi.Compute.Outcome

namespace GoMoi

open SnapshotSample IxOpStatus

/-! ## 1. The property -/

/-- All that is left of the round is what `settle` does: the state before it could be observed to be
    the one at the start. -/
def RolledBack (X : ExecEnv) (ix : Interaction) (r : Receipt) (s s' : ExecState) : Prop :=
  ∃ s₁, (∀ target, s₁.transition.observe X.backend s₁.memory target =
      s.transition.observe X.backend s.memory target) ∧
    s₁.transition.receipts = s.transition.receipts ∧ settle X ix r s₁ = (.ok (), s')

/-- **All or nothing.** With a failed result the receipt is not `Ok` and all but the sequence number
    and the fee is rolled back; if the operations were run and all results are `Ok`, so is the
    receipt; if the sender could not pay, no operation was run and all is as it was. -/
def AllOrNothing (X : ExecEnv) (ix : Interaction) (s s' : ExecState) : Prop :=
  ∃ r, s'.transition.receipts.lookup ix.hash = some r ∧
    ((∃ res ∈ r.ixOps, res.status ≠ .resultOk) → r.status ≠ .receiptOk ∧ RolledBack X ix r s s') ∧
    (r.status ≠ .receiptInsufficientFuel → (∀ res ∈ r.ixOps, res.status = .resultOk) →
      r.status = .receiptOk) ∧
    (r.status = .receiptInsufficientFuel → r.ixOps = [] ∧ RolledBack X ix r s s')

/-! ## 2. The condition -/

/-- If an operation has failed, the last one has. -/
def LastDecides (statuses : List (Option IxOpStatus)) : Prop :=
  (∃ st ∈ statuses, st ≠ some .resultOk) → statuses.getLast? ≠ some (some .resultOk)

/-- The outcomes of the operations of an interaction. -/
def ranOutcomes (ix : Interaction) (outcomes : List OpOutcome) : List OpOutcome :=
  outcomes.take ix.ops.length

/-- The state in which the first operation of an interaction is run. -/
def StartsOps (X : ExecEnv) (ix : Interaction) (s s₁ : ExecState) : Prop :=
  ∃ s₀, addActorsToRuntime X ix.ps.entries
      { s with memory := (s.transition.snapshot s.memory).2 } = (.ok none, s₀) ∧
    hasSufficientFuel X ix { s₀ with tank := FuelTank.new ix.fuelLimit X.storageLimit } =
      (.ok true, s₁)

/-- The round has to be undone: the sender cannot pay, or an operation has failed. -/
def Undone (X : ExecEnv) (ix : Interaction) (outcomes : List OpOutcome) (s : ExecState) : Prop :=
  FuelCovered X ix s.transition s.memory →
    ∃ st ∈ (ranOutcomes ix outcomes).map (·.status), st ≠ some .resultOk

/-- No operation works on an asset that the checkpoint shares. -/
def UnsharedOps (X : ExecEnv) (ix : Interaction) (outcomes : List OpOutcome)
    (s : ExecState) : Prop :=
  ∀ s₁, StartsOps X ix s s₁ → ∃ s₂,
    Run (Guarded (fun s' e => e.Unshared s.memory.heap s') (OpEvent.Step X)) s₁
      ((ranOutcomes ix outcomes).flatMap (·.events)) s₂

/-! ## 3. The theorem -/

section

variable {X : ExecEnv} {ix : Interaction} {outcomes : List OpOutcome} {s s' : ExecState}
  {statuses : List IxOpStatus} {status : ReceiptStatus}

/-- The status of a receipt is decided by the last result. -/
theorem status_ok_iff
    (h : status = (statuses.getLast?.map receiptStatus).getD .receiptOk) :
    status = .receiptOk ↔ statuses = [] ∨ statuses.getLast? = some .resultOk := by
  rw [h]
  rcases hlast : statuses.getLast? with _ | st
  · simp [List.getLast?_eq_none_iff.mp hlast]
  have hne : statuses ≠ [] := by
    rintro rfl
    cases hlast
  cases st <;> simp [receiptStatus, hne]

/-- With the checkpoint installed, `settle` is all that is left. -/
theorem rolledBack_of_within {s2 : ExecState} {r : Receipt} (hs : s.Sound)
    (hs2 : s2.Within (s.checkpoint s.memory.heap))
    (hreload : s.transition.Reloads X.backend s.memory) (hr : r.status ≠ .receiptOk)
    (hsettle : settle X ix r (s2.closeRun (s.transition.snapshot s.memory).1 r) = (.ok (), s')) :
    RolledBack X ix r s s' := by
  rw [ExecState.closeRun, if_neg hr] at hsettle
  refine ⟨{ s2 with transition := _ }, ExecState.Within.observe hs hs2 hreload, ?_, hsettle⟩
  rfl

theorem status_ran (h : status = (statuses.getLast?.map receiptStatus).getD .receiptOk) :
    status ≠ .receiptInsufficientFuel := by
  rw [h]
  cases statuses.getLast? with
  | none => simp
  | some st => cases st <;> simp [receiptStatus]

/-- Operations that leave the shared assets alone stay within the checkpoint. -/
theorem UnsharedOps.within {s1 s2 : ExecState} (h : UnsharedOps X ix outcomes s)
    (hstart : StartsOps X ix s s1) (hs1 : s1.Within (s.checkpoint s.memory.heap))
    (hs2 : s2 = play X ((ranOutcomes ix outcomes).flatMap (·.events)) s1) :
    s2.Within (s.checkpoint s.memory.heap) := by
  obtain ⟨_, hevents⟩ := h s1 hstart
  rw [hs2, ← run_play hevents]
  exact hs1.run hevents

/-- **All or nothing** holds only if the last result decides, and it does hold then if, where the
    round has to be undone, no operation works on an asset that the checkpoint shares and all
    objects reload. -/
theorem allOrNothing_iff (hs : s.Sound)
    (hexec : executeOne X (playing X outcomes) ix s = (.ok none, s')) :
    (AllOrNothing X ix s s' → FuelCovered X ix s.transition s.memory →
      LastDecides ((ranOutcomes ix outcomes).map (·.status))) ∧
    ((FuelCovered X ix s.transition s.memory →
        LastDecides ((ranOutcomes ix outcomes).map (·.status))) →
      (Undone X ix outcomes s →
        s.transition.Reloads X.backend s.memory ∧ UnsharedOps X ix outcomes s) →
      AllOrNothing X ix s s') := by
  obtain ⟨s1, s2, receipt, hactors, hrun, hsettle⟩ := executeOne_cases hexec
  have hreceipt : s'.transition.receipts.lookup ix.hash = some receipt := by
    rw [settle_transition hsettle]
    exact AList.lookup_insert _
  rcases runInteraction_cases hrun with ⟨hfuel, rfl⟩ | ⟨s3, hfuel, hops⟩
  · -- the sender could not pay
    obtain ⟨hs2, hcovered⟩ := checked_within hs hactors hfuel
    have hpoor : ¬ FuelCovered X ix s.transition s.memory :=
      fun h => absurd (hcovered.mpr h) Bool.false_ne_true
    refine ⟨fun _ h => absurd h hpoor, fun _ hundone => ?_⟩
    refine ⟨_, hreceipt, ?_, fun hne => absurd rfl hne, fun _ => ⟨rfl, ?_⟩⟩
    · rintro ⟨res, hres, -⟩
      cases hres
    · exact rolledBack_of_within hs hs2 (hundone fun h => absurd h hpoor).1 nofun hsettle
  obtain ⟨hs3, hcovered⟩ := checked_within hs hactors hfuel
  obtain ⟨-, statuses, hran⟩ := runOps_playing hops
  have hstatus := status_ok_iff hran.status
  have hresults : receipt.ixOps.map (·.status) = statuses := hran.results
  have hfailed : (∃ res ∈ receipt.ixOps, res.status ≠ .resultOk) ↔
      ∃ st ∈ statuses, st ≠ .resultOk := by
    rw [← hresults]
    simp
  have hended : (ranOutcomes ix outcomes).map (·.status) = statuses.map some := hran.ended
  have hlast : LastDecides ((ranOutcomes ix outcomes).map (·.status)) ↔
      ((∃ st ∈ statuses, st ≠ .resultOk) → statuses.getLast? ≠ some .resultOk) := by
    rw [hended]
    simp [LastDecides]
  constructor
  · rintro ⟨r, hr, hfail, -⟩ -
    cases hreceipt.symm.trans hr
    refine hlast.mpr fun hany hok => (hfail (hfailed.mpr hany)).1 (hstatus.mpr (.inr hok))
  intro hcond hundone
  have hcond := hlast.mp (hcond (hcovered.mp rfl))
  refine ⟨receipt, hreceipt, fun hany => ?_, fun _ hall => ?_, fun hins => ?_⟩
  · obtain ⟨hreload, hunshared⟩ := hundone fun _ => by
      rw [hended]
      simpa using hfailed.mp hany
    have hs2 := hunshared.within ⟨s1, hactors, hfuel⟩ hs3 hran.state
    have hne : receipt.status ≠ .receiptOk := by
      intro hok
      rcases hstatus.mp hok with rfl | hok
      · obtain ⟨st, hst, -⟩ := hfailed.mp hany
        cases hst
      · exact hcond (hfailed.mp hany) hok
    exact ⟨hne, rolledBack_of_within hs hs2 hreload hne hsettle⟩
  · refine hstatus.mpr ?_
    rcases hlast' : statuses.getLast? with _ | st
    · exact .inl (List.getLast?_eq_none_iff.mp hlast')
    have hst : st ∈ receipt.ixOps.map (·.status) := hresults ▸ List.mem_of_getLast? hlast'
    obtain ⟨res, hres, rfl⟩ := List.mem_map.mp hst
    exact .inr (congrArg some (hall res hres))
  · exact absurd hins (status_ran hran.status)

end

/-! ## 4. Two operations -/

namespace RollbackSample

open SnapshotSample (assetID accountID)

def ids : AccountIDs where
  sargaAccountID := ⟨0x20#8 ++ 1#248⟩
  systemAccountID := ⟨0x20#8 ++ 2#248⟩
  sarga_kind := by decide
  system_kind := by decide
  ne := by decide

def env : ExecEnv where
  backend := backend
  ids := ids
  kmoiTokenAssetID := assetID
  storageLimit := 1000
  newBytecodeArtifact _ := true
  spawn _ := none
  createActor _ := none

/-- The sender has one key and a hundred tokens of the fuel asset. -/
def sender : Object := { object with
  keys := some [{ id := 0, publicKey := [1], weight := 1000, signatureAlgorithm := 0
                  revoked := false, sequenceID := 4 }] }

def start : ExecState where
  memory := { objects := ⟨[sender]⟩, heap := .empty }
  transition := transition
  actors := ∅
  tank := .new 0 0

/-- An interaction of two operations that may cost ten tokens. -/
def ix : Interaction where
  inner := { sender := ⟨accountID, 4, 0⟩, payer := nilIdentifier, fuelPrice := some 1
             fuelLimit := 10
             ixOps := [], participants := [] }
  ops := [⟨nilIdentifier, ixAccountConfigure, .accountConfigure ⟨[], []⟩⟩,
    ⟨nilIdentifier, ixAccountConfigure, .accountConfigure ⟨[], []⟩⟩]
  ps := AList.singleton accountID ⟨true, mutateLock, false⟩
  leaderCandidateAcc := accountID
  hash := ⟨5⟩
  size := 0
  signatures := []

/-- What is seen after a round: status of the receipt, results, tokens of the sender. -/
def executed (outcomes : List OpOutcome) : Option (ReceiptStatus × List IxOpStatus × Option Int) :=
  match executeOne env (playing env outcomes) ix start with
  | (.ok none, s') => (s'.transition.receipts.lookup ix.hash).map fun r =>
    (r.status, r.ixOps.map (·.status), tokens
      (s'.transition.observe env.backend s'.memory (.account accountID)))
  | _ => none

theorem executed_eq_some {outcomes : List OpOutcome}
    {seen : ReceiptStatus × List IxOpStatus × Option Int} (h : executed outcomes = some seen) :
    ∃ s' r, executeOne env (playing env outcomes) ix start = (.ok none, s') ∧
      s'.transition.receipts.lookup ix.hash = some r ∧ r.status = seen.1 ∧
      r.ixOps.map (·.status) = seen.2.1 ∧ tokens
        (s'.transition.observe env.backend s'.memory (.account accountID)) = seen.2.2 := by
  unfold executed at h
  split at h
  case h_1 s' hexec =>
    obtain ⟨r, hr, rfl⟩ := Option.map_eq_some_iff.mp h
    exact ⟨s', r, hexec, hr, rfl, rfl, rfl⟩
  case h_2 => cases h

/-- Fuel is taken and thirty tokens are spent, then the operation fails. -/
def failing : OpOutcome where
  events := [.exhaust 2 0, .call (.object (.account accountID))
    (.subBalance assetID defaultTokenID 30)]
  status := some .resultExceptionRaised

/-- An asset is entered among the deeds of the sender. -/
def entering : OpOutcome where
  events := [.exhaust 2 0, .call (.object (.account accountID)) (.createDeedsEntry ⟨9⟩)]
  status := some .resultOk

/-- An operation that does as much and fails. -/
def revoked : OpOutcome := { entering with status := some .resultDefectRaised }

theorem read_start {p : Ptr Object} {o : Object} (h : start.memory.objects.read p = some o) :
    o = sender := by
  obtain ⟨_ | _⟩ := p
  · exact (Option.some.inj h).symm
  · cases h

theorem start_sound : start.Sound where
  closed :=
    { kept := Heap.Kept.refl _
      closed := nofun
      objects := fun p o ho assetID q hq => by
        rw [read_start ho] at hq
        cases hq }
  places := fun place p hp => by
    cases place with
    | object target => exact transition_in target p hp
    | auxiliary id => cases hp
    | actor id => cases hp

theorem start_reloads : start.transition.Reloads env.backend start.memory := by
  intro target p o _ ho
  rw [read_start ho]
  exact ⟨rfl, nofun, nofun⟩

/-- No asset is touched. -/
theorem entering_unshared : UnsharedOps env ix [entering, revoked] start := by
  intro s1 _
  refine ⟨_, .snoc (.snoc (.snoc (.snoc .start _ ⟨trivial, rfl⟩) _ ⟨?_, rfl⟩) _ ⟨trivial, rfl⟩) _
    ⟨?_, rfl⟩⟩
  · intro assetID p o ha
    cases ha
  · intro assetID p o ha
    cases ha

/-- **A success followed by a failure** is rolled back. -/
theorem failure_last_rolled_back :
    ∃ s', executeOne env (playing env [entering, revoked]) ix start = (.ok none, s') ∧
      AllOrNothing env ix start s' := by
  have hseen : executed [entering, revoked] =
      some (.receiptStateReverted, [.resultOk, .resultDefectRaised], some 90) := by decide +kernel
  obtain ⟨s', r, hexec, -⟩ := executed_eq_some hseen
  refine ⟨s', hexec, (allOrNothing_iff start_sound hexec).2 (fun _ _ h => ?_)
    fun _ => ⟨start_reloads, entering_unshared⟩⟩
  cases h

/-- **A failure followed by a success**: the receipt is `Ok` and the tokens that the failed
    operation has spent are gone. -/
theorem failure_forgotten :
    ∃ s' r, executeOne env (playing env [failing, entering]) ix start = (.ok none, s') ∧
      s'.transition.receipts.lookup ix.hash = some r ∧
      r.ixOps.map (·.status) = [.resultExceptionRaised, .resultOk] ∧ r.status = .receiptOk ∧
      tokens (s'.transition.observe env.backend s'.memory (.account accountID)) =
        some 66 ∧ ¬ AllOrNothing env ix start s' := by
  have hseen : executed [failing, entering] =
      some (.receiptOk, [.resultExceptionRaised, .resultOk], some 66) := by decide +kernel
  obtain ⟨s', r, hexec, hr, hstatus, hresults, htokens⟩ := executed_eq_some hseen
  refine ⟨s', r, hexec, hr, hresults, hstatus, htokens, ?_⟩
  rintro ⟨_, hr', hfail, -⟩
  cases hr.symm.trans hr'
  refine (hfail ?_).1 hstatus
  have hmem : resultExceptionRaised ∈ r.ixOps.map (·.status) := by
    rw [hresults]
    exact List.mem_cons_self
  obtain ⟨res, hres, hst⟩ := List.mem_map.mp hmem
  exact ⟨res, hres, by rw [hst]; decide⟩

end RollbackSample

end GoMoi
