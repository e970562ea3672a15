/-
  File:      GoMoi/Consensus/KbftRuns.lean
  Subject:   What every run of an instance of the agreement protocol keeps to.

  * **`votesOnce_run`** -- whatever is delivered in whatever order, and whatever the other
    components answer, the steps and votes of an instance are those of one round;
  * **`handledOnce_run`** -- so is the call of the tesseract handler, in the runs in which no
    PRECOMMIT certificate fails to be stored;
  * `handler_without_record` -- a run in which it fails: `enterCommit` returns early, but what it
    deferred still commits the tesseract.
-/
import GoMoi.Consensus.KbftRefines

namespace GoMoi

namespace KBFT

open Proc

variable {C : Codec} {P : Primitives} {stored strict : Bool}

/-! ## 1. The invariant of a run -/

/-- The invariant while the machine runs, and what a panic leaves of it. -/
def StateInv (C : Codec) (stored strict : Bool) : State → Prop
  | (.ok (), s) => Inv C stored strict s
  | (.error _, s) => InOrder C stored strict s

theorem StateInv.inOrder {s : State} (h : StateInv C stored strict s) :
    InOrder C stored strict s.2 := by
  obtain ⟨_ | _, s⟩ := s
  · exact h
  · exact Inv.inOrder h

theorem start_inv (c : Config) : StateInv C c.isTSStored strict (start c) := by
  refine ⟨Round.start, ⟨.snoc .start _ ?_, rfl, rfl, .absent, ?_⟩, ?_, ?_, ?_, ?_⟩
  · exact Round.next_step le_rfl
  · intro ti hti
    rw [List.mem_singleton.mp hti]
    rfl
  · refine ⟨nofun, fun hle => absurd hle ?_⟩
    show ¬ ViewStepType.prevote ≤ .newHeight
    decide
  all_goals
    intro hb
    cases hb

variable {e : World × Event}

theorem step_inv {s s' : State} (h : StateInv C stored strict s)
    (hok : strict = true → StoresCommit e.1 s.2) (hs : Step C P s e s') :
    StateInv C stored strict s' := by
  obtain ⟨hrunning, htimeout, rfl⟩ := hs
  obtain ⟨_, s⟩ := s
  cases hrunning
  have hspec := handle_spec (P := P) h hok htimeout
  unfold Upholds wp at hspec
  generalize handle C P e.1 e.2 s = out at hspec
  obtain ⟨_ | _, _⟩ := out <;> exact hspec

/-! ## 2. Voting and committing -/

/-- **The rules of voting hold in every run.** -/
theorem votesOnce_run {c : Config} {es : List (World × Event)} {s : State}
    (h : Run (Step C P) (start c) es s) : VotesOnce C c.isTSStored s.2.history := by
  have hinv : StateInv C c.isTSStored false s :=
    Run.invariant (I := fun _ => StateInv C c.isTSStored false) (start_inv c)
      (fun _ _ _ _ hi hs => step_inv hi nofun hs) h
  obtain ⟨r, hr⟩ := hinv.inOrder
  exact hr.votesOnce

/-- **The rules of handing on a tesseract hold in every run in which no PRECOMMIT certificate fails
    to be stored.** -/
theorem handledOnce_run {c : Config} {es : List (World × Event)} {s : State}
    (h : Run (Guarded (fun s e => StoresCommit e.1 s.2) (Step C P)) (start c) es s) :
    HandledOnce C s.2.history := by
  have hinv : StateInv C c.isTSStored true s :=
    Run.invariant (I := fun _ => StateInv C c.isTSStored true) (start_inv c)
      (fun _ _ _ _ hi hs => step_inv hi (fun _ => hs.1) hs.2) h
  obtain ⟨r, hr⟩ := hinv.inOrder
  exact hr.handledOnce

/-! ## 3. A committee of one -/

/-- The machine as a function, where it takes a step. -/
def next (C : Codec) (P : Primitives) (s : State) (e : World × Event) : Except Unit State :=
  match s.1, e.2 with
  | .error _, _ => .error ()
  | .ok (), .message _ => .ok (handle C P e.1 e.2 s.2)
  | .ok (), .timeout ti => if ti ∈ s.2.scheduled then .ok (handle C P e.1 e.2 s.2) else .error ()

theorem step_of_next {s s' : State} (h : next C P s e = .ok s') : Step C P s e s' := by
  obtain ⟨w, e⟩ := e
  obtain ⟨res, s⟩ := s
  rcases res with p | u
  · cases h
  cases e with
  | message msg =>
    cases h
    exact ⟨rfl, nofun, rfl⟩
  | timeout ti =>
    simp only [next] at h
    split at h
    · rename_i hmem
      cases h
      exact ⟨rfl, fun ti' hti => by cases hti; exact hmem, rfl⟩
    · cases h

namespace Solo

/-- Every tesseract has the hash 1; a vote is encoded by one byte for each field. -/
def codec : Codec where
  polorizeBody _ := .ok []
  polorizeVote v := .ok [UInt8.ofNat v.type.val.toNat, UInt8.ofNat v.view.toNat,
    UInt8.ofNat v.tsHash.bits.toNat]
  blake2b _ := ⟨1⟩

/-- The point of a signature is the message itself. -/
def prims : Primitives where
  verifyCompressed d _ m := d = m
  aggregate ds := .ok ds.flatten
  fastAggregateVerify a keys m := a = (keys.map fun _ => m).flatten
  secp256k1Verify _ _ _ := (false, some (.new "malformed public key"))

/-- A framed signature. -/
def sign (message : Bytes) : Bytes := 4 :: UInt8.ofNat message.length :: message

/-- The random set is the validator `[1]` alone. -/
def committee : ICSCommittee :=
  ICSCommittee.new.appendNodeSet nilHash
    (some (NodeSet.new [⟨0, [1], List.replicate Crypto.blsPublicKeyLength 0⟩] 1))

def tesseract : Tesseract where
  participants := ∅
  interactionsHash := nilHash
  receiptsHash := nilHash
  epoch := 0
  timestamp := 0
  fuelUsed := 0
  fuelLimit := 0
  consensusInfo := ⟨[1], nilHash, nilHash, 1, ∅, ∅, ∅, nilHash, []⟩
  sealBytes := []
  sealBy := []
  commitInfo := some ⟨none, [1], [], 1, [0], 1⟩

/-- An instance of the operator, in view 1. -/
def config : Config where
  operator := [1]
  id := [1]
  ics := { toClusterState := ClusterState.new committee, operator := [1]
           tesseract := some tesseract, prepareQc := some ⟨1⟩ }
  heights := ∅
  currentView := 1
  votes := HeightVoteSet.new 1 (ClusterState.new committee)
  evidence := []
  hasVault := true
  isTSStored := false

/-- All components answer without an error, but for what the safety store says. -/
def world (updateSafetyInfo : Proposal → Qc → Go (Option Err)) : World where
  sign raw := .ok (.ok (sign raw))
  updateSafetyInfo := updateSafetyInfo
  tesseractHandler _ := .ok none
  flushEvidence _ := .ok none

def storing : World := world fun _ _ => .ok none

/-- PRECOMMIT certificates cannot be stored. -/
def failing : World :=
  world fun _ qc =>
    .ok (if qc.type = PRECOMMIT then some (.new "failed to set safety data") else none)

def vote (t : ConsensusMsgType) : Vote :=
  ⟨t, false, 1, 0, ⟨1⟩, none, sign [UInt8.ofNat t.val.toNat, 1, 1]⟩

/-- The timeout of the height, then the messages the instance sends to itself. -/
def events : List Event :=
  [.timeout ⟨1, .newHeight⟩, .message ⟨[1], [], .proposal (some ⟨some ⟨1⟩, some tesseract⟩)⟩,
    .message ⟨[1], [], .vote (some (vote PREVOTE))⟩,
    .message ⟨[1], [], .vote (some (vote PRECOMMIT))⟩]

/-- The instance after these events, under one world. -/
def outcome (w : World) : Except Unit State :=
  events.foldlM (fun s e => next codec prims s (w, e)) (start config)

theorem run_of_outcome {w : World} (step : State → World × Event → State → Prop) {p : State → Bool}
    (hsub : ∀ s e s', Step codec prims s (w, e) s' → step s (w, e) s')
    (h : (outcome w).toOption.any p = true) :
    ∃ s, Run step (start config) (events.map (Prod.mk w)) s ∧ p s = true := by
  rcases hs : outcome w with u | s
  · rw [hs] at h
    cases h
  rw [hs] at h
  exact ⟨s, ((Run.of_foldlM hs).mono fun s e s' hnext => hsub s e s' (step_of_next hnext)).map, h⟩

end Solo

open Solo

/-- A run with both votes. -/
theorem solo_votesOnce :
    ∃ s, Run (Step codec prims) (start config)
        (events.map (Prod.mk storing)) s ∧
      (s.2.history.filter (Entry.sends PRECOMMIT)).length = 1 ∧
      VotesOnce codec false s.2.history := by
  obtain ⟨s, hrun, hsent⟩ := run_of_outcome (w := storing) _ (fun _ _ _ hs => hs)
    (p := fun s => decide ((s.2.history.filter (Entry.sends PRECOMMIT)).length = 1))
    (by decide +kernel)
  exact ⟨s, hrun, of_decide_eq_true hsent, votesOnce_run hrun⟩

/-- The run commits, under a safety store without errors. -/
theorem solo_handledOnce :
    ∃ s, Run (Guarded (fun s e => StoresCommit e.1 s.2) (Step codec prims))
        (start config) (events.map (Prod.mk storing)) s ∧
      (s.2.history.filterMap Entry.handled).length = 1 ∧ HandledOnce codec s.2.history := by
  obtain ⟨s, hrun, hdone⟩ := run_of_outcome (w := storing)
    (Guarded (fun s e => StoresCommit e.1 s.2) (Step codec prims))
    (fun _ _ _ hs => ⟨fun _ _ _ _ _ => rfl, hs⟩)
    (p := fun s => decide ((s.2.history.filterMap Entry.handled).length = 1)) (by decide +kernel)
  exact ⟨s, hrun, of_decide_eq_true hdone, handledOnce_run hrun⟩

/-- **A tesseract is handed on without its record**: the same run, with a safety store that fails
    on PRECOMMIT certificates. -/
theorem handler_without_record :
    ∃ s, Run (Step codec prims) (start config)
        (events.map (Prod.mk failing)) s ∧
      (∃ e ∈ s.2.history, e.handled.isSome) ∧ (∀ e ∈ s.2.history, e.stored PRECOMMIT = none) ∧
      ¬ HandledOnce codec s.2.history := by
  obtain ⟨s, hrun, hdone⟩ := run_of_outcome (w := failing) _ (fun _ _ _ hs => hs)
    (p := fun s => s.2.history.any (·.handled.isSome) &&
      s.2.history.all fun e => decide (e.stored PRECOMMIT = none)) (by decide +kernel)
  rw [Bool.and_eq_true, List.any_eq_true, List.all_eq_true] at hdone
  obtain ⟨⟨e, he, hhandled⟩, hall⟩ := hdone
  have hnone : ∀ e ∈ s.2.history, e.stored PRECOMMIT = none :=
    fun e he => of_decide_eq_true (hall e he)
  refine ⟨s, hrun, ⟨e, he, hhandled⟩, hnone, fun honce => ?_⟩
  obtain ⟨ts, hts⟩ := Option.isSome_iff_exists.mp hhandled
  obtain ⟨l1, l2, hsplit⟩ := List.append_of_mem he
  obtain ⟨_, h, _, _, e', he', hstored⟩ := honce.handled l1 e l2 ts hsplit hts
  rw [hnone e' (by rw [hsplit]; exact List.mem_append_left _ he')] at hstored
  cases hstored

end KBFT

end GoMoi
