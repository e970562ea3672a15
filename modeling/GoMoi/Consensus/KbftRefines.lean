/-
  File:      GoMoi/Consensus/KbftRefines.lean
  Subject:   The handlers of the agreement protocol keep to a round.

  * `Mirrors s r` -- the history of `s` is in order, and `r` is the round it leads to;
  * `Settled s r` -- what holds between two events: a proposal is there exactly from the PREVOTE
    step on, and the acts of a step are done only once the step is reached;
  * one lemma for each handler: from a settled instance to a settled one, and if it panics, with a
    history in order;
  * **`handle_spec`** -- so for every event. In strict rounds, where the tesseract may be handed on
    only after its record, this asks that no PRECOMMIT certificate fails to be stored.
-/
import GoMoi.Consensus.KbftRound

namespace GoMoi

open Round VoteSet ViewStepType

namespace KBFT

open Proc

/-! ## 1. The simulation relation -/

/-- The proposal an instance holds is the one it accepted, but for commit information and seal. -/
inductive Holds : Option Proposal → Option Tesseract → Option Proposal → Prop where
  | absent : Holds none none none
  | present {p p₀ : Proposal} {ts ts₀ : Tesseract} (hts : p.tesseract = some ts)
      (hts₀ : p₀.tesseract = some ts₀) (hbody : ts.toTesseractBody = ts₀.toTesseractBody) :
      Holds (some p) (some ts) (some p₀)

variable {q : Option Proposal} {t : Option Tesseract} {e : Effect} {n : ViewStepType} {s₁ : KBFT}

theorem Holds.of_none {ts : Option Tesseract} (h : Holds none ts q) : ts = none ∧ q = none := by
  cases h
  exact ⟨rfl, rfl⟩

variable {p : Proposal} {ts : Tesseract} {tsHash : Hash}

theorem Holds.of_some (h : Holds (some p) t q) : ∃ ts, t = some ts ∧ p.tesseract = some ts := by
  cases h with
  | present hts _ _ => exact ⟨_, rfl, hts⟩

theorem Holds.body {p : Option Proposal} (h : Holds p (some ts) q) :
    ∃ p0 ts0, q = some p0 ∧ p0.tesseract = some ts0 ∧ ts.toTesseractBody = ts0.toTesseractBody := by
  cases h with
  | present _ hts0 hbody => exact ⟨_, _, rfl, hts0, hbody⟩

/-- The instance is at this round. -/
structure Mirrors (C : Codec) (stored strict : Bool) (s : KBFT) (r : Round) : Prop where
  orderly : Orderly C stored strict s.history r
  isTSStored : s.isTSStored = stored
  step : r.step = s.step
  proposal : Holds s.proposal s.proposalTS r.accepted
  scheduled : ∀ ti ∈ s.scheduled, ti.view = s.view

/-- Between two events. -/
structure Settled (s : KBFT) (r : Round) : Prop where
  proposed : s.proposal.isSome = true ↔ .prevote ≤ s.step
  prevoted : r.prevoted = true → .prevote ≤ s.step
  precommitted : r.precommitted = true → .precommit ≤ s.step
  handled : r.handled = true → .commit ≤ s.step

/-- The invariant of a run. -/
def Inv (C : Codec) (stored strict : Bool) (s : KBFT) : Prop :=
  ∃ r, Mirrors C stored strict s r ∧ Settled s r

/-- What is left of it after a panic. -/
def InOrder (C : Codec) (stored strict : Bool) (s : KBFT) : Prop :=
  ∃ r, Orderly C stored strict s.history r

/-- `x` returns with the invariant, or panics with the history in order. -/
abbrev Upholds (C : Codec) (stored strict : Bool) {A : Type} (x : Proc KBFT A) : KBFT → Prop :=
  wp x (fun _ => Inv C stored strict) (InOrder C stored strict)

variable {C : Codec} {P : Primitives} {w : World} {stored strict : Bool} {s s' : KBFT} {r : Round}

theorem Mirrors.inOrder (h : Mirrors C stored strict s r) : InOrder C stored strict s :=
  ⟨r, h.orderly⟩

/-! ## 2. Effects -/

/-- An effect that leaves step and proposal alone. -/
theorem Mirrors.emit (h : Mirrors C stored strict s r) {r' : Round}
    (hnext : Round.Next C stored strict r (s.entry e) r') (hstep : r'.step = r.step)
    (hacc : r'.accepted = r.accepted) : Mirrors C stored strict (s.emit e) r' :=
  { h with
    orderly := .snoc h.orderly _ hnext
    step := hstep.trans h.step
    proposal := hacc ▸ h.proposal }

theorem Mirrors.emit_quiet (h : Mirrors C stored strict s r) (hq : Round.Quiet e) :
    Mirrors C stored strict (s.emit e) r :=
  h.emit (next_quiet hq) rfl rfl

/-- The instance after `updateViewStep` in its view. -/
def taken (s : KBFT) (n : ViewStepType) : KBFT := { s with step := n }.emit (.step s.view n)

theorem wp_updateViewStep {Q : Unit → KBFT → Prop} {R : KBFT → Prop} :
    wp (updateViewStep s.view n) Q R s ↔ Q () (s.taken n) := Iff.rfl

theorem Mirrors.taken (h : Mirrors C stored strict s r) (hle : s.step ≤ n) :
    Mirrors C stored strict (s.taken n) { r with step := n } :=
  { h with
    orderly := .snoc h.orderly (s.entry (.step s.view n)) (next_step (h.step ▸ hle))
    step := rfl }

/-! ## 3. What is sent and stored -/

section

variable {A : Type} {Q : Unit → KBFT → Prop} {R : KBFT → Prop} {t : ConsensusMsgType}

/-- `sendVote` sends one vote of the type and for the hash, or does nothing. -/
theorem wp_sendVote {internal : Bool} (hskip : Q () s) (hpanic : R s)
    (hsend : ∀ v e, v.type = t → v.tsHash = tsHash → v.isQC = false → Round.Sends v e →
      Q () (s.emit e)) : wp (sendVote C w t tsHash internal) Q R s := by
  simp only [sendVote, signVote, wp_bind, wp_self, wp_ite, wp_pure]
  refine ⟨fun _ => hskip, fun _ => wp_ofGo.mpr ⟨fun found _ => ?_, fun _ _ => hpanic⟩⟩
  refine ⟨fun _ => hskip, fun _ => ?_⟩
  split
  · exact hskip
  rw [wp_bind]
  refine wp_ofGo.mpr ⟨fun sign _ => ?_, fun _ _ => hpanic⟩
  rcases sign with e | _
  · exact hskip
  simp only [wp_pure, wp_ite]
  exact ⟨fun _ => hsend _ _ rfl rfl rfl (.internal _ _),
    fun _ => hsend _ _ rfl rfl rfl (.external _ _)⟩

/-- `sendQc` sends a certificate, which is no vote, or does nothing. -/
theorem wp_sendQc (hskip : Q () s) (hsend : ∀ e, Round.Quiet e → Q () (s.emit e)) :
    wp (sendQc t tsHash) Q R s := by
  simp only [sendQc, wp_bind, wp_self, wp_ite, wp_pure]
  exact ⟨fun _ => hskip, fun _ => hsend _ (.qc _ _ rfl)⟩

/-- `UpdateSafetyInfo` for the proposal, if there is one. -/
theorem wp_storeSafetyInfo {Q : Option Err → KBFT → Prop} {qc : Qc}
    (hstore : ∀ p err, s.proposal = some p → w.updateSafetyInfo p qc = .ok err →
      Q err (s.emit (.safety p qc err)))
    (hpanic : ∀ p reason, s.proposal = some p → w.updateSafetyInfo p qc = .error reason → R s)
    (hnone : s.proposal = none → R s) : wp (storeSafetyInfo w qc) Q R s := by
  simp only [storeSafetyInfo, wp_bind, wp_self]
  refine wp_ofGo.mpr ⟨fun p hp => ?_, fun reason hp => hnone ?_⟩
  · have hp' := Go.deref_eq_ok.mp hp
    exact wp_ofGo.mpr ⟨fun err herr => hstore p err hp' herr,
      fun reason hr => hpanic p reason hp' hr⟩
  rcases hs : s.proposal with _ | p
  · rfl
  rw [hs] at hp
  cases hp

end

/-! ## 4. Up to the PREVOTE step -/

/-- Nothing irrevocable is done yet. -/
structure Fresh (r : Round) : Prop where
  prevoted : r.prevoted = false
  precommitted : r.precommitted = false
  handled : r.handled = false

/-- An act of a step is not done before the step is reached. -/
theorem not_done {done : Bool} {m : ViewStepType} (h : done = true → n ≤ m) (hlt : m < n) :
    done = false := by
  rw [Bool.eq_false_iff]
  exact fun hdone => absurd (h hdone) (not_le.mpr hlt)

theorem Settled.fresh (h : Settled s r) (hstep : s.step < .prevote) : Fresh r :=
  ⟨not_done h.prevoted hstep, not_done h.precommitted (hstep.trans (by decide)),
    not_done h.handled (hstep.trans (by decide))⟩

section

variable (h : Mirrors C stored strict s r)
include h

/-- The accepted tesseract has the hash of the one held. -/
theorem Mirrors.accepted {hash : Hash} (hts : s.proposalTS = some ts)
    (hhash : ts.hash C = .ok hash) : r.Accepted C hash := by
  obtain ⟨p0, ts0, hacc, hts0, hbody⟩ := (hts ▸ h.proposal).body
  exact ⟨p0, ts0, hacc, hts0, by rw [← Tesseract.hash_body hbody, hhash]⟩

theorem Mirrors.settle_prevote (hprop : s.proposal.isSome = true) (hstep : s.step ≤ .prevote)
    (hpre : r.precommitted = false) (hhan : r.handled = false) :
    Inv C stored strict (s.taken .prevote) := by
  refine ⟨_, h.taken hstep, ⟨fun _ => le_rfl, fun _ => hprop⟩, fun _ => le_rfl, fun hb => ?_,
    fun hb => ?_⟩
  · rw [hpre] at hb
    cases hb
  · rw [hhan] at hb
    cases hb

/-- **`enterPrevote`**, once a proposal is there. -/
theorem enterPrevote_spec (hfresh : Fresh r) (hprop : s.proposal.isSome = true)
    (hstep : s.step < .prevote) : Upholds C stored strict (enterPrevote C w s.view) s := by
  simp only [enterPrevote, wp_bind, wp_self, wp_ite]
  refine ⟨fun hguard => ?_, fun _ => ?_⟩
  · rcases hguard with hlt | ⟨_, hle⟩
    · exact absurd hlt (by simp)
    · exact absurd hle (not_le.mpr hstep)
  have hdone := h.settle_prevote hprop hstep.le hfresh.precommitted hfresh.handled
  obtain ⟨p, hp⟩ := Option.isSome_iff_exists.mp hprop
  obtain ⟨_, hts, _⟩ := (hp ▸ h.proposal).of_some
  simp only [wp_deferred, prevoteBody, wp_bind, wp_self, hts]
  refine wp_ofGo.mpr ⟨fun hash hhash => ?_, fun _ _ => (h.taken hstep.le).inOrder⟩
  refine wp_sendVote hdone (h.taken hstep.le).inOrder fun v e ht hv hqc he => ?_
  -- the one PREVOTE, for the hash of the accepted proposal
  have hallow : Round.AllowsVote C stored r (s.entry e) v :=
    ⟨.inl ht, hv ▸ h.accepted hts hhash, fun _ => hfresh.prevoted,
      fun hpre => absurd (ht.symm.trans hpre) (by decide)⟩
  have hsent := h.emit (next_vote he hqc hallow) rfl rfl
  refine hsent.settle_prevote hprop hstep.le ?_ hfresh.handled
  simp only [hfresh.precommitted, ht]
  decide

/-- **`enterPropose`**, before a proposal is there. -/
theorem enterPropose_spec (hfresh : Fresh r) (hprop : s.proposal = none)
    (hstep : s.step < .propose) : Upholds C stored strict (enterPropose C w s.view) s := by
  -- the deferred part, on any state with the same step and proposal
  have hdefer : ∀ s₁, Mirrors C stored strict s₁ r → s₁.proposal = none → s₁.step = s.step →
      s₁.view = s.view →
      Upholds C stored strict (proposeDeferred C w s.view) s₁ := by
    intro s₁ h1 hprop1 hstep1 hview1
    have hnot : (s₁.taken .propose).isProposalReceived = false := by
      simp [isProposalReceived, taken, emit, hprop1]
    rw [← hview1, proposeDeferred, Upholds, wp_bind, wp_updateViewStep]
    simp only [wp_bind, wp_self, hnot, Bool.false_eq_true, if_false, wp_pure]
    refine ⟨_, h1.taken (hstep1 ▸ hstep.le), ⟨fun hsome => ?_, fun hle => ?_⟩, ?_, ?_, ?_⟩
    · simp [taken, emit, hprop1] at hsome
    · exact absurd hle (show ¬ prevote ≤ .propose by decide)
    · simp [hfresh.prevoted]
    · simp [hfresh.precommitted]
    · simp [hfresh.handled]
  simp only [enterPropose, wp_bind, wp_self, wp_ite, wp_deferred, proposeBody, wp_pure]
  refine ⟨fun hguard => ?_, fun _ => ⟨fun _ => hdefer s h hprop rfl rfl, fun _ =>
    ⟨fun _ => hdefer s h hprop rfl rfl, fun _ => ?_⟩⟩⟩
  · rcases hguard with hlt | ⟨_, hle⟩
    · exact absurd hlt (by simp)
    · exact absurd hle (not_le.mpr hstep)
  · exact hdefer _ (h.emit_quiet (.internal _ _ _)) hprop rfl rfl

end

/-- Before the PREVOTE step no proposal is there. -/
theorem Settled.unproposed (h : Settled s r) (hstep : s.step < .prevote) : s.proposal = none := by
  cases hp : s.proposal with
  | none => rfl
  | some p => exact absurd (h.proposed.mp (by rw [hp]; rfl)) (not_le.mpr hstep)

/-- **`enterNewView`**, for the view of the instance. -/
theorem enterNewView_spec (h : Inv C stored strict s) :
    Upholds C stored strict (enterNewView C w s.view) s := by
  obtain ⟨r, hm, hs⟩ := h
  simp only [enterNewView, wp_bind, wp_self, wp_ite, wp_pure]
  refine ⟨fun _ => ⟨r, hm, hs⟩, fun hguard => ?_⟩
  have hstep : s.step = .newHeight := by
    by_contra hne
    exact hguard (.inr ⟨trivial, hne⟩)
  have hlt : s.step < .prevote := by rw [hstep]; decide
  have hprop := hs.unproposed hlt
  have hts : s.proposalTS = none := (hprop ▸ hm.proposal).of_none.1
  have hnewView : Mirrors C stored strict (s.taken .newView) { r with step := .newView } :=
    hm.taken (by rw [hstep]; decide)
  have hfresh : Fresh { r with step := .newView } := by
    have := hs.fresh hlt
    exact ⟨this.prevoted, this.precommitted, this.handled⟩
  -- there is no proposal to clear
  have hclear : (s.taken .newView).withProposal none none = s.taken .newView := by
    simp [withProposal, taken, emit, hprop, hts]
  have hpropose := enterPropose_spec (w := w) hnewView hfresh hprop
    (show newView < .propose by decide)
  rw [wp_updateViewStep]
  simp only [wp_assign, hclear]
  exact ⟨fun _ => hpropose, fun _ => hpropose⟩

/-- What a round is about. -/
def roundPart (s : KBFT) :=
  (s.history, s.isTSStored, s.step, s.proposal, s.proposalTS, s.scheduled, s.view)

section

variable (h : Mirrors C stored strict s r)
include h

/-- A proposal accepted. -/
theorem Mirrors.accept (hprop : s.proposal = none) (hts : p.tesseract = some ts) :
    Mirrors C stored strict ((s.withProposal (some p) (some ts)).emit (.accept p))
      { r with accepted := some p } :=
  { h with
    orderly := .snoc h.orderly _ (next_accept (hprop ▸ h.proposal).of_none.2)
    proposal := .present hts hts rfl }

/-- Votes, evidence and the cluster state are not part of a round. -/
theorem Mirrors.congr (hpart : s'.roundPart = s.roundPart) : Mirrors C stored strict s' r := by
  simp only [roundPart, Prod.mk.injEq] at hpart
  obtain ⟨hhistory, hstored, hstep, hproposal, hts, hscheduled, hview⟩ := hpart
  refine ⟨hhistory ▸ h.orderly, hstored ▸ h.isTSStored, hstep ▸ h.step, ?_, ?_⟩
  · rw [hproposal, hts]
    exact h.proposal
  · rw [hscheduled, hview]
    exact h.scheduled

/-- **The end of `setProposal`**: the PREVOTE step follows at once. -/
theorem announceProposal_spec (hfresh : Fresh r) (hstep : s.step < .prevote)
    (hprop : s.proposal = some p) (hts : s.proposalTS = some ts) :
    Upholds C stored strict (announceProposal C w p) s := by
  have hready : s.step ≤ .propose ∧ s.isProposalReceived = true := by
    refine ⟨?_, by simp [isProposalReceived, hprop, hts]⟩
    revert hstep
    cases s.step <;> decide
  simp only [announceProposal, wp_bind, wp_self, wp_ite, wp_pure, effect, wp_assign]
  have hsome : s.proposal.isSome = true := by rw [hprop]; rfl
  refine ⟨fun _ => ⟨fun _ => ?_, fun hnot => absurd hready hnot⟩,
    fun _ => ⟨fun _ => ?_, fun hnot => absurd hready hnot⟩⟩
  · exact enterPrevote_spec (h.emit_quiet (.external s.id [] (some p))) hfresh hsome hstep
  · exact enterPrevote_spec h hfresh hsome hstep

/-- **The acceptance of a proposal.** -/
theorem acceptProposal_spec (hfresh : Fresh r) (hprop : s.proposal = none)
    (hstep : s.step < .prevote) (p : Proposal) :
    Upholds C stored strict (acceptProposal C w p) s := by
  simp only [acceptProposal, wp_bind, wp_assign, effect]
  refine wp_ofGo.mpr ⟨fun ts hts => ?_, fun reason hnil => ?_⟩
  · have hts' := Go.deref_eq_ok.mp hts
    rw [hts']
    have hacc := h.accept hprop hts'
    refine wp_ofGo.mpr ⟨fun hash _ => ?_, fun _ _ => hacc.inOrder⟩
    have hset : Mirrors C stored strict
        (((s.withProposal (some p) (some ts)).emit (.accept p)).setTSHash hash) _ := hacc.congr rfl
    exact announceProposal_spec hset ⟨hfresh.prevoted, hfresh.precommitted, hfresh.handled⟩ hstep
      rfl rfl
  · -- a panic right after the acceptance
    exact ⟨_, .snoc h.orderly _ (next_accept (hprop ▸ h.proposal).of_none.2)⟩

end

/-- **`setProposal`.** -/
theorem setProposal_spec (h : Inv C stored strict s) (p : Option Proposal) :
    Upholds C stored strict (setProposal C w p) s := by
  obtain ⟨r, hm, hs⟩ := h
  have hinv : Inv C stored strict s := ⟨r, hm, hs⟩
  simp only [setProposal, validHeights, wp_bind, wp_self, wp_ite, wp_pure]
  refine ⟨fun _ => hinv, fun hnone => wp_ofGo.mpr ⟨fun p _ => ?_, fun _ _ => hm.inOrder⟩⟩
  have hprop : s.proposal = none := by simpa using hnone
  have hstep : s.step < .prevote := by
    rw [← not_le]
    exact fun hle => hnone (hs.proposed.mpr hle)
  have haccept := acceptProposal_spec (w := w) hm (hs.fresh hstep) hprop hstep p
  -- with equal heights, or heights that are not compared
  have hview : wp (ofGo (Go.deref p.prepareQc)) (fun info s₁ =>
      (info.view ≠ s.view → Inv C stored strict s₁) ∧
        (¬ info.view ≠ s.view → wp (acceptProposal C w p) (fun _ => Inv C stored strict)
          (InOrder C stored strict) s₁)) (InOrder C stored strict) s :=
    wp_ofGo.mpr ⟨fun info _ => ⟨fun _ => hinv, fun _ => haccept⟩, fun _ _ => hm.inOrder⟩
  refine ⟨fun _ => ⟨fun _ => hinv, fun _ => hview⟩, fun _ => ?_⟩
  exact wp_ofGo.mpr ⟨fun ts _ => ⟨fun _ => hinv, fun _ => hview⟩, fun _ _ => hm.inOrder⟩

/-! ## 5. The PRECOMMIT step -/

/-- A certificate of a recorded majority can be read. -/
theorem getQC_of_majority {hvs : HeightVoteSet} {t : ConsensusMsgType} {vs : VoteSet}
    (hvs' : hvs.getVoteSet t = some vs) (hmaj : vs.maj23TsHash = some h) (view : UInt64) :
    hvs.getQC h view t = .ok (.ok ⟨t, view, h, vs.votesBitArray, vs.maj23aggSignature⟩) := by
  simp only [HeightVoteSet.getQC, hvs', Go.deref, getQC, hmaj, bind, Except.bind, ne_eq,
    not_true_eq_false, if_false]
  rfl

theorem compareHash_true (hc : compareHash C t h = .ok true) :
    ∃ ts, t = some ts ∧ ts.hash C = .ok h := by
  rcases t with _ | ts
  · cases hc
  unfold compareHash at hc
  rw [Go.bind_eq_ok] at hc
  obtain ⟨h', hh', heq⟩ := hc
  cases heq' : decide (h' = h) with
  | false =>
    rw [heq'] at heq
    cases heq
  | true => exact ⟨ts, rfl, of_decide_eq_true heq' ▸ hh'⟩

/-- Before the deferred part of `enterPreCommit`. -/
def PreCommitting (C : Codec) (stored strict : Bool) (view : UInt64) (s : KBFT) : Prop :=
  ∃ r, Mirrors C stored strict s r ∧ r.handled = false ∧ s.proposal.isSome = true ∧
    s.step ≤ .precommit ∧ s.view = view

theorem PreCommitting.settle {view : UInt64} (h : PreCommitting C stored strict view s) :
    Upholds C stored strict (updateViewStep view .precommit) s := by
  obtain ⟨r, hm, hhan, hprop, hstep, rfl⟩ := h
  refine ⟨_, hm.taken hstep, ⟨fun _ => show prevote ≤ .precommit by decide,
    fun _ => hprop⟩, fun _ => show prevote ≤ .precommit by decide, fun _ => le_rfl,
    fun hb => ?_⟩
  rw [hhan] at hb
  cases hb

theorem Inv.inOrder (h : Inv C stored strict s) : InOrder C stored strict s :=
  h.elim fun _ hr => hr.1.inOrder

section

variable (h : Mirrors C stored strict s r) (hpre : r.precommitted = false)
  (hhan : r.handled = false) (hprop : s.proposal.isSome = true) (hstep : s.step ≤ .precommit)
include h hpre hhan hprop hstep

/-- The one PRECOMMIT is in order for the accepted hash, with its PREVOTE majority and its
    record. -/
theorem sendPrecommit_spec (hts : s.proposalTS = some ts) (hhash : ts.hash C = .ok tsHash)
    (hmaj : s.votes.prevotes.maj23TsHash = some tsHash)
    (hstored : stored = false → r.stored = some tsHash) {internal : Bool} :
    leaves (sendVote C w PRECOMMIT tsHash internal) (PreCommitting C stored strict s.view) s := by
  have hkeep : PreCommitting C stored strict s.view s := ⟨r, h, hhan, hprop, hstep, rfl⟩
  refine wp_sendVote hkeep hkeep fun v e ht hv hqc he => ?_
  have hallow : Round.AllowsVote C stored r (s.entry e) v := by
    refine ⟨.inr ht, hv ▸ h.accepted hts hhash, fun hprevote => ?_, fun _ =>
      ⟨hpre, ?_, fun hs => by rw [hstored hs, hv]⟩⟩
    · exact absurd (ht.symm.trans hprevote) (by decide)
    · rw [hv]
      exact hmaj
  exact ⟨_, h.emit (next_vote he hqc hallow) rfl rfl, hhan, hprop, hstep, rfl⟩

/-- **The end of `enterPreCommit`**: the certificate is stored first, and only then the vote
    sent. -/
theorem preCommitVote_spec (hmaj : s.votes.prevotes.maj23TsHash = some tsHash) :
    leaves (preCommitVote C w tsHash) (PreCommitting C stored strict s.view) s := by
  have hkeep : PreCommitting C stored strict s.view s := ⟨r, h, hhan, hprop, hstep, rfl⟩
  simp only [preCommitVote, wp_bind, wp_self]
  refine wp_ofGo.mpr ⟨fun same hsame => ?_, fun _ _ => hkeep⟩
  simp only [wp_ite, wp_pure]
  refine ⟨fun _ => hkeep, fun hsame' => ?_⟩
  obtain ⟨ts, hts, hhash⟩ : ∃ ts, s.proposalTS = some ts ∧ ts.hash C = .ok tsHash := by
    refine compareHash_true ?_
    rw [hsame]
    simpa using hsame'
  rw [wp_bind, getQC_of_majority (show s.votes.getVoteSet PREVOTE = some s.votes.prevotes from rfl)
    hmaj]
  refine wp_ofGo.mpr ⟨fun qc hqc => ?_, by simp⟩
  cases hqc
  simp only [wp_bind, wp_ite, wp_pure]
  refine ⟨fun hs => ⟨fun hsome => absurd hsome (by simp), fun _ => ?_⟩, fun _ => ?_⟩
  · refine sendPrecommit_spec h hpre hhan hprop hstep hts hhash hmaj fun hstored => ?_
    rw [h.isTSStored, hstored] at hs
    cases hs
  refine wp_storeSafetyInfo (fun p err _ _ => ?_) (fun _ _ _ _ => hkeep) fun _ => hkeep
  cases err with
  | some err =>
    refine ⟨fun _ => ?_, fun hnone => absurd rfl hnone⟩
    exact ⟨r, h.emit next_safety_failed rfl rfl, hhan, hprop, hstep, rfl⟩
  | none =>
    refine ⟨fun hsome => absurd hsome (by simp), fun _ => ?_⟩
    exact sendPrecommit_spec (h.emit (next_stored rfl) rfl rfl) hpre hhan hprop hstep hts
      hhash hmaj fun _ => rfl

end

/-- **`enterPreCommit`**, in the view of the instance. -/
theorem enterPreCommit_spec (h : Inv C stored strict s) (hstep : .prevote ≤ s.step) :
    Upholds C stored strict (enterPreCommit C w s.view) s := by
  obtain ⟨r, hm, hs⟩ := h
  simp only [enterPreCommit, wp_bind, wp_self, wp_ite, wp_pure, wp_deferred]
  refine ⟨fun _ => ⟨r, hm, hs⟩, fun hlt => ?_⟩
  rw [not_le] at hlt
  have hprop := hs.proposed.mpr hstep
  have hpre := not_done hs.precommitted hlt
  have hhan := not_done hs.handled (hlt.trans (by decide))
  have hkeep : PreCommitting C stored strict s.view s := ⟨r, hm, hhan, hprop, hlt.le, rfl⟩
  have hbody : leaves (preCommitBody C w) (PreCommitting C stored strict s.view) s := by
    simp only [preCommitBody, wp_bind, wp_self]
    rcases hmaj : s.votes.prevotes.maj23TsHash with _ | _
    · simp only [superMajority, hmaj]
      exact hkeep
    simp only [superMajority, hmaj, wp_bind, wp_ite]
    have hvote := preCommitVote_spec (w := w) hm hpre hhan hprop hlt.le hmaj
    refine ⟨fun _ => wp_sendQc hvote fun e he => ?_, fun _ => hvote⟩
    exact preCommitVote_spec (hm.emit_quiet he) hpre hhan hprop hlt.le hmaj
  refine wp_mono hbody (fun _ s₁ h1 => h1.settle) fun s₁ h1 => ?_
  exact wp_post h1.settle fun _ _ hi => hi.inOrder

/-! ## 6. The commit step -/

/-- The tesseract held has other commit information or another seal. -/
def Resealed (s s₁ : KBFT) : Prop :=
  ∃ f : Tesseract → Tesseract, (∀ ts, (f ts).toTesseractBody = ts.toTesseractBody) ∧
    s₁ = s.modifyTesseract f

theorem Resealed.refl (s : KBFT) : Resealed s s := by
  refine ⟨fun ts => ts, fun _ => rfl, ?_⟩
  simp [modifyTesseract]

theorem Resealed.modify (h : Resealed s s₁) {g : Tesseract → Tesseract}
    (hg : ∀ ts, (g ts).toTesseractBody = ts.toTesseractBody) :
    Resealed s (s₁.modifyTesseract g) := by
  obtain ⟨f, hf, rfl⟩ := h
  refine ⟨g ∘ f, fun ts => (hg _).trans (hf ts), ?_⟩
  simp [modifyTesseract, Function.comp_def]

theorem Mirrors.resealed (h : Mirrors C stored strict s r) (hs : Resealed s s₁) :
    Mirrors C stored strict s₁ r := by
  obtain ⟨f, hf, rfl⟩ := hs
  refine ⟨h.orderly, h.isTSStored, h.step, ?_, h.scheduled⟩
  have hheld := h.proposal
  simp only [modifyTesseract]
  revert hheld
  generalize s.proposal = p, s.proposalTS = t, r.accepted = q
  rintro (_ | ⟨hts, hts0, hbody⟩)
  · exact .absent
  · exact .present (by simp [hts]) hts0 ((hf _).trans hbody)

/-- `updateConsensusInfoInTesseracts` changes commit information and seal at most. -/
theorem updateConsensusInfoInTesseracts_spec (bits : Option ArrayOfBits) (signature : Bytes) :
    leaves (updateConsensusInfoInTesseracts C w bits signature) (Resealed s) s := by
  have hrefl := Resealed.refl s
  simp only [updateConsensusInfoInTesseracts, wp_bind, wp_self]
  refine wp_ofGo.mpr ⟨fun err _ => ?_, fun _ _ => hrefl⟩
  rcases err with _ | e
  swap
  · exact hrefl
  simp only [wp_bind]
  refine wp_ofGo.mpr ⟨fun p _ => wp_ofGo.mpr ⟨fun ts _ => wp_ofGo.mpr ⟨fun h _ =>
    wp_ofGo.mpr ⟨fun info _ => ?_, fun _ _ => hrefl⟩, fun _ _ => hrefl⟩, fun _ _ => hrefl⟩,
    fun _ _ => hrefl⟩
  have hqc : Resealed s (s.modifyTesseract fun ts => { ts with
      commitInfo := some { info with qc := some ⟨PRECOMMIT, s.view, h, bits, signature⟩ } }) :=
    hrefl.modify fun _ => rfl
  rcases ts.signBytes C with e | _
  · exact hqc
  simp only [wp_ite, wp_bind]
  refine ⟨fun _ => hqc, fun _ => wp_ofGo.mpr ⟨fun sign _ => ?_, fun _ _ => hqc⟩⟩
  cases sign with
  | error e => exact hqc
  | ok sealBytes => exact hqc.modify fun _ => rfl

/-- At the commit step nothing more is asked of the acts done. -/
theorem Mirrors.settle_commit (h : Mirrors C stored strict s r) (hprop : s.proposal.isSome = true)
    (hstep : s.step = .commit) : Inv C stored strict s := by
  refine ⟨r, h, ⟨fun _ => ?_, fun _ => hprop⟩, fun _ => ?_, fun _ => ?_, fun _ => ?_⟩ <;>
    rw [hstep] <;> decide

/-- **`finalizeCommit`** hands on the accepted tesseract, under its PRECOMMIT majority. -/
theorem finalizeCommit_spec (h : Mirrors C stored strict s r) (hhan : r.handled = false)
    (hprop : s.proposal.isSome = true) (hstep : s.step = .commit) (hcommitted : strict = true →
      ∀ tsHash, s.votes.precommits.maj23TsHash = some tsHash → r.committed = some tsHash) :
    Upholds C stored strict (finalizeCommit C w) s := by
  have hkeep := h.settle_commit hprop hstep
  obtain ⟨p, hp⟩ := Option.isSome_iff_exists.mp hprop
  simp only [finalizeCommit, wp_bind, wp_self]
  rcases hmaj : s.votes.precommits.maj23TsHash with _ | tsHash
  · simpa [superMajority, hmaj] using hkeep
  simp only [superMajority, hmaj, wp_ite, wp_pure, wp_bind, hp]
  refine ⟨fun _ => hkeep, fun _ => wp_ofGo.mpr ⟨fun same hsame => ⟨fun _ => hkeep,
    fun hsame' => ⟨fun _ => hkeep, fun _ => ?_⟩⟩, fun _ _ => h.inOrder⟩⟩
  obtain ⟨ts0, hts0, hhash⟩ : ∃ ts, p.tesseract = some ts ∧ ts.hash C = .ok tsHash := by
    refine compareHash_true ?_
    rw [hsame]
    simpa using hsame'
  refine wp_mono (updateConsensusInfoInTesseracts_spec _ _) (fun err s₁ hs1 => ?_)
    fun s₁ hs1 => (h.resealed hs1).inOrder
  have h1 := h.resealed hs1
  obtain ⟨f, hf, rfl⟩ := hs1
  have hprop1 : (s.modifyTesseract f).proposal.isSome = true := by
    simp [modifyTesseract, hp]
  rcases err with _ | e
  swap
  · exact (h1.emit_quiet (.close _)).settle_commit hprop1 hstep
  -- the tesseract that is handed on is the one held, with its seal
  have hts1 : (s.modifyTesseract f).proposalTS = some (f ts0) := by
    obtain ⟨ts, hts, hpts⟩ := (hp ▸ h.proposal).of_some
    rw [hts0] at hpts
    cases hpts
    simp [modifyTesseract, hts]
  have hallow : Round.AllowsHandler C strict r
      ((s.modifyTesseract f).entry (.handler (f ts0))) (f ts0) := by
    refine ⟨hhan, ?_, tsHash, by rw [Tesseract.hash_body (hf ts0), hhash], hmaj,
      fun hstrict => hcommitted hstrict tsHash hmaj⟩
    obtain ⟨p0, ts2, hacc, hp0, hbody⟩ := (hts1 ▸ h1.proposal).body
    exact ⟨p0, ts2, hacc, hp0, hbody⟩
  have hdone := h1.emit (next_handler hallow) rfl rfl
  simp only [wp_bind, wp_self, hts1, Go.deref, effect, wp_assign]
  refine wp_ofGo.mpr ⟨fun ts hts => ?_, by simp⟩
  cases hts
  refine wp_ofGo.mpr ⟨fun answer _ => ?_, fun _ _ => hdone.inOrder⟩
  cases answer with
  | some e => exact (hdone.emit_quiet (.close (some e))).settle_commit hprop1 hstep
  | none => exact (hdone.emit_quiet (.close none)).settle_commit hprop1 hstep

/-- Before the deferred part of `enterCommit`; in strict runs the PRECOMMIT certificate is
    stored. -/
def Committing (C : Codec) (stored strict : Bool) (s : KBFT) : Prop :=
  ∃ r, Mirrors C stored strict s r ∧ r.handled = false ∧ s.proposal.isSome = true ∧
    (strict = true → stored = false →
      ∀ tsHash, s.votes.precommits.maj23TsHash = some tsHash → r.committed = some tsHash)

/-- No PRECOMMIT certificate fails to be stored for the proposal held. -/
def StoresCommit (w : World) (s : KBFT) : Prop :=
  s.isTSStored = false → ∀ p qc, s.proposal = some p → qc.type = PRECOMMIT →
    w.updateSafetyInfo p qc = .ok none

section

variable (h : Mirrors C stored strict s r) (hhan : r.handled = false)
  (hprop : s.proposal.isSome = true)
include h hhan hprop

/-- The certificate of the majority may be sent out before the deferred part. -/
theorem sendCommitQc_spec (hmaj : s.votes.precommits.maj23TsHash = some tsHash)
    (hcommitted : strict = true → stored = false → r.committed = some tsHash) (leader : Bool) :
    leaves (if leader then sendQc PRECOMMIT tsHash else pure ())
      (Committing C stored strict) s := by
  have hall : strict = true → stored = false → ∀ tsHash',
      s.votes.precommits.maj23TsHash = some tsHash' → r.committed = some tsHash' := by
    intro hstrict hstored tsHash' hmaj'
    rw [hmaj] at hmaj'
    cases hmaj'
    exact hcommitted hstrict hstored
  simp only [wp_ite, wp_pure]
  refine ⟨fun _ => wp_sendQc ⟨r, h, hhan, hprop, hall⟩ fun e he => ?_,
    fun _ => ⟨r, h, hhan, hprop, hall⟩⟩
  exact ⟨r, h.emit_quiet he, hhan, hprop, hall⟩

/-- **The body of `enterCommit`**, on all its exits. -/
theorem commitBody_spec (hok : strict = true → StoresCommit w s) :
    leaves (commitBody w) (Committing C stored strict) s := by
  simp only [commitBody, wp_bind, wp_self]
  rcases hmaj : s.votes.precommits.maj23TsHash with _ | tsHash
  · -- the panic
    simp only [superMajority, hmaj]
    refine wp_ofGo.mpr ⟨(by simp), fun _ _ => ⟨r, h, hhan, hprop, ?_⟩⟩
    intro _ _ tsHash hsome
    rw [hmaj] at hsome
    cases hsome
  simp only [superMajority, hmaj, wp_bind]
  rw [getQC_of_majority (show s.votes.getVoteSet PRECOMMIT = some s.votes.precommits from rfl)
    hmaj]
  refine wp_ofGo.mpr ⟨fun qc hqc => ?_, by simp⟩
  cases hqc
  simp only [wp_bind, wp_ite (c := s.isTSStored = true), wp_pure]
  refine ⟨fun hs => ?_, fun hs => ?_⟩
  · refine sendCommitQc_spec h hhan hprop hmaj (fun _ hstored => ?_) _
    rw [h.isTSStored, hstored] at hs
    cases hs
  have hstores := fun hstrict => hok hstrict (by simpa using hs)
  refine wp_storeSafetyInfo (fun p err hp herr => ?_) (fun p reason hp hr => ?_)
    fun hnone => ?_
  · rcases err with _ | _
    · exact sendCommitQc_spec (h.emit (next_committed rfl) rfl rfl) hhan hprop hmaj
        (fun _ _ => rfl) _
    refine ⟨r, h.emit next_safety_failed rfl rfl, hhan, hprop, fun hstrict => ?_⟩
    rw [hstores hstrict p _ hp rfl] at herr
    cases herr
  · refine ⟨r, h, hhan, hprop, fun hstrict => ?_⟩
    rw [hstores hstrict p _ hp rfl] at hr
    cases hr
  · rw [hnone] at hprop
    cases hprop

end

/-- **What `enterCommit` defers.** -/
theorem commitDeferred_spec (h : Committing C stored strict s) (hstep : s.step ≤ .commit)
    (view : UInt64) : Upholds C stored strict (commitDeferred C w view) s := by
  obtain ⟨r, hm, hhan, hprop, hcommitted⟩ := h
  simp only [commitDeferred, wp_bind, wp_self]
  have hcommit : Mirrors C stored strict ((s.taken .commit).withCommitView view) _ :=
    (hm.taken hstep).congr rfl
  simp only [wp_ite]
  refine ⟨fun _ => (hcommit.emit_quiet (.close none)).settle_commit hprop rfl, fun hs => ?_⟩
  have hstored : stored = false := by
    rw [← hm.isTSStored]
    simpa using hs
  exact finalizeCommit_spec hcommit hhan hprop rfl fun hstrict => hcommitted hstrict hstored

/-- **`enterCommit`.** -/
theorem enterCommit_spec (h : Inv C stored strict s) (hprop : s.proposal.isSome = true)
    (hok : strict = true → StoresCommit w s) (view : UInt64) :
    Upholds C stored strict (enterCommit C w view) s := by
  obtain ⟨r, hm, hs⟩ := h
  simp only [enterCommit, wp_bind, wp_self, wp_ite, wp_pure, wp_deferred]
  refine ⟨fun _ => ⟨r, hm, hs⟩, fun hlt => ?_⟩
  have hhan := not_done hs.handled (not_le.mp hlt)
  have hdefer : ∀ s₁, Committing C stored strict s₁ →
      Upholds C stored strict (commitDeferred C w view) s₁ :=
    fun s₁ h1 => commitDeferred_spec h1 (by cases s₁.step <;> decide) view
  refine wp_mono (commitBody_spec hm hhan hprop hok) (fun _ s₁ h1 => hdefer s₁ h1) fun s₁ h1 => ?_
  exact wp_post (hdefer s₁ h1) fun _ _ hi => hi.inOrder

/-! ## 7. Events -/

section

variable (h : Inv C stored strict s)
include h

theorem Inv.congr (hpart : s'.roundPart = s.roundPart) : Inv C stored strict s' := by
  obtain ⟨r, hm, hs⟩ := h
  refine ⟨r, hm.congr hpart, ?_⟩
  simp only [roundPart, Prod.mk.injEq] at hpart
  obtain ⟨-, -, hstep, hproposal, -⟩ := hpart
  refine ⟨?_, hstep ▸ hs.prevoted, hstep ▸ hs.precommitted, hstep ▸ hs.handled⟩
  rw [hproposal, hstep]
  exact hs.proposed

/-- **A vote that was added** may lead to the next step. -/
theorem voteAdded_spec (hprop : s.proposal.isSome = true) (hok : strict = true → StoresCommit w s)
    {v : Vote} (hview : s.view = v.view) : Upholds C stored strict (voteAdded C w v) s := by
  simp only [voteAdded, wp_bind, wp_self, wp_ite, wp_pure, wp_assign]
  refine ⟨fun _ => ⟨fun hstep => ⟨fun _ => ?_, fun _ => h⟩, fun _ => h⟩, fun _ => ⟨fun _ =>
    ⟨fun _ => ⟨fun _ => enterCommit_spec h hprop hok v.view, fun _ => h⟩, fun _ =>
      ⟨fun _ => ?_, fun _ => h⟩⟩, fun _ => h⟩⟩
  · rw [← hview]
    exact enterPreCommit_spec h hstep.2
  · exact wp_ofGo.mpr ⟨fun _ _ => h.congr rfl, fun _ _ => h.inOrder⟩

/-- **`addVote`.** -/
theorem addVote_spec (hok : strict = true → StoresCommit w s) (v : Option Vote) (peerID : KramaID) :
    Upholds C stored strict (addVote C P w v peerID) s := by
  simp only [addVote, wp_bind, wp_self]
  refine wp_ofGo.mpr ⟨fun v _ => ?_, fun _ _ => h.inOrder⟩
  simp only [wp_ite, wp_pure]
  refine ⟨fun _ => h, fun hview => ?_⟩
  rw [not_not] at hview
  rcases hts : s.proposalTS with _ | _
  · exact h
  have hprop : s.proposal.isSome = true := by
    obtain ⟨r, hm, _⟩ := h
    cases hp : s.proposal with
    | none =>
      have := (hp ▸ hm.proposal).of_none.1
      rw [hts] at this
      cases this
    | some p => rfl
  simp only [wp_bind, wp_ite, wp_pure, wp_assign]
  refine wp_ofGo.mpr ⟨fun hash _ => ⟨fun _ => h, fun _ => ⟨fun _ => h, fun _ => ?_⟩⟩,
    fun _ _ => h.inOrder⟩
  refine wp_ofGo.mpr ⟨fun result _ => ?_, fun _ _ => h.inOrder⟩
  obtain ⟨cs, votes, _, _⟩ := result
  -- the votes change; step, proposal and history stay
  have hvotes : Inv C stored strict (s.withVotes cs votes) := h.congr rfl
  refine ⟨fun _ => hvotes.congr rfl, fun _ => ⟨fun _ => hvotes,
    fun _ => voteAdded_spec hvotes hprop hok hview⟩⟩

/-- **An event leaves the invariant**, and a history in order if its handler panics. -/
theorem handle_spec (hok : strict = true → StoresCommit w s) {e : Event}
    (htimeout : ∀ ti, e = .timeout ti → ti ∈ s.scheduled) :
    Upholds C stored strict (handle C P w e) s := by
  cases e with
  | message msg =>
    simp only [handle, handleMsg]
    cases msg.payload with
    | proposal p => simpa only [wp_bind, wp_pure] using setProposal_spec h p
    | vote v => simpa only [wp_bind, wp_pure] using addVote_spec h hok v msg.peerID
    | other => exact h
  | timeout ti =>
    have hview : ti.view = s.view := by
      obtain ⟨r, hm, _⟩ := h
      exact hm.scheduled ti (htimeout ti rfl)
    simp only [handle, handleTimeout, wp_bind, wp_self, wp_ite, wp_pure, hview]
    exact ⟨fun _ => h, fun _ => ⟨fun _ => enterNewView_spec h, fun _ => h⟩⟩

end

end KBFT

end GoMoi
