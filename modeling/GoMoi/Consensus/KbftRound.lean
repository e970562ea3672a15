/-
  File:      GoMoi/Consensus/KbftRound.lean
  Subject:   What one instance of the agreement protocol may do, in which order.

  A round is an abstract record of an instance: the step it has reached, the proposal it has
  accepted, and which of its few irrevocable acts are done. `Allows` says when an entry of a history
  is in order; nothing here knows how the handlers are written.

  * **`Orderly.votesOnce`** -- steps never decrease, one PREVOTE and one PRECOMMIT at most, both for
    the one accepted proposal, the second not before its majority and its safety record;
  * **`Orderly.handledOnce`** -- the tesseract handler is called once at most, with the accepted
    tesseract and after its PRECOMMIT majority, and in strict histories after its safety record.
-/
import GoMoi.Consensus.Kbft

namespace GoMoi

/-! ## 1. Reading a history -/

namespace Entry

/-- The vote that is sent; certificates are not votes. -/
def sentVote (e : Entry) : Option Vote :=
  match e.effect with
  | .sendInternal ⟨_, _, .vote (some v)⟩ => if v.isQC then none else some v
  | .sendExternal ⟨_, _, .vote (some v)⟩ => if v.isQC then none else some v
  | _ => none

/-- A vote of this type is sent. -/
def sends (t : ConsensusMsgType) (e : Entry) : Bool := e.sentVote.any (·.type = t)

theorem sends_iff {t : ConsensusMsgType} {e : Entry} :
    e.sends t = true ↔ ∃ v, e.sentVote = some v ∧ v.type = t := by
  cases h : e.sentVote <;> simp [sends, h]

/-- The step that is taken. -/
def stepTaken (e : Entry) : Option ViewStepType :=
  match e.effect with
  | .step _ n => some n
  | _ => none

/-- The proposal that is accepted. -/
def accepted (e : Entry) : Option Proposal :=
  match e.effect with
  | .accept p => some p
  | _ => none

/-- The tesseract that is handed on. -/
def handled (e : Entry) : Option Tesseract :=
  match e.effect with
  | .handler ts => some ts
  | _ => none

/-- The hash of the certificate of this type that is stored, without an error. -/
def stored (t : ConsensusMsgType) (e : Entry) : Option Hash :=
  match e.effect with
  | .safety _ qc none => if qc.type = t then some qc.tsHash else none
  | _ => none

end Entry

/-! ## 2. Rounds -/

/-- What has been done. -/
structure Round where
  step : ViewStepType
  accepted : Option Proposal
  prevoted : Bool
  precommitted : Bool
  handled : Bool
  /-- the hash of the PREVOTE certificate stored last -/
  stored : Option Hash
  /-- the hash of the PRECOMMIT certificate stored last -/
  committed : Option Hash

namespace Round

def start : Round := ⟨.newHeight, none, false, false, false, none, none⟩

/-- The hash of the accepted tesseract. -/
def Accepted (C : Codec) (r : Round) (h : Hash) : Prop :=
  ∃ p ts, r.accepted = some p ∧ p.tesseract = some ts ∧ ts.hash C = .ok h

/-- The round after an entry. -/
def after (r : Round) (e : Entry) : Round where
  step := e.stepTaken.getD r.step
  accepted := e.accepted.or r.accepted
  prevoted := r.prevoted || e.sends PREVOTE
  precommitted := r.precommitted || e.sends PRECOMMIT
  handled := r.handled || e.handled.isSome
  stored := (e.stored PREVOTE).or r.stored
  committed := (e.stored PRECOMMIT).or r.committed

/-- When a vote is in order. -/
structure AllowsVote (C : Codec) (isTSStored : Bool) (r : Round) (e : Entry) (v : Vote) : Prop where
  type : v.type = PREVOTE ∨ v.type = PRECOMMIT
  accepted : r.Accepted C v.tsHash
  prevote : v.type = PREVOTE → r.prevoted = false
  precommit : v.type = PRECOMMIT → r.precommitted = false ∧ e.prevoteMajority = some v.tsHash ∧
    (isTSStored = false → r.stored = some v.tsHash)

/-- When the tesseract may be handed on. -/
structure AllowsHandler (C : Codec) (strict : Bool) (r : Round) (e : Entry) (ts : Tesseract) :
    Prop where
  first : r.handled = false
  accepted : ∃ p ts₀, r.accepted = some p ∧ p.tesseract = some ts₀ ∧
    ts.toTesseractBody = ts₀.toTesseractBody
  majority : ∃ h, ts.hash C = .ok h ∧ e.precommitMajority = some h ∧
    (strict = true → r.committed = some h)

/-- When an entry is in order. -/
structure Allows (C : Codec) (isTSStored strict : Bool) (r : Round) (e : Entry) : Prop where
  step : ∀ n, e.stepTaken = some n → r.step ≤ n
  accept : ∀ p, e.accepted = some p → r.accepted = none
  vote : ∀ v, e.sentVote = some v → AllowsVote C isTSStored r e v
  handler : ∀ ts, e.handled = some ts → AllowsHandler C strict r e ts

/-- One entry in order. -/
def Next (C : Codec) (isTSStored strict : Bool) : Round → Entry → Round → Prop :=
  Guarded (Allows C isTSStored strict) fun r e r' => r' = r.after e

/-! ## 3. The effects one by one -/

/-- The effects that no rule is about. -/
inductive Quiet : Effect → Prop where
  | close (err : Option Err) : Quiet (.close err)
  | internal (peerID recipient : KramaID) (p : Option Proposal) :
      Quiet (.sendInternal ⟨peerID, recipient, .proposal p⟩)
  | external (peerID recipient : KramaID) (p : Option Proposal) :
      Quiet (.sendExternal ⟨peerID, recipient, .proposal p⟩)
  | qc (peerID recipient : KramaID) {v : Vote} (hv : v.isQC = true) :
      Quiet (.sendExternal ⟨peerID, recipient, .vote (some v)⟩)

/-- The effects that send a vote. -/
inductive Sends (v : Vote) : Effect → Prop where
  | internal (peerID recipient : KramaID) :
    Sends v (.sendInternal ⟨peerID, recipient, .vote (some v)⟩)
  | external (peerID recipient : KramaID) :
    Sends v (.sendExternal ⟨peerID, recipient, .vote (some v)⟩)

variable {C : Codec} {isTSStored strict : Bool} {r : Round} {maj maj' : Option Hash}

/-- An entry that is no step, acceptance, vote or call is in order, and may record a certificate. -/
theorem next_inert {e : Entry} {r' : Round} (hstep : e.stepTaken = none) (hacc : e.accepted = none)
    (hvote : e.sentVote = none) (hhan : e.handled = none)
    (hr : r' = { r with stored := (r.after e).stored, committed := (r.after e).committed }) :
    Next C isTSStored strict r e r' := by
  refine ⟨⟨by simp [hstep], by simp [hacc], by simp [hvote], by simp [hhan]⟩, ?_⟩
  rw [hr]
  simp [after, Entry.sends, hstep, hacc, hvote, hhan]

variable {e : Effect} {p : Proposal} {qc : Qc}

theorem next_quiet (h : Quiet e) : Next C isTSStored strict r ⟨e, maj, maj'⟩ r := by
  cases h with
  | qc peerID recipient hv => exact next_inert rfl rfl (by simp [Entry.sentVote, hv]) rfl rfl
  | _ => exact next_inert rfl rfl rfl rfl rfl

theorem next_step {view : UInt64} {n : ViewStepType} (h : r.step ≤ n) :
    Next C isTSStored strict r ⟨.step view n, maj, maj'⟩ { r with step := n } := by
  refine ⟨⟨by simp [Entry.stepTaken, h], by simp [Entry.accepted], by simp [Entry.sentVote],
    by simp [Entry.handled]⟩, ?_⟩
  simp [after, Entry.stepTaken, Entry.accepted, Entry.sends, Entry.sentVote, Entry.handled,
    Entry.stored]

theorem next_accept (h : r.accepted = none) :
    Next C isTSStored strict r ⟨.accept p, maj, maj'⟩ { r with accepted := some p } := by
  refine ⟨⟨by simp [Entry.stepTaken], fun _ _ => h, by simp [Entry.sentVote],
    by simp [Entry.handled]⟩, ?_⟩
  simp [after, Entry.stepTaken, Entry.accepted, Entry.sends, Entry.sentVote, Entry.handled,
    Entry.stored]

/-- A failed write leaves the round as it is. -/
theorem next_safety_failed {err : Err} :
    Next C isTSStored strict r ⟨.safety p qc (some err), maj, maj'⟩ r :=
  next_inert rfl rfl rfl rfl rfl

theorem next_stored (ht : qc.type = PREVOTE) :
    Next C isTSStored strict r ⟨.safety p qc none, maj, maj'⟩
      { r with stored := some qc.tsHash } := by
  have hne : PREVOTE ≠ PRECOMMIT := by decide
  refine next_inert rfl rfl rfl rfl ?_
  simp [after, Entry.stored, ht, hne]

theorem next_committed (ht : qc.type = PRECOMMIT) :
    Next C isTSStored strict r ⟨.safety p qc none, maj, maj'⟩
      { r with committed := some qc.tsHash } := by
  have hne : PRECOMMIT ≠ PREVOTE := by decide
  refine next_inert rfl rfl rfl rfl ?_
  simp [after, Entry.stored, ht, hne]

theorem next_vote {v : Vote} (he : Sends v e) (hqc : v.isQC = false)
    (ha : AllowsVote C isTSStored r ⟨e, maj, maj'⟩ v) :
    Next C isTSStored strict r ⟨e, maj, maj'⟩
      { r with prevoted := r.prevoted || decide (v.type = PREVOTE)
               precommitted := r.precommitted || decide (v.type = PRECOMMIT) } := by
  have hsent : Entry.sentVote ⟨e, maj, maj'⟩ = some v := by
    cases he <;> simp [Entry.sentVote, hqc]
  refine ⟨⟨?_, ?_, fun v' hv' => ?_, ?_⟩, ?_⟩
  · cases he <;> simp [Entry.stepTaken]
  · cases he <;> simp [Entry.accepted]
  · rw [hsent] at hv'
    cases hv'
    exact ha
  · cases he <;> simp [Entry.handled]
  · cases he <;>
      simp [after, Entry.stepTaken, Entry.accepted, Entry.sends, Entry.sentVote, Entry.handled,
        Entry.stored, hqc]

theorem next_handler {ts : Tesseract} (ha : AllowsHandler C strict r ⟨.handler ts, maj, maj'⟩ ts) :
    Next C isTSStored strict r ⟨.handler ts, maj, maj'⟩ { r with handled := true } := by
  refine ⟨⟨by simp [Entry.stepTaken], by simp [Entry.accepted], by simp [Entry.sentVote],
    fun ts' hts' => ?_⟩, ?_⟩
  · cases hts'
    exact ha
  · simp [after, Entry.stepTaken, Entry.accepted, Entry.sends, Entry.sentVote, Entry.handled,
      Entry.stored]

end Round

open Round

/-! ## 4. Orderly histories -/

/-- The history leads to this round, entry by entry in order. -/
def Orderly (C : Codec) (isTSStored strict : Bool) (history : List Entry) (r : Round) : Prop :=
  Run (Round.Next C isTSStored strict) start history r

namespace Orderly

variable {C : Codec} {isTSStored strict : Bool} {history : List Entry} {r : Round}

/-- What a round keeps of its history. -/
structure Reflects (history : List Entry) (r : Round) : Prop where
  steps : (history.filterMap Entry.stepTaken).Pairwise (· ≤ ·)
  step : ∀ n ∈ history.filterMap Entry.stepTaken, n ≤ r.step
  accepted : history.filterMap Entry.accepted = r.accepted.toList
  prevotes : (history.filter (Entry.sends PREVOTE)).length = r.prevoted.toNat
  precommits : (history.filter (Entry.sends PRECOMMIT)).length = r.precommitted.toNat
  handled : (history.filterMap Entry.handled).length = r.handled.toNat
  stored : ∀ h, r.stored = some h → ∃ e ∈ history, e.stored PREVOTE = some h
  committed : ∀ h, r.committed = some h → ∃ e ∈ history, e.stored PRECOMMIT = some h

variable {e : Entry}

/-- The hash stored last is that of the new entry or the one before. -/
theorem snoc_stored {t : ConsensusMsgType} {last : Option Hash}
    (hlast : ∀ h, last = some h → ∃ e ∈ history, e.stored t = some h) {h : Hash}
    (hh : (e.stored t).or last = some h) : ∃ e' ∈ history ++ [e], e'.stored t = some h := by
  rcases Option.or_eq_some_iff.mp hh with hnew | ⟨_, hold⟩
  · exact ⟨e, by simp, hnew⟩
  · obtain ⟨e', he', hs⟩ := hlast h hold
    exact ⟨e', List.mem_append_left _ he', hs⟩

theorem reflects_step (h : Reflects history r) (ha : r.Allows C isTSStored strict e) :
    Reflects (history ++ [e]) (r.after e) where
  steps := by
    rw [List.filterMap_append, List.pairwise_append]
    refine ⟨h.steps, ?_, fun n hn m hm => ?_⟩
    · cases hs : e.stepTaken <;> simp [hs]
    obtain ⟨e', he', htaken⟩ := List.mem_filterMap.mp hm
    rw [List.mem_singleton] at he'
    subst he'
    exact (h.step n hn).trans (ha.step m htaken)
  step n hn := by
    rw [List.filterMap_append, List.mem_append] at hn
    rcases hn with hn | hn
    · refine (h.step n hn).trans ?_
      cases hs : e.stepTaken with
      | none => simp [after, hs]
      | some m => simpa [after, hs] using ha.step m hs
    obtain ⟨_, he', htaken⟩ := List.mem_filterMap.mp hn
    rw [List.mem_singleton] at he'
    subst he'
    simp [after, htaken]
  accepted := by
    rw [List.filterMap_append, h.accepted]
    cases hp : e.accepted with
    | none => simp [after, hp]
    | some p => simp [after, hp, ha.accept p hp]
  prevotes := by
    rw [List.filter_append, List.length_append, h.prevotes]
    rcases hs : e.sends PREVOTE with _ | _
    · simp [after, hs]
    obtain ⟨v, hv, ht⟩ := Entry.sends_iff.mp hs
    simp [after, hs, (ha.vote v hv).prevote ht]
  precommits := by
    rw [List.filter_append, List.length_append, h.precommits]
    rcases hs : e.sends PRECOMMIT with _ | _
    · simp [after, hs]
    obtain ⟨v, hv, ht⟩ := Entry.sends_iff.mp hs
    simp [after, hs, ((ha.vote v hv).precommit ht).1]
  handled := by
    rw [List.filterMap_append, List.length_append, h.handled]
    cases hs : e.handled with
    | none => simp [after, hs]
    | some ts => simp [after, hs, (ha.handler ts hs).first]
  stored _ hh := snoc_stored h.stored hh
  committed _ hh := snoc_stored h.committed hh

theorem reflects (h : Orderly C isTSStored strict history r) : Reflects history r := by
  refine Run.invariant (I := Reflects) ?_ (fun es r e r' hr hs => ?_) h
  · exact ⟨.nil, by simp, rfl, rfl, rfl, rfl, by simp [start], by simp [start]⟩
  · obtain ⟨ha, rfl⟩ := hs
    exact reflects_step hr ha

/-- An entry of the history was in order after those before it. -/
theorem at_entry {l1 l2 : List Entry} (h : Orderly C isTSStored strict (l1 ++ e :: l2) r) :
    ∃ r1 : Round, Reflects l1 r1 ∧ r1.Allows C isTSStored strict e := by
  obtain ⟨r1, _, h1, hs⟩ := Run.split h
  exact ⟨r1, reflects h1, hs.1⟩

end Orderly

/-! ## 5. What follows for the acts -/

/-- The steps and votes of a history. -/
structure VotesOnce (C : Codec) (isTSStored : Bool) (history : List Entry) : Prop where
  step_mono : (history.filterMap Entry.stepTaken).Pairwise (· ≤ ·)
  proposal_once : (history.filterMap Entry.accepted).length ≤ 1
  prevote_once : (history.filter (Entry.sends PREVOTE)).length ≤ 1
  precommit_once : (history.filter (Entry.sends PRECOMMIT)).length ≤ 1
  /-- every vote is a PREVOTE or PRECOMMIT for the proposal accepted before -/
  hash : ∀ l₁ e l₂ v, history = l₁ ++ e :: l₂ → e.sentVote = some v →
    (v.type = PREVOTE ∨ v.type = PRECOMMIT) ∧ ∃ p ts, l₁.filterMap Entry.accepted = [p] ∧
      p.tesseract = some ts ∧ ts.hash C = .ok v.tsHash
  /-- a PRECOMMIT follows the PREVOTE majority for its hash, and the record of it -/
  precommit : ∀ l₁ e l₂ v, history = l₁ ++ e :: l₂ → e.sentVote = some v → v.type = PRECOMMIT →
    e.prevoteMajority = some v.tsHash ∧
      (isTSStored = false → ∃ e' ∈ l₁, e'.stored PREVOTE = some v.tsHash)

/-- The calls of the tesseract handler in a history. -/
structure HandledOnce (C : Codec) (history : List Entry) : Prop where
  once : (history.filterMap Entry.handled).length ≤ 1
  /-- a call hands on the proposal accepted before, after the PRECOMMIT majority for its hash and
      the record of it -/
  handled : ∀ l₁ e l₂ ts, history = l₁ ++ e :: l₂ → e.handled = some ts →
    (∃ p ts₀, l₁.filterMap Entry.accepted = [p] ∧ p.tesseract = some ts₀ ∧
      ts.toTesseractBody = ts₀.toTesseractBody) ∧
    ∃ h, ts.hash C = .ok h ∧ e.precommitMajority = some h ∧
      ∃ e' ∈ l₁, e'.stored PRECOMMIT = some h

namespace Orderly

variable {C : Codec} {isTSStored strict : Bool} {history : List Entry} {r : Round}

theorem votesOnce (h : Orderly C isTSStored strict history r) : VotesOnce C isTSStored history where
  step_mono := h.reflects.steps
  proposal_once := by
    rw [h.reflects.accepted]
    cases r.accepted <;> simp
  prevote_once := h.reflects.prevotes ▸ Bool.toNat_le r.prevoted
  precommit_once := h.reflects.precommits ▸ Bool.toNat_le r.precommitted
  hash l1 e l2 v heq hv := by
    subst heq
    obtain ⟨r1, hr, ha⟩ := h.at_entry
    obtain ⟨p, ts, hp, hts, hhash⟩ := (ha.vote v hv).accepted
    exact ⟨(ha.vote v hv).type, p, ts, by rw [hr.accepted, hp]; rfl, hts, hhash⟩
  precommit l1 e l2 v heq hv ht := by
    subst heq
    obtain ⟨_, hr, ha⟩ := h.at_entry
    obtain ⟨_, hmaj, hstored⟩ := (ha.vote v hv).precommit ht
    exact ⟨hmaj, fun hts => hr.stored _ (hstored hts)⟩

theorem handledOnce (h : Orderly C isTSStored true history r) : HandledOnce C history where
  once := h.reflects.handled ▸ Bool.toNat_le r.handled
  handled l1 e l2 ts heq hts := by
    subst heq
    obtain ⟨_, hr, ha⟩ := h.at_entry
    obtain ⟨p, ts0, hp, hts0, hbody⟩ := (ha.handler ts hts).accepted
    obtain ⟨hash, hhash, hmaj, hcommitted⟩ := (ha.handler ts hts).majority
    exact ⟨⟨p, ts0, by rw [hr.accepted, hp]; rfl, hts0, hbody⟩, hash, hhash, hmaj,
      hr.committed hash (hcommitted rfl)⟩

end Orderly

end GoMoi
