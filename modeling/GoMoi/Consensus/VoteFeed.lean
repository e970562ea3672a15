/-
  File:      GoMoi/Consensus/VoteFeed.lean
  Subject:   Valid votes are taken: feeding them into a vote set never panics and is never refused.

  What could panic is the aggregation at the moment the quorum is met, which parses the stored
  signatures again. A signature that `AddVote` verified was parsed then, so it parses again, and
  its point has passed the curve package's own verification; that the package adds up such points
  is what is assumed of it (`Primitives.Aggregates`).

  * **`feed_run`** -- the run: any list of valid votes can be fed, the indices that hold a vote
    afterwards are those before and those fed, and a quorum on the way is a majority in the end.
-/
import GoMoi.Consensus.VoteCount
import GoMoi.Crypto.Bls

namespace GoMoi

namespace VoteSet

/-! ## 1. The step -/

/-- Every stored signature was checked. -/
def Readable (P : Primitives) (vs : VoteSet) : Prop :=
  ∀ (i : Nat) (v : Vote), vs.votes[i]? = some (some v) → Crypto.Checked P v.signature

variable {C : Codec} {P : Primitives} {c : ICSCommittee} {cs : ClusterState} {vs : VoteSet}

theorem readable_new (view : UInt64) (t : ConsensusMsgType) (cs : ClusterState) :
    Readable P (new view t cs) := by
  intro i v hv
  have : i ∈ (new view t cs).voted := mem_voted.mpr ⟨v, hv⟩
  rw [voted_new] at this
  cases this

variable {i : Nat} {v : Vote}

theorem Readable.set {vs' : VoteSet} (h : Readable P vs) (hv : Crypto.Checked P v.signature)
    (hvotes : vs'.votes = vs.votes.set i (some v)) : Readable P vs' := by
  intro j w hw
  rw [hvotes, List.getElem?_set] at hw
  split at hw
  · split at hw
    · cases hw
      exact hv
    · cases hw
  · exact h j w hw

/-- The aggregation over what is stored returns. -/
theorem aggregateSignatures_returns (hagg : P.Aggregates)
    (h : Tallied c (cs, vs)) (hpos : 0 < c.totalNodes) (hr : Readable P vs) :
    ∃ r, vs.aggregateSignatures P = .ok r := by
  rw [aggregateSignatures_eq P h hpos]
  refine Crypto.aggregateSignatures_returns hagg fun s hs => ?_
  obtain ⟨i, hi, rfl⟩ := List.mem_map.mp hs
  obtain ⟨v, hv⟩ := mem_voted.mp ((mem_votedList h).mp hi)
  rw [signatureAt_eq hv]
  exact hr i v hv

/-- `addVerifiedVote` of an individual vote returns. -/
theorem addVerifiedVote_returns (hagg : P.Aggregates) (h : Counted c (cs, vs)) (hr : Readable P vs)
    (hi : i < c.totalNodes) {vote : Vote} (hv : Crypto.Checked P vote.signature) :
    ∃ r, addVerifiedVote P cs vs vote i (c.slotsOf i) false = .ok r := by
  by_cases hfree : i ∈ vs.voted
  · exact ⟨_, addVerifiedVote_taken P hfree vote _ false⟩
  obtain ⟨r, hrec, ⟨heq, _⟩ | ⟨heq, _, _⟩⟩ := addVerifiedVote_free P h hi hfree vote false
  · exact ⟨_, heq⟩
  obtain ⟨⟨aggSig, e⟩, hret⟩ := aggregateSignatures_returns hagg hrec.tallied (by omega)
    (hr.set hv hrec.votes)
  rw [heq]
  simp only [majoritySignature, hret, bind, Except.bind]
  exact ⟨_, rfl⟩

/-- **A valid vote for the set's view and type and the expected hash is accepted.** -/
theorem addVote_valid (hagg : P.Aggregates) (h : Counted c (cs, vs)) (hr : Readable P vs)
    (hvalid : ValidVote C P c v i) (hview : v.view = vs.view) (htype : v.type = vs.voteType) :
    ∃ s', Step C P (cs, vs) (.addVote (some v) v.tsHash) s' ∧
      Accepted P c v false (cs, vs) i s' ∧ Readable P s'.2 := by
  obtain ⟨raw, hraw, hverify⟩ := hvalid.verified
  have hreadable := Crypto.verify_checked hverify
  have hc : cs.committee = c := h.committee
  obtain ⟨k, hk⟩ := Option.isSome_iff_exists.mp
    ((c.getKramaID_isSome i).mpr ⟨by omega, by exact_mod_cast hvalid.lt⟩)
  have hslots : k.slots = c.slotsOf i := by simp [ICSCommittee.slotsOf, hk]
  obtain ⟨⟨cs', vs', added⟩, hadd⟩ := addVerifiedVote_returns hagg h hr hvalid.lt hreadable
  have hcall : vs.addVote C P cs (some v) v.tsHash = .ok (cs', vs', added, none) := by
    simp only [addVote, hview, htype, ne_eq, not_true_eq_false, or_self, if_false,
      hvalid.index, getByIndex_eq hc, if_neg hvalid.known, hraw, hverify, hc, hk, hslots, hadd,
      bind, Except.bind]
    rfl
  refine ⟨(cs', vs'), ⟨added, none, hcall⟩, ?_⟩
  have haccepted : Accepted P c v false (cs, vs) i (cs', vs') := by
    rcases addVerifiedVote_spec h hvalid.lt hadd with ⟨_, htaken, rfl, rfl⟩ | ⟨_, hadded⟩
    · exact .inl ⟨htaken, rfl⟩
    · exact .inr hadded
  refine ⟨haccepted, ?_⟩
  rcases haccepted with ⟨_, heq⟩ | hadded
  · cases heq
    exact hr
  · exact hr.set hreadable hadded.votes

/-! ## 2. The run -/

/-- A vote that a vote set of this view, type and hash takes at index `i`. -/
structure Takes (C : Codec) (P : Primitives) (c : ICSCommittee) (view : UInt64)
    (t : ConsensusMsgType) (h : Hash) (v : Vote) (i : Nat) : Prop extends ValidVote C P c v i where
  view_eq : v.view = view
  type_eq : v.type = t
  hash_eq : v.tsHash = h

/-- The calls that feed a list of votes. -/
def feed (h : Hash) (l : List (Vote × Nat)) : List Event :=
  l.map fun p => .addVote (some p.1) h

/-- **Any list of valid votes can be fed**, and afterwards their indices hold a vote. A quorum that
    the first of them met is recorded, whatever the counters hold in the end. -/
theorem feed_run (hagg : P.Aggregates) {view : UInt64}
    {t : ConsensusMsgType} {h : Hash} (l : List (Vote × Nat))
    (hl : ∀ p ∈ l, Takes C P c view t h p.1 p.2) {s : ClusterState × VoteSet}
    (hs : Counted c s) (hr : Readable P s.2) (hview : s.2.view = view) (htype : s.2.voteType = t) :
    ∃ s', Run (Step C P) s (feed h l) s' ∧ Counted c s' ∧
      s'.2.voted = s.2.voted ∪ (l.map (·.2)).toFinset ∧
      (s.2.maj23TsHash.isSome = true → s'.2.maj23TsHash.isSome = true) ∧
      ∀ l1, l1 <+: l → c.Quorate (c.words (s.2.voted ∪ (l1.map (·.2)).toFinset)) →
        s'.2.maj23TsHash.isSome = true := by
  induction l generalizing s with
  | nil =>
    refine ⟨s, .start, hs, by simp, id, fun l1 hl1 hq => hs.reached ?_⟩
    rw [List.prefix_nil.mp hl1] at hq
    simpa using hq
  | cons p rest ih =>
    have hp := hl p List.mem_cons_self
    obtain ⟨s1, hstep, hacc, hr1⟩ := addVote_valid hagg hs hr hp.toValidVote
      (hp.view_eq.trans hview.symm) (hp.type_eq.trans htype.symm)
    rw [hp.hash_eq] at hstep
    have hkeep : s1.2.voted = insert p.2 s.2.voted ∧ s1.2.view = s.2.view ∧
        s1.2.voteType = s.2.voteType ∧
        (s.2.maj23TsHash.isSome = true → s1.2.maj23TsHash.isSome = true) := by
      rcases hacc with ⟨htaken, rfl⟩ | hadded
      · exact ⟨(Finset.insert_eq_of_mem htaken).symm, rfl, rfl, id⟩
      refine ⟨hadded.voted, hadded.view, hadded.voteType, fun hmaj => ?_⟩
      obtain ⟨hmaj', -⟩ | ⟨-, hmaj', -⟩ := hadded.majority
      · rwa [hmaj']
      · rw [hmaj']
        rfl
    obtain ⟨s', hrun, hs', hvoted, hmaj, hfirst⟩ :=
      ih (fun q hq => hl q (List.mem_cons_of_mem p hq))
      (hacc.counted hs) hr1 (hkeep.2.1.trans hview) (hkeep.2.2.1.trans htype)
    have hunion : ∀ l1 : List (Vote × Nat), s1.2.voted ∪ (l1.map (·.2)).toFinset =
        s.2.voted ∪ ((p :: l1).map (·.2)).toFinset := by
      intro l1
      rw [hkeep.1]
      ext i
      simp only [List.map_cons, List.toFinset_cons, Finset.mem_union, Finset.mem_insert]
      tauto
    refine ⟨s', .cons hstep hrun, hs', hvoted.trans (hunion rest),
      fun h => hmaj (hkeep.2.2.2 h), fun l1 hl1 hq => ?_⟩
    obtain rfl | ⟨l2, rfl, hl2⟩ := List.prefix_cons_iff.mp hl1
    · refine hmaj (hkeep.2.2.2 (hs.reached ?_))
      simpa using hq
    · exact hfirst l2 hl2 (by rwa [hunion])

end VoteSet

end GoMoi
