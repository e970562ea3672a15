/-
  File:      GoMoi/Consensus/VoteCount.lean
  Subject:   What the counters of a vote set hold, over every sequence of calls.

  The abstract side is the tally of a set of flat indices (Lib/Tally.lean) against the votes each
  set of the committee requires:

  * `Counted c s` -- the invariant: the counters are the tally of the indices that hold a vote, as
    words of 32 bits, the bit array is that set of indices, and a majority is recorded if these
    words are quorate, and only if they once were;
  * **`addVerifiedVote_spec`** -- the step: a vote for a free index adds that index and nothing
    else, a vote for a taken index changes nothing.
-/
import GoMoi.Consensus.VoteSet

namespace GoMoi

open ICSCommittee List

/-! ## 1. The votes a committee requires -/

namespace ICSCommittee

/-- The threshold of each set: none for an excluded context set; the last set always has one. -/
def requiredVotes (c : ICSCommittee) : List UInt32 :=
  c.sets.mapIdx fun s set =>
    if s + 1 = c.size then NodeSet.twoThirds set.setSizeWithOutDelta
    else if set.excludedFromICS then 0 else set.participantQuorum

@[simp] theorem requiredVotes_length (c : ICSCommittee) : c.requiredVotes.length = c.size := by
  rw [requiredVotes, length_mapIdx, c.size_eq]

/-- Counts that meet every threshold of a committee with at least one set. -/
def Quorate (c : ICSCommittee) (count : Nat → Nat) : Prop :=
  0 < c.size ∧ ∀ s q, c.requiredVotes[s]? = some q → q.toNat ≤ count s

/-- The counts of the flat indices `I`, as words of 32 bits hold them. -/
def words (c : ICSCommittee) (I : Finset Nat) (s : Nat) : Nat := tally c.slotsOf I s % 2 ^ 32

/-- No count of the indices `I` wraps. -/
def Unwrapped (c : ICSCommittee) (I : Finset Nat) : Prop := ∀ s, tally c.slotsOf I s < 2 ^ 32

variable {c : ICSCommittee}

theorem Quorate.mono {f g : Nat → Nat} (h : c.Quorate f) (hfg : ∀ s, f s ≤ g s) : c.Quorate g :=
  ⟨h.1, fun s q hq => Nat.le_trans (h.2 s q hq) (hfg s)⟩

/-- Words that are quorate stand for counts that are, also of more indices. -/
theorem Quorate.of_words {I J : Finset Nat} (h : c.Quorate (c.words I)) (hIJ : I ⊆ J) :
    c.Quorate (tally c.slotsOf J) :=
  h.mono fun s => (Nat.mod_le _ _).trans (tally_mono _ hIJ s)

theorem Unwrapped.words_eq {I : Finset Nat} (h : c.Unwrapped I) :
    c.words I = tally c.slotsOf I :=
  funext fun s => Nat.mod_eq_of_lt (h s)

/-- The random set alone refuses an empty count. -/
theorem not_quorate_zero (c : ICSCommittee) : ¬ c.Quorate fun _ => 0 := by
  rintro ⟨hpos, h⟩
  have hlt : c.size - 1 < c.sets.length := by rw [← c.size_eq]; omega
  have hq : c.requiredVotes[c.size - 1]? =
      some (NodeSet.twoThirds c.sets[c.size - 1].setSizeWithOutDelta) := by
    rw [requiredVotes, List.getElem?_mapIdx, List.getElem?_eq_getElem hlt, Option.map_some,
      if_pos (by omega)]
  exact absurd (h _ _ hq) (Nat.not_le.mpr (NodeSet.twoThirds_pos _))

theorem sliceAt_sets {s : Nat} (h : s < c.sets.length) : sliceAt c.sets (s : Int) = .ok c.sets[s] :=
  sliceAt_natCast (List.getElem?_eq_getElem h)

/-- The last set, of a committee that has one. -/
theorem randomSet_eq (hpos : 0 < c.size) :
    ∃ h : c.size - 1 < c.sets.length, c.randomSet = .ok c.sets[c.size - 1] := by
  have hlt : c.size - 1 < c.sets.length := by rw [← c.size_eq]; omega
  refine ⟨hlt, ?_⟩
  have hcast : ((c.size : Int) - 1) = ((c.size - 1 : Nat) : Int) := by omega
  rw [randomSet, hcast]
  exact sliceAt_sets hlt

/-- **`GetQuorum` computes the required votes.** -/
theorem quorums_eq (hpos : 0 < c.size) : c.quorums = .ok c.requiredVotes := by
  obtain ⟨hlast, hrandom⟩ := randomSet_eq hpos
  -- one round of the loop reads the threshold of its set
  have hround : ∀ i ∈ List.range (c.size - 1),
      (do if ← c.isExcluded i then pure 0 else c.participantQuorum i : Go UInt32) =
        .ok (c.requiredVotes.getD i 0) := by
    intro i hi
    rw [mem_range] at hi
    have hlt : i < c.sets.length := by omega
    have hget : c.requiredVotes.getD i 0 =
        if c.sets[i].excludedFromICS then 0 else c.sets[i].participantQuorum := by
      rw [getD_eq_getElem?_getD, requiredVotes, List.getElem?_mapIdx,
        List.getElem?_eq_getElem hlt, Option.map_some, if_neg (by omega), Option.getD_some]
    have hex : c.isExcluded i = .ok c.sets[i].excludedFromICS := by
      rw [isExcluded, sliceAt_sets hlt]
      rfl
    have hpq : c.participantQuorum i = .ok c.sets[i].participantQuorum := by
      rw [participantQuorum, sliceAt_sets hlt]
      rfl
    rw [hex, hpq, hget]
    cases c.sets[i].excludedFromICS <;> rfl
  have hrq : c.randomQuorumSize =
      .ok (NodeSet.twoThirds c.sets[c.size - 1].setSizeWithOutDelta) := by
    rw [randomQuorumSize, hrandom]
    rfl
  rw [quorums, Go.mapM_eq_ok hround, hrq]
  show Except.ok _ = Except.ok _
  congr 1
  apply ext_getElem?
  intro s
  rcases Nat.lt_trichotomy s (c.size - 1) with hs | hs | hs
  · have hlt : s < c.requiredVotes.length := by rw [requiredVotes_length]; omega
    rw [List.getElem?_append_left (by simpa using hs), List.getElem?_map,
      List.getElem?_range hs, Option.map_some, getD_eq_getElem?_getD,
      List.getElem?_eq_getElem hlt, Option.getD_some]
  · subst hs
    rw [List.getElem?_append_right (by simp), requiredVotes, List.getElem?_mapIdx,
      List.getElem?_eq_getElem hlast, Option.map_some, if_pos (by omega)]
    simp
  · rw [List.getElem?_eq_none (by simp; omega), List.getElem?_eq_none (by simp; omega)]

end ICSCommittee

/-! ## 2. The helpers of `addVerifiedVote` -/

namespace VoteSet

/-- `areGreater` compares position by position. -/
theorem areGreater_spec {sum qs : List UInt32} (hlen : sum.length = qs.length) :
    ∃ b, areGreater sum qs = .ok b ∧ (b = true ↔ ∀ (s : Nat) (q v : UInt32),
      qs[s]? = some q → sum[s]? = some v → q.toNat ≤ v.toNat) := by
  induction sum generalizing qs with
  | nil => exact ⟨true, rfl, by simp⟩
  | cons value values ih =>
    rcases qs with _ | ⟨q, qs⟩
    · simp at hlen
    by_cases hlt : value < q
    · refine ⟨false, by rw [areGreater, if_pos hlt]; rfl, ?_⟩
      rw [UInt32.lt_iff_toNat_lt] at hlt
      constructor
      · intro h
        cases h
      · intro h
        have := h 0 q value rfl rfl
        omega
    obtain ⟨b, hb, hiff⟩ := ih (by simpa using hlen)
    have hle : q.toNat ≤ value.toNat := UInt32.not_lt.mp hlt
    refine ⟨b, by rw [areGreater, if_neg hlt, hb], hiff.trans ?_⟩
    constructor
    · intro h s q' v hq hv
      cases s with
      | zero =>
        cases hq
        cases hv
        exact hle
      | succ s => exact h s q' v hq hv
    · exact fun h s q' v hq hv => h (s + 1) q' v hq hv

/-- The indices that hold a vote. -/
def voted (vs : VoteSet) : Finset Nat :=
  (Finset.range vs.votes.length).filter fun i => (vs.votes[i]?.join).isSome

variable {i : Nat} {vs' : VoteSet} {v : Vote} {P : Primitives} {cs' : ClusterState} {added : Bool}
  {C : Codec} {l : List Nat} {signers : List (Int × ICSCommittee.KramaSlot)}

theorem mem_voted {vs : VoteSet} : i ∈ vs.voted ↔ ∃ v, vs.votes[i]? = some (some v) := by
  rw [voted, Finset.mem_filter, Finset.mem_range]
  constructor
  · rintro ⟨-, h⟩
    obtain ⟨v, hv⟩ := Option.isSome_iff_exists.mp h
    exact ⟨v, Option.join_eq_some_iff.mp hv⟩
  rintro ⟨v, hv⟩
  refine ⟨(List.getElem?_eq_some_iff.mp hv).1, ?_⟩
  rw [hv]
  rfl

/-- A vote stored at a free index adds that index. -/
theorem voted_set {vs : VoteSet} (hi : i < vs.votes.length)
    (h : vs'.votes = vs.votes.set i (some v)) : vs'.voted = insert i vs.voted := by
  ext j
  rw [Finset.mem_insert, mem_voted, mem_voted, h, List.getElem?_set]
  by_cases hj : i = j
  · subst hj
    simp [hi]
  · simp [hj, Ne.symm hj]

/-! ## 3. The invariant -/

/-- The counters and the bit array are those of the indices that hold a vote. -/
structure Tallied (c : ICSCommittee) (s : ClusterState × VoteSet) : Prop where
  committee : s.1.committee = c
  quorum : ∀ q, s.1.quorum = some q → q = c.requiredVotes
  votes_length : s.2.votes.length = c.totalNodes
  sum_length : s.2.sum.length = c.size
  sum_eq : ∀ j < c.size, s.2.sum[j]? = some (UInt32.ofNat (tally c.slotsOf s.2.voted j))
  bits : 0 < c.totalNodes → ∃ b, s.2.votesBitArray = some b ∧ b.WF ∧ b.size = c.totalNodes ∧
    ∀ i, b.bit i = true ↔ i ∈ s.2.voted

/-- ... and a majority is recorded if they meet the quorum, and only if some of them met it. -/
structure Counted (c : ICSCommittee) (s : ClusterState × VoteSet) : Prop extends Tallied c s where
  reached : c.Quorate (c.words s.2.voted) → s.2.maj23TsHash.isSome = true
  frozen : s.2.maj23TsHash.isSome = true → ∃ I ⊆ s.2.voted, c.Quorate (c.words I)

variable {c : ICSCommittee} {cs : ClusterState} {vs : VoteSet}

theorem voted_new (view : UInt64) (t : ConsensusMsgType) (cs : ClusterState) :
    (new view t cs).voted = ∅ := by
  refine Finset.eq_empty_of_forall_notMem fun i hi => ?_
  obtain ⟨v, hv⟩ := mem_voted.mp hi
  rw [new, List.getElem?_replicate] at hv
  split at hv <;> cases hv

/-- An empty vote set of a fresh cluster state is counted. -/
theorem counted_new (c : ICSCommittee) (view : UInt64) (t : ConsensusMsgType) :
    Counted c (ClusterState.new c, new view t (ClusterState.new c)) where
  committee := rfl
  quorum q hq := by cases hq
  votes_length := by simp [new, ClusterState.new]
  sum_length := by simp [new, ClusterState.new]
  sum_eq j hj := by
    rw [voted_new, tally_empty]
    simp [new, ClusterState.new, hj]
  bits hpos := by
    obtain ⟨b, hb⟩ := ArrayOfBits.new_of_pos hpos
    obtain ⟨hwf, hsize, hbit⟩ := ArrayOfBits.new_eq_some hb
    refine ⟨b, hb, hwf, hsize, fun i => ?_⟩
    simp [hbit, voted_new]
  reached h := by
    rw [voted_new] at h
    have hz : c.words ∅ = fun _ => 0 := funext fun s => by simp [words]
    exact absurd (hz ▸ h) c.not_quorate_zero
  frozen h := by cases h

theorem getQuorum_eq (h : Tallied c (cs, vs)) (hpos : 0 < c.size) :
    cs.getQuorum = .ok ({ cs with quorum := some c.requiredVotes }, c.requiredVotes) := by
  unfold ClusterState.getQuorum
  have hc : cs.committee = c := h.committee
  split
  · rename_i q hq
    have hq' : q = c.requiredVotes := h.quorum q hq
    subst hq'
    rw [← hq]
    rfl
  · rw [hc, quorums_eq hpos]
    rfl

/-- A recorded vote: everything but the votes, the bits and the counters is kept. -/
structure Recorded (c : ICSCommittee) (cs : ClusterState) (vs : VoteSet) (vote : Vote) (i : Nat)
    (r : VoteSet) : Prop where
  tallied : Tallied c (cs, r)
  votes : r.votes = vs.votes.set i (some vote)
  voted : r.voted = insert i vs.voted
  view : r.view = vs.view
  voteType : r.voteType = vs.voteType
  maj : r.maj23TsHash = vs.maj23TsHash
  agg : r.maj23aggSignature = vs.maj23aggSignature

theorem record_spec (h : Tallied c (cs, vs)) (hi : i < c.totalNodes) (hfree : i ∉ vs.voted)
    (vote : Vote) : ∃ r, vs.record vote i (c.slotsOf i) = .ok r ∧ Recorded c cs vs vote i r := by
  obtain ⟨b, hb, hwf, hsize, hbit⟩ := h.bits (by omega)
  have hb' : vs.votesBitArray = some b := hb
  obtain ⟨b', hset, hwf', hsize', hbit'⟩ :=
    ArrayOfBits.setIndex_spec hwf (i := i) (by rw [hsize]; omega) true
  have hslots : (c.slotsOf i).all (· < vs.sum.length) = true := by
    rw [all_eq_true]
    intro j hj
    obtain ⟨set, hget, _⟩ := slotsOf_mem hj
    have hlt := (List.getElem?_eq_some_iff.mp hget).1
    have := h.sum_length
    rw [← c.size_eq] at hlt
    simpa [this] using hlt
  have hlen : i < vs.votes.length := by
    have := h.votes_length
    simp only at this
    omega
  have hrecord : vs.record vote i (c.slotsOf i) = .ok { vs with
      votes := vs.votes.set i (some vote), votesBitArray := some b',
      sum := bump vs.sum (c.slotsOf i) } := by
    rw [record, hb', updateSum, hslots]
    simp only [hset]
    rfl
  have hvoted : VoteSet.voted { vs with
      votes := vs.votes.set i (some vote), votesBitArray := some b',
      sum := bump vs.sum (c.slotsOf i) } = insert i vs.voted := voted_set hlen rfl
  refine ⟨_, hrecord, ⟨h.committee, h.quorum, ?_, ?_, ?_, ?_⟩, rfl, hvoted, rfl, rfl, rfl, rfl⟩
  · simpa using h.votes_length
  · simpa using h.sum_length
  · intro j hj
    rw [hvoted, tally_insert _ hfree, bump_getElem?, h.sum_eq j hj, UInt32.ofNat_add]
    rfl
  · intro _
    refine ⟨b', rfl, hwf', by rw [hsize', hsize], fun j => ?_⟩
    rw [hvoted, Finset.mem_insert, hbit' j]
    by_cases hj : j = i
    · simp [hj]
    · simp [hj, hbit j]

/-! ## 4. The step -/

/-- The counters of a counted set meet the quorum exactly if `areGreater` says so. -/
theorem areGreater_quorate (h : Tallied c (cs, vs)) (hpos : 0 < c.size) :
    ∃ b, areGreater vs.sum c.requiredVotes = .ok b ∧
      (b = true ↔ c.Quorate (c.words vs.voted)) := by
  have hlen : vs.sum.length = c.requiredVotes.length := by
    rw [requiredVotes_length]
    exact h.sum_length
  obtain ⟨b, hb, hiff⟩ := areGreater_spec hlen
  refine ⟨b, hb, hiff.trans ?_⟩
  have hlt : ∀ s q, c.requiredVotes[s]? = some q → s < c.size := fun s q hq => by
    rw [← requiredVotes_length]
    exact (List.getElem?_eq_some_iff.mp hq).1
  constructor
  · intro hall
    refine ⟨hpos, fun s q hq => ?_⟩
    have := hall s q _ hq (h.sum_eq s (hlt s q hq))
    rwa [UInt32.toNat_ofNat'] at this
  intro hq s q v hs hv
  have hv' := h.sum_eq s (hlt s q hs)
  rw [hv, Option.some.injEq] at hv'
  rw [hv', UInt32.toNat_ofNat']
  exact hq.2 s q hs

/-- A vote for a taken index changes nothing. -/
theorem addVerifiedVote_taken (P : Primitives) (hi : i ∈ vs.voted) (vote : Vote) (slots : List Nat)
    (isQc : Bool) : addVerifiedVote P cs vs vote i slots isQc = .ok (cs, vs, false) := by
  obtain ⟨v, hv⟩ := mem_voted.mp hi
  rw [addVerifiedVote, sliceAt_natCast hv]
  rfl

/-- **A vote for a free index is recorded.** It freezes a majority exactly if none was there and
    the quorum is met with it; only the aggregation that goes with this can panic. -/
theorem addVerifiedVote_free (P : Primitives) (h : Counted c (cs, vs)) (hi : i < c.totalNodes)
    (hfree : i ∉ vs.voted) (vote : Vote) (isQc : Bool) :
    ∃ r, Recorded c { cs with quorum := some c.requiredVotes } vs vote i r ∧
      ((addVerifiedVote P cs vs vote i (c.slotsOf i) isQc =
            .ok ({ cs with quorum := some c.requiredVotes }, r, true) ∧
          (vs.maj23TsHash.isSome = true ∨ ¬ c.Quorate (c.words r.voted))) ∨
        (addVerifiedVote P cs vs vote i (c.slotsOf i) isQc = (do
            let aggSig ← r.majoritySignature P vote isQc
            pure ({ cs with quorum := some c.requiredVotes }, { r with
              maj23TsHash := some vote.tsHash, maj23aggSignature := aggSig }, true)) ∧
          vs.maj23TsHash = none ∧ c.Quorate (c.words r.voted))) := by
  have hpos : 0 < c.size := by
    by_contra hz
    have hnil : c.sets = [] := eq_nil_of_length_eq_zero (by rw [← c.size_eq]; omega)
    have htot := c.total_eq
    rw [hnil] at htot
    simp at htot
    omega
  obtain ⟨r, hr, hrec⟩ := record_spec h.toTallied hi hfree vote
  have hrec' : Recorded c { cs with quorum := some c.requiredVotes } vs vote i r :=
    { hrec with tallied := { hrec.tallied with quorum := fun q hq => (Option.some.inj hq).symm } }
  obtain ⟨b, hb, hiff⟩ := areGreater_quorate hrec.tallied hpos
  have hempty : vs.votes[i]? = some none := by
    have hlt : i < vs.votes.length := by
      have := h.votes_length
      simp only at this
      omega
    cases hv : vs.votes[i] with
    | none => rw [List.getElem?_eq_getElem hlt, hv]
    | some v => exact absurd (mem_voted.mpr ⟨v, by rw [List.getElem?_eq_getElem hlt, hv]⟩) hfree
  have hcall : addVerifiedVote P cs vs vote i (c.slotsOf i) isQc =
      (if r.maj23TsHash.isSome then pure ({ cs with quorum := some c.requiredVotes }, r, true)
       else if b then (do
          let aggSig ← r.majoritySignature P vote isQc
          pure ({ cs with quorum := some c.requiredVotes }, { r with
            maj23TsHash := some vote.tsHash, maj23aggSignature := aggSig }, true))
       else pure ({ cs with quorum := some c.requiredVotes }, r, true)) := by
    rw [addVerifiedVote, sliceAt_natCast hempty]
    simp [bind, Except.bind, hr, getQuorum_eq h.toTallied hpos, hb]
  refine ⟨r, hrec', ?_⟩
  rw [hcall, hrec.maj]
  cases hm : vs.maj23TsHash with
  | some m => exact .inl ⟨rfl, .inl rfl⟩
  | none =>
    cases b with
    | false => exact .inl ⟨rfl, .inr fun hq => by simpa using hiff.mpr hq⟩
    | true => exact .inr ⟨rfl, rfl, hiff.mp rfl⟩

/-- What a vote for a free index leaves behind. -/
structure Added (P : Primitives) (c : ICSCommittee) (s : ClusterState × VoteSet) (vote : Vote)
    (i : Nat) (isQc : Bool) (s' : ClusterState × VoteSet) : Prop where
  counted : Counted c s'
  free : i ∉ s.2.voted
  votes : s'.2.votes = s.2.votes.set i (some vote)
  voted : s'.2.voted = insert i s.2.voted
  view : s'.2.view = s.2.view
  voteType : s'.2.voteType = s.2.voteType
  majority :
    (s'.2.maj23TsHash = s.2.maj23TsHash ∧ s'.2.maj23aggSignature = s.2.maj23aggSignature) ∨
    (s.2.maj23TsHash = none ∧ s'.2.maj23TsHash = some vote.tsHash ∧
      ∃ r, Recorded c s'.1 s.2 vote i r ∧
        r.majoritySignature P vote isQc = .ok s'.2.maj23aggSignature)

variable {vote : Vote} {isQc : Bool} {s s' : ClusterState × VoteSet} {expected : Hash}
  {err : Option Err}

/-- **The step of `addVerifiedVote`**, whenever it returns. -/
theorem addVerifiedVote_spec (h : Counted c (cs, vs)) (hi : i < c.totalNodes)
    (hcall : addVerifiedVote P cs vs vote i (c.slotsOf i) isQc = .ok (cs', vs', added)) :
    (added = false ∧ i ∈ vs.voted ∧ cs' = cs ∧ vs' = vs) ∨
      (added = true ∧ Added P c (cs, vs) vote i isQc (cs', vs')) := by
  by_cases hfree : i ∈ vs.voted
  · rw [addVerifiedVote_taken P hfree] at hcall
    cases hcall
    exact .inl ⟨rfl, hfree, rfl, rfl⟩
  right
  obtain ⟨r, hrec, hcase⟩ := addVerifiedVote_free P h hi hfree vote isQc
  rcases hcase with ⟨heq, hno⟩ | ⟨heq, hnone, hq⟩
  · rw [heq] at hcall
    cases hcall
    refine ⟨rfl, ⟨hrec.tallied, fun hq => ?_, fun hmaj => ?_⟩, hfree, hrec.votes, hrec.voted,
      hrec.view, hrec.voteType, .inl ⟨hrec.maj, hrec.agg⟩⟩
    · rw [hrec.maj]
      exact hno.resolve_right fun hno => hno hq
    · -- the indices that met the quorum hold their votes still
      rw [hrec.maj] at hmaj
      obtain ⟨I, hI, hq⟩ := h.frozen hmaj
      exact ⟨I, hI.trans (by rw [hrec.voted]; exact Finset.subset_insert _ _), hq⟩
  · rw [heq, Go.bind_eq_ok] at hcall
    obtain ⟨aggSig, hagg, hret⟩ := hcall
    cases hret
    have hvoted : VoteSet.voted { r with
        maj23TsHash := some vote.tsHash, maj23aggSignature := aggSig } = r.voted := rfl
    have ht := hrec.tallied
    exact ⟨rfl, ⟨⟨ht.committee, ht.quorum, ht.votes_length, ht.sum_length, ht.sum_eq, ht.bits⟩,
      fun _ => rfl, fun _ => ⟨r.voted, subset_rfl, hq⟩⟩, hfree, hrec.votes,
      hvoted.trans hrec.voted, hrec.view,
      hrec.voteType, .inr ⟨hnone, rfl, r, hrec, hagg⟩⟩

/-! ## 5. Whole calls -/

/-- A vote whose signature verifies under the key of the index it names. -/
structure ValidVote (C : Codec) (P : Primitives) (c : ICSCommittee) (v : Vote) (i : Nat) :
    Prop where
  index : v.signerIndex.toInt = i
  lt : i < c.totalNodes
  known : c.ownerOf i ≠ []
  verified : ∃ raw, v.signBytes C = .ok raw ∧
    Crypto.verify P raw v.signature (c.keyOf i) = .ok (true, none)

/-- A certificate whose aggregate verifies under the keys of the indices `l` it names. -/
structure ValidQc (C : Codec) (P : Primitives) (c : ICSCommittee) (v : Vote) (l : List Nat) :
    Prop where
  indices : ∃ b signed, v.signerIndices = some b ∧ b.getTrueIndices = .ok signed ∧
    signed.map (fun i : Nat => int32 i) = l.map (fun i : Nat => (i : Int))
  lt : ∀ i ∈ l, i < c.totalNodes
  known : ∀ i ∈ l, c.ownerOf i ≠ []
  verified : ∃ raw, v.signBytes C = .ok raw ∧
    Crypto.verifyAggregateSignature P raw v.signature (l.map c.keyOf) = (true, none)

/-- An index that a vote names fits the `int32` it is named by. -/
theorem ValidVote.lt_int32 (h : ValidVote C P c v i) : i < 2 ^ 31 := by
  have := v.signerIndex.toInt_lt
  rw [h.index] at this
  omega

theorem ValidQc.lt_int32 (h : ValidQc C P c v l) (hi : i ∈ l) : i < 2 ^ 31 := by
  obtain ⟨b, signed, _, _, hmap⟩ := h.indices
  have hmem : (i : Int) ∈ signed.map (fun j : Nat => int32 j) := by
    rw [hmap]
    exact mem_map.mpr ⟨i, hi, rfl⟩
  obtain ⟨j, _, hj⟩ := mem_map.mp hmem
  have := (Int32.ofInt j).toInt_lt
  rw [show (Int32.ofInt j).toInt = int32 j from rfl, hj] at this
  omega

/-- Signed bytes are the encoding of the canonical vote. -/
theorem signBytes_ok {raw : Bytes} (h : v.signBytes C = .ok raw) :
    C.polorizeVote v.canonical = .ok raw := by
  unfold Vote.signBytes at h
  split at h
  · cases h
  · rename_i r hr
    cases h
    exact hr

/-- The vote was accepted: it found its index taken, or was added. -/
def Accepted (P : Primitives) (c : ICSCommittee) (vote : Vote) (isQc : Bool)
    (s : ClusterState × VoteSet) (i : Nat) (s' : ClusterState × VoteSet) : Prop :=
  (i ∈ s.2.voted ∧ s' = s) ∨ Added P c s vote i isQc s'

theorem Accepted.counted (h : Accepted P c vote isQc s i s') (hs : Counted c s) : Counted c s' := by
  rcases h with ⟨_, rfl⟩ | h
  · exact hs
  · exact h.counted

theorem getByIndex_eq (hc : cs.committee = c) : cs.getByIndex i = (c.ownerOf i, c.keyOf i) := by
  unfold ClusterState.getByIndex ownerOf keyOf
  rw [hc]
  cases c.getKramaID i <;> rfl

/-- **`AddVote` changes the vote set only with a valid vote** for its view, its type and the
    expected hash. -/
theorem addVote_spec (h : Counted c (cs, vs)) {v : Option Vote}
    (hcall : vs.addVote C P cs v expected = .ok (cs', vs', added, err)) :
    (cs' = cs ∧ vs' = vs ∧ added = false ∧ err.isSome = true) ∨
      ∃ vote i, v = some vote ∧ ValidVote C P c vote i ∧ vote.view = vs.view ∧
        vote.type = vs.voteType ∧ vote.tsHash = expected ∧ err = none ∧
        Accepted P c vote false (cs, vs) i (cs', vs') := by
  have hc : cs.committee = c := h.committee
  rcases v with _ | v
  · cases hcall
    exact .inl ⟨rfl, rfl, rfl, rfl⟩
  unfold addVote at hcall
  simp only at hcall
  split at hcall
  · cases hcall
    exact .inl ⟨rfl, rfl, rfl, rfl⟩
  rename_i hneg
  obtain ⟨i, hi⟩ := Int.eq_ofNat_of_zero_le (Int.not_lt.mp hneg)
  rw [hi, getByIndex_eq hc, hc] at hcall
  split at hcall
  · cases hcall
    exact .inl ⟨rfl, rfl, rfl, rfl⟩
  rename_i hvt
  obtain ⟨hview, htype⟩ := not_or.mp hvt
  split at hcall
  · cases hcall
    exact .inl ⟨rfl, rfl, rfl, rfl⟩
  rename_i hknown
  split at hcall
  · cases hcall
    exact .inl ⟨rfl, rfl, rfl, rfl⟩
  rename_i raw hraw
  rw [Go.bind_eq_ok] at hcall
  obtain ⟨⟨verified, verr⟩, hverify, hcall⟩ := hcall
  split at hcall
  · rename_i hsome
    cases hcall
    exact .inl ⟨rfl, rfl, rfl, hsome⟩
  rename_i hnone
  split at hcall
  · cases hcall
    exact .inl ⟨rfl, rfl, rfl, rfl⟩
  rename_i htrue
  split at hcall
  · cases hcall
    exact .inl ⟨rfl, rfl, rfl, rfl⟩
  rename_i hhash
  split at hcall
  · cases hcall
    exact .inl ⟨rfl, rfl, rfl, rfl⟩
  rename_i k hk
  obtain ⟨j, hij, hlt, hslots, _, _⟩ := getKramaID_eq_some hk
  obtain rfl : i = j := by exact_mod_cast hij
  rw [← hslots, Go.bind_eq_ok] at hcall
  obtain ⟨⟨_, _, _⟩, hadd, hret⟩ := hcall
  cases hret
  have hverr : verr = none := by simpa using hnone
  have hver : verified = true := by simpa using htrue
  subst hverr hver
  refine .inr ⟨v, i, rfl, ⟨hi, hlt, hknown, raw, hraw, hverify⟩, not_not.mp hview,
    not_not.mp htype, not_not.mp hhash, rfl, ?_⟩
  rcases addVerifiedVote_spec h hlt hadd with ⟨_, htaken, rfl, rfl⟩ | ⟨_, hadded⟩
  · exact .inl ⟨htaken, rfl⟩
  · exact .inr hadded

/-- The flat indices of the resolved signers of a certificate. -/
theorem resolve_spec {signed : List Nat} (h : resolve c signed = some signers) :
    ∃ l : List Nat, signed.map (fun i : Nat => int32 i) = l.map (fun i : Nat => (i : Int)) ∧
      signers.map (fun p => (p.1, p.2.slots, p.2.publicKey)) =
        l.map (fun i : Nat => ((i : Int), c.slotsOf i, c.keyOf i)) ∧
      ∀ i ∈ l, i < c.totalNodes ∧ c.ownerOf i ≠ [] := by
  induction signed generalizing signers with
  | nil =>
    cases h
    exact ⟨[], rfl, rfl, by simp⟩
  | cons valIndex rest ih =>
    unfold resolve at h
    split at h
    · cases h
    rename_i k hk
    split at h
    · cases h
    rw [Option.map_eq_some_iff] at h
    obtain ⟨tail, htail, rfl⟩ := h
    obtain ⟨l, hl, hsigners, hall⟩ := ih htail
    obtain ⟨i, hi, hlt, hslots, howner, hkey⟩ := getKramaID_eq_some hk
    refine ⟨i :: l, by simp [hi, hl], by simp [hi, hslots, hkey, hsigners], ?_⟩
    exact forall_mem_cons.mpr ⟨⟨hlt, by rwa [howner]⟩, hall⟩

/-- The loop of `AddQc` is a run of accepted votes, one for each index. -/
theorem addAll_spec (hl : signers.map (fun p => (p.1, p.2.slots, p.2.publicKey)) =
      l.map (fun i : Nat => ((i : Int), c.slotsOf i, c.keyOf i))) (hlt : ∀ i ∈ l, i < c.totalNodes)
    (h : Counted c (cs, vs)) (hcall : addAll P v signers cs vs = .ok s') :
    Run (Accepted P c v true) (cs, vs) l s' := by
  induction signers generalizing l cs vs with
  | nil =>
    cases l with
    | nil =>
      cases hcall
      exact .start
    | cons i l => simp at hl
  | cons p rest ih =>
    rcases l with _ | ⟨i, l⟩
    · simp at hl
    obtain ⟨_, k⟩ := p
    simp only [map_cons, List.cons.injEq, Prod.mk.injEq] at hl
    obtain ⟨⟨rfl, hslots, _⟩, hrest⟩ := hl
    unfold addAll at hcall
    rw [hslots, Go.bind_eq_ok] at hcall
    obtain ⟨⟨cs1, vs1, _⟩, hadd, hcall⟩ := hcall
    have hstep : Accepted P c v true (cs, vs) i (cs1, vs1) := by
      rcases addVerifiedVote_spec h (hlt i mem_cons_self) hadd with
        ⟨_, htaken, rfl, rfl⟩ | ⟨_, hadded⟩
      · exact .inl ⟨htaken, rfl⟩
      · exact .inr hadded
    exact .cons hstep
      (ih hrest (fun j hj => hlt j (mem_cons_of_mem i hj)) (hstep.counted h) hcall)

/-- **`AddQc` changes the vote set only with a valid certificate** for the expected hash, whatever
    its view and type are. -/
theorem addQc_spec (h : Counted c (cs, vs)) {v : Option Vote}
    (hcall : vs.addQc C P cs v expected = .ok (cs', vs', added, err)) :
    (cs' = cs ∧ vs' = vs ∧ added = false) ∨
      ∃ vote l, v = some vote ∧ ValidQc C P c vote l ∧ vote.tsHash = expected ∧
        Run (Accepted P c vote true) (cs, vs) l (cs', vs') := by
  have hc : cs.committee = c := h.committee
  rcases v with _ | v
  · cases hcall
    exact .inl ⟨rfl, rfl, rfl⟩
  unfold addQc at hcall
  simp only [hc] at hcall
  split at hcall
  · cases hcall
    exact .inl ⟨rfl, rfl, rfl⟩
  rw [Go.bind_eq_ok] at hcall
  obtain ⟨b, hb, hcall⟩ := hcall
  rw [Go.bind_eq_ok] at hcall
  obtain ⟨signed, hsigned, hcall⟩ := hcall
  split at hcall
  · cases hcall
    exact .inl ⟨rfl, rfl, rfl⟩
  rename_i signers hsigners
  obtain ⟨l, hl, hmap, hall⟩ := resolve_spec hsigners
  have hkeys : signers.map (·.2.publicKey) = l.map c.keyOf := by
    have := congrArg (List.map fun p => p.2.2) hmap
    simpa [Function.comp_def] using this
  split at hcall
  · cases hcall
    exact .inl ⟨rfl, rfl, rfl⟩
  rename_i raw hraw
  rw [hkeys] at hcall
  split at hcall
  · cases hcall
    exact .inl ⟨rfl, rfl, rfl⟩
  rename_i hvalid
  split at hcall
  · cases hcall
    exact .inl ⟨rfl, rfl, rfl⟩
  rename_i hhash
  rw [Go.bind_eq_ok] at hcall
  obtain ⟨_, hadd, hret⟩ := hcall
  cases hret
  simp only [Bool.or_eq_true, Bool.not_eq_true', not_or, Bool.not_eq_false,
    Option.isSome_iff_ne_none, ne_eq, not_not] at hvalid
  exact .inr ⟨v, l, rfl, ⟨⟨b, signed, Go.deref_eq_ok.mp hb, hsigned, hl⟩,
    fun i hi => (hall i hi).1, fun i hi => (hall i hi).2, raw, hraw,
    Prod.ext hvalid.1 hvalid.2⟩, not_not.mp hhash,
    addAll_spec hmap (fun i hi => (hall i hi).1) h hadd⟩

/-- **The loop over the signers of a certificate** adds them all; if it completes the quorum, the
    hash and the signature of the certificate are frozen. -/
theorem acceptedRun_spec (hs : Counted c s) (h : Run (Accepted P c v true) s l s') :
    Counted c s' ∧ s'.2.voted = s.2.voted ∪ l.toFinset ∧ s'.2.view = s.2.view ∧
      s'.2.voteType = s.2.voteType ∧
      ((s'.2.maj23TsHash = s.2.maj23TsHash ∧ s'.2.maj23aggSignature = s.2.maj23aggSignature) ∨
        (s.2.maj23TsHash = none ∧ s'.2.maj23TsHash = some v.tsHash ∧
          s'.2.maj23aggSignature = v.signature)) := by
  apply h.invariant
  · exact ⟨hs, by simp, rfl, rfl, .inl ⟨rfl, rfl⟩⟩
  rintro l s1 i s2 ⟨hc, hvoted, hview, htype, hmaj⟩ hacc
  have hlist : s.2.voted ∪ (l ++ [i]).toFinset = insert i (s.2.voted ∪ l.toFinset) := by
    ext j
    simp only [toFinset_append, Finset.mem_union, Finset.mem_insert, mem_toFinset, mem_singleton]
    tauto
  rcases hacc with ⟨htaken, rfl⟩ | hadded
  · refine ⟨hc, ?_, hview, htype, hmaj⟩
    rw [hlist, ← hvoted, Finset.insert_eq_of_mem htaken]
  refine ⟨hadded.counted, by rw [hadded.voted, hvoted, hlist], hadded.view.trans hview,
    hadded.voteType.trans htype, ?_⟩
  rcases hadded.majority with ⟨hkeep, hsig⟩ | ⟨hnone, hnew, r, _, hagg⟩
  · rw [hkeep, hsig]
    exact hmaj
  have hsig : s2.2.maj23aggSignature = v.signature := (Except.ok.inj hagg).symm
  rcases hmaj with ⟨hkeep, _⟩ | ⟨_, hsome, _⟩
  · exact .inr ⟨by rw [← hkeep, hnone], hnew, hsig⟩
  · rw [hsome] at hnone
    cases hnone

/-- A certificate all of whose signers hold a vote changes nothing. -/
theorem acceptedRun_taken (hl : ∀ i ∈ l, i ∈ s.2.voted) (h : Run (Accepted P c v true) s l s') :
    s' = s := by
  revert hl
  apply h.invariant
  · exact fun _ => rfl
  intro l s1 i s2 ih hacc hall
  obtain rfl := ih fun j hj => hall j (mem_append_left _ hj)
  rcases hacc with ⟨_, rfl⟩ | hadded
  · rfl
  · exact absurd (hall i (by simp)) hadded.free

/-! ## 6. What is aggregated -/

/-- The indices that hold a vote, in increasing order. -/
def votedList (c : ICSCommittee) (vs : VoteSet) : List Nat :=
  (List.range c.totalNodes).filter (· ∈ vs.voted)

/-- The signature stored at an index. -/
def signatureAt (vs : VoteSet) (i : Nat) : Bytes :=
  ((vs.votes[i]?.join).map (·.signature)).getD []

theorem signatureAt_eq (h : vs.votes[i]? = some (some v)) : vs.signatureAt i = v.signature := by
  rw [signatureAt, h]
  rfl

theorem votedList_nodup (c : ICSCommittee) (vs : VoteSet) : (votedList c vs).Nodup :=
  nodup_range.filter _

theorem mem_votedList (h : Tallied c (cs, vs)) : i ∈ votedList c vs ↔ i ∈ vs.voted := by
  rw [votedList, mem_filter, mem_range, decide_eq_true_iff, and_iff_right_iff_imp]
  intro hi
  have hlen : vs.votes.length = c.totalNodes := h.votes_length
  have := (Finset.mem_filter.mp hi).1
  rwa [Finset.mem_range, hlen] at this

theorem votedList_toFinset (h : Tallied c (cs, vs)) : (votedList c vs).toFinset = vs.voted := by
  ext i
  rw [mem_toFinset, mem_votedList h]

/-- The bit array lists the indices that hold a vote. -/
theorem votesBitArray_eq (h : Tallied c (cs, vs)) (hpos : 0 < c.totalNodes) :
    ∃ b, vs.votesBitArray = some b ∧ b.getTrueIndices = .ok (votedList c vs) := by
  obtain ⟨b, hb, hwf, hsize, hbit⟩ := h.bits hpos
  refine ⟨b, hb, ?_⟩
  rw [ArrayOfBits.getTrueIndices_wf hwf, hsize, Int.toNat_natCast, votedList]
  congr 1
  refine filter_congr fun i _ => ?_
  rw [Bool.eq_iff_iff, hbit i, decide_eq_true_iff]

/-- **`aggregateSignatures` aggregates the signatures of the indices that hold a vote.** -/
theorem aggregateSignatures_eq (P : Primitives) (h : Tallied c (cs, vs)) (hpos : 0 < c.totalNodes) :
    vs.aggregateSignatures P =
      Crypto.aggregateSignatures P ((votedList c vs).map vs.signatureAt) := by
  obtain ⟨b, hb, hlist⟩ := votesBitArray_eq h hpos
  have hread : ∀ i ∈ votedList c vs, vs.storedSignature i = .ok (vs.signatureAt i) := by
    intro i hi
    obtain ⟨v, hv⟩ := mem_voted.mp ((mem_votedList h).mp hi)
    rw [storedSignature, sliceAt_natCast hv, signatureAt_eq hv]
    rfl
  unfold aggregateSignatures
  simp [hb, Go.deref, bind, Except.bind, hlist, Go.mapM_eq_ok hread]

end VoteSet

end GoMoi
