/-
  File:      GoMoi/Consensus/QuorumAgreement.lean
  Subject:   The vote counter and the certificate check agree on what a quorum is.

  A vote set counts while votes arrive and stops at the first quorum; `verifyQc` counts the final
  bit set from scratch. Both are the tally of the same set of flat indices against the same
  required votes: the first by the invariant of the vote set (`Counted`), the second because a
  bit set names every index once and an index that was voted for fits an `int32`. The counters of
  both have 32 bits, but only the first remembers a quorum that a later vote takes away.

  * **`feed_majority_iff_quorumStage`** -- one valid vote for each index of a set by which no count
    wraps gives a supermajority exactly if the counting stage accepts the certificate of that set;
  * `wrapped_count_disagrees` -- a committee that lists one validator so often that a count wraps.
-/
import GoMoi.Consensus.DistinctVoters
import GoMoi.Consensus.ValidateTesseract

namespace GoMoi

/-! ## 1. The credits of a bit set -/

namespace ICSCommittee

variable {c : ICSCommittee}

/-- Signers that are listed once, each within an `int32`, are counted by their words. -/
theorem counted_eq_words {signers : List Nat} (hnodup : signers.Nodup)
    (hlt : ∀ i ∈ signers, i < 2 ^ 31) : c.counted signers = c.words signers.toFinset := by
  funext s
  rw [words, tally_toFinset _ hnodup, counted, credits]
  congr 2
  refine List.map_congr_left fun i hi => ?_
  rw [signerSlots, slotsOf, int32_of_lt (hlt i hi)]

/-- Indices with fewer than 2^32 slots in all count without wrapping. -/
theorem unwrapped_of_length {I : Finset Nat} (h : ∑ i ∈ I, (c.slotsOf i).length < 2 ^ 32) :
    c.Unwrapped I :=
  fun _ => (Finset.sum_le_sum fun _ _ => List.count_le_length).trans_lt h

end ICSCommittee

/-! ## 2. The agreement -/

namespace VoteSet

variable {C : Codec} {P : Primitives} {c : ICSCommittee}

/-- **The vote counter and the certificate check agree**: feeding one valid vote for each index of
    a set by which no count wraps, in any order, reports a supermajority exactly if the counting
    stage of `verifyQc` accepts a certificate with that bit set. -/
theorem feed_majority_iff_quorumStage (hagg : P.Aggregates) (c : ICSCommittee) (view : UInt64)
    (t : ConsensusMsgType) (h : Hash) (l : List (Vote × Nat))
    (hl : ∀ p ∈ l, Takes C P c view t h p.1 p.2) (bits : ArrayOfBits) (signers : List Nat)
    (hbits : bits.getTrueIndices = .ok signers) (hsame : ∀ i, i ∈ signers ↔ i ∈ l.map (·.2))
    (hfit : c.Unwrapped signers.toFinset) :
    ∃ s, Run (Step C P) (start c view t) (feed h l) s ∧
      (s.2.superMajority.2 = true ↔ ∃ keys, c.quorumStage (some bits) = .ok (.ok keys)) := by
  obtain ⟨s, hrun, hcounted, hvoted, -⟩ := feed_run hagg l hl (counted_new c view t)
    (readable_new view t (ClusterState.new c)) rfl rfl
  refine ⟨s, hrun, ?_⟩
  have hset : s.2.voted = signers.toFinset := by
    rw [hvoted, voted_new, Finset.empty_union]
    ext i
    rw [List.mem_toFinset, List.mem_toFinset, hsame]
  have hlt : ∀ i ∈ signers, i < 2 ^ 31 := by
    intro i hi
    obtain ⟨p, hp, rfl⟩ := List.mem_map.mp ((hsame i).mp hi)
    exact (hl p hp).lt_int32
  have hmaj : s.2.maj23TsHash.isSome = true ↔ c.Quorate (c.words signers.toFinset) := by
    rw [← hset] at hfit ⊢
    refine ⟨fun hsome => ?_, hcounted.reached⟩
    obtain ⟨I, hI, hq⟩ := hcounted.frozen hsome
    rw [hfit.words_eq]
    exact hq.of_words hI
  rw [ICSCommittee.quorumStage_accepts_iff hbits,
    ICSCommittee.counted_eq_words (ArrayOfBits.getTrueIndices_nodup hbits) hlt, ← hmaj,
    superMajority]
  cases s.2.maj23TsHash <;> simp

end VoteSet

/-! ## 3. A count that wraps -/

namespace Repeated

open VoteSet

/-- Two context sets that list one validator `n` times each, and a random set of another one. -/
def committee (n : Nat) : ICSCommittee :=
  let set := NodeSet.new (List.replicate n ⟨0, [1], []⟩) (UInt32.ofNat n)
  ((ICSCommittee.new.appendNodeSet ⟨1⟩ (some set)).appendNodeSet ⟨2⟩ (some set)).appendNodeSet
    nilHash (some (NodeSet.new [⟨1, [2], []⟩] 1))

variable {n i : Nat}

theorem totalNodes_eq (n : Nat) : (committee n).totalNodes = 2 * n + 1 := by
  rw [ICSCommittee.total_eq]
  simp [committee, ICSCommittee.appendNodeSet, ICSCommittee.new, NodeSet.new]
  omega

/-- An index of the first set credits it once, and the second set for each time it is listed. -/
theorem first_eq (hi : i < n) : (committee n).getKramaID i =
    some ⟨0 :: List.replicate n 1, i, [1], []⟩ := by
  have htotal := totalNodes_eq n
  rw [ICSCommittee.getKramaID, if_neg (by omega)]
  simp [committee, ICSCommittee.appendNodeSet, ICSCommittee.new, NodeSet.new,
    ICSCommittee.getKramaIDFrom, ICSCommittee.laterSlots, hi]

theorem random_eq (n : Nat) : (committee n).getKramaID (2 * n : Nat) =
    some ⟨[2], 0, [2], []⟩ := by
  have htotal := totalNodes_eq n
  have hrest : 2 * n - n = n := by omega
  rw [ICSCommittee.getKramaID, if_neg (by omega), Int.toNat_natCast]
  simp [committee, ICSCommittee.appendNodeSet, ICSCommittee.new, NodeSet.new,
    ICSCommittee.getKramaIDFrom, ICSCommittee.laterSlots, hrest, show ¬ 2 * n < n by omega]

/-- What the vote of the random set and `k` votes for the first set count. -/
theorem tally_eq {k : Nat} (hk : k ≤ n) (s : Nat) :
    tally (committee n).slotsOf (2 * n :: List.range k).toFinset s =
      [2].count s + k * (0 :: List.replicate n 1).count s := by
  have hnodup : (2 * n :: List.range k).Nodup := by
    rw [List.nodup_cons, List.mem_range]
    exact ⟨by omega, List.nodup_range⟩
  have hfirst : (List.range k).map (fun i => ((committee n).slotsOf i).count s) =
      List.replicate k ((0 :: List.replicate n 1).count s) := by
    refine List.eq_replicate_iff.mpr ⟨by simp, fun x hx => ?_⟩
    obtain ⟨i, hi, rfl⟩ := List.mem_map.mp hx
    rw [ICSCommittee.slotsOf, first_eq (by have := List.mem_range.mp hi; omega)]
    rfl
  rw [tally_toFinset _ hnodup, List.map_cons, List.sum_cons, hfirst, List.sum_replicate,
    ICSCommittee.slotsOf, random_eq]
  rfl

theorem words_eq {k : Nat} (hk : k ≤ n) :
    (committee n).words (2 * n :: List.range k).toFinset 0 = k % 2 ^ 32 ∧
    (committee n).words (2 * n :: List.range k).toFinset 1 = k * n % 2 ^ 32 ∧
    (committee n).words (2 * n :: List.range k).toFinset 2 = 1 := by
  refine ⟨?_, ?_, ?_⟩ <;> rw [ICSCommittee.words, tally_eq hk] <;>
    simp [List.count_replicate]

/-- The votes: that of the random set, and `k` of the first. -/
def votes (n k : Nat) : List (Vote × Nat) := (2 * n :: List.range k).map fun i => (anyVote i, i)

/-- **A quorum that wraps away**: with 65536 listings the 43691st vote of the first set completes
    the quorum, and the last one takes the count of the second set back to zero. The vote set
    reports the majority, and the certificate of the same indices has no quorum. -/
theorem wrapped_count_disagrees :
    ∃ (c : ICSCommittee) (l : List (Vote × Nat)) (s : ClusterState × VoteSet) (bits : ArrayOfBits)
      (signers : List Nat),
      (∀ p ∈ l, Takes anyCodec anyPrims c 0 PREVOTE nilHash p.1 p.2) ∧
      Run (Step anyCodec anyPrims) (start c 0 PREVOTE) (feed nilHash l) s ∧
      bits.getTrueIndices = .ok signers ∧ (∀ i, i ∈ signers ↔ i ∈ l.map (·.2)) ∧
      s.2.superMajority.2 = true ∧ ∃ e, c.quorumStage (some bits) = .ok (.error e) := by
  generalize hn : 65536 = n
  have htakes : ∀ p ∈ votes n n,
    Takes anyCodec anyPrims (committee n) 0 PREVOTE nilHash p.1 p.2 := by
    intro p hp
    obtain ⟨i, hi, rfl⟩ := List.mem_map.mp hp
    refine anyVote_takes (mem_nameable.mpr ?_)
    rw [totalNodes_eq]
    obtain rfl | hi := List.mem_cons.mp hi
    · exact ⟨by omega, by omega, by rw [ICSCommittee.ownerOf, random_eq]; simp⟩
    · have hi := List.mem_range.mp hi
      exact ⟨by omega, by omega, by simp [ICSCommittee.ownerOf, first_eq hi]⟩
  have hreq : (committee n).requiredVotes = [43691, 43691, 1] := by
    subst hn
    rfl
  have hids : ∀ k, (votes n k).map (·.2) = 2 * n :: List.range k := fun k => by
    rw [votes, List.map_map]
    exact List.map_id _
  obtain ⟨s, hrun, hc, hvoted, -, hfirst⟩ := feed_run (fun _ _ => ⟨[], rfl⟩) _ htakes
    (counted_new _ 0 PREVOTE) (readable_new 0 PREVOTE (ClusterState.new _)) rfl rfl
  rw [voted_new, Finset.empty_union, hids] at hvoted
  obtain ⟨bits, -, hlist⟩ := votesBitArray_eq hc.toTallied (by rw [totalNodes_eq]; omega)
  have hmem : ∀ i, i ∈ votedList (committee n) s.2 ↔ i ∈ 2 * n :: List.range n := fun i => by
    rw [mem_votedList hc.toTallied, hvoted, List.mem_toFinset]
  refine ⟨committee n, votes n n, s, bits, _, htakes, hrun, hlist,
    fun i => by rw [hids, hmem], ?_, ?_⟩
  · have hprefix : votes n 43691 <+: votes n n := by
      rw [show n = 43691 + 21845 by omega]
      exact List.IsPrefix.map _ ((List.prefix_cons_inj _).mpr ⟨_, List.range_add.symm⟩)
    have hmaj := hfirst _ hprefix (by
      rw [voted_new, Finset.empty_union, hids]
      obtain ⟨h0, h1, h2⟩ := words_eq (n := n) (k := 43691) (by omega)
      refine ⟨Nat.succ_pos 2, fun s q hq => ?_⟩
      rw [hreq] at hq
      rcases s with _ | _ | _ | s <;> cases hq
      · rw [h0]; decide
      · rw [h1, ← hn]; decide
      · rw [h2]; decide)
    rw [superMajority]
    cases hm : s.2.maj23TsHash with
    | none => rw [hm] at hmaj; cases hmaj
    | some _ => rfl
  · obtain ⟨-, hq⟩ | ⟨e, herr, -⟩ :=
      ICSCommittee.quorumStage_eq (c := committee n) (Nat.succ_pos 2) hlist
    · have hlt : ∀ i ∈ votedList (committee n) s.2, i < 2 ^ 31 := by
        intro i hi
        obtain rfl | hi := List.mem_cons.mp ((hmem i).mp hi)
        · omega
        · have := List.mem_range.mp hi
          omega
      rw [ICSCommittee.counted_eq_words (votedList_nodup _ _) hlt,
        votedList_toFinset hc.toTallied, hvoted] at hq
      have hle := hq.2 1 43691 (by rw [hreq]; rfl)
      rw [(words_eq le_rfl).2.1, ← hn] at hle
      exact absurd hle (by decide)
    · exact ⟨e, herr⟩

end Repeated

/-! ## 3. A committee of five -/

/-- A codec of one byte for each field. -/
def byteCodec : Codec where
  polorizeBody _ := .ok []
  polorizeVote v := .ok [UInt8.ofNat v.type.val.toNat, UInt8.ofNat v.view.toNat,
    UInt8.ofNat v.tsHash.bits.toNat]
  blake2b raw := ⟨BitVec.ofNat 256 raw.length⟩

/-- A context set of one validator and a random set of four, of which three are required. -/
def fiveNodes : ICSCommittee :=
  (ICSCommittee.new.appendNodeSet ⟨1⟩ (some (NodeSet.new [⟨0, [1], listKey 0⟩] 1))).appendNodeSet
    nilHash (some (NodeSet.new [⟨1, [2], listKey 1⟩, ⟨2, [3], listKey 2⟩, ⟨3, [4], listKey 3⟩,
      ⟨4, [5], listKey 4⟩] 4))

/-- The prevote of index `i` for the hash 7 in view 1. -/
def prevote (i : Nat) : Vote :=
  ⟨PREVOTE, false, 1, Int32.ofInt i, ⟨7⟩, none, [4, 1, UInt8.ofNat i]⟩

/-- Signatures over the bytes of that prevote. -/
def prevotePrims : Primitives := listPrims [2, 1, 7]

theorem prevote_takes {i : Nat} (hi : i < 5) :
    VoteSet.Takes byteCodec prevotePrims fiveNodes 1 PREVOTE ⟨7⟩ (prevote i) i where
  index := int32_of_lt (by omega)
  lt := by
    have : fiveNodes.totalNodes = 5 := rfl
    omega
  known := by
    revert i
    decide
  verified := ⟨[2, 1, 7], rfl, by
    revert i
    decide⟩
  view_eq := rfl
  type_eq := rfl
  hash_eq := rfl

/-- The votes of four validators, taken as a quorum by both sides. -/
theorem four_prevotes_agree :
    ∃ s, Run (VoteSet.Step byteCodec prevotePrims) (VoteSet.start fiveNodes 1 PREVOTE)
        (VoteSet.feed ⟨7⟩ ([2, 0, 3, 1].map fun i => (prevote i, i))) s ∧
      s.2.superMajority.2 = true ∧
      ∃ keys, fiveNodes.quorumStage (some ⟨5, [15]⟩) = .ok (.ok keys) := by
  have htakes : ∀ p ∈ [2, 0, 3, 1].map (fun i => (prevote i, i)),
      VoteSet.Takes byteCodec prevotePrims fiveNodes 1 PREVOTE ⟨7⟩ p.1 p.2 := by
    intro p hp
    obtain ⟨i, hi, rfl⟩ := List.mem_map.mp hp
    have hlt : ∀ j ∈ [2, 0, 3, 1], j < 5 := by decide
    exact prevote_takes (hlt i hi)
  obtain ⟨s, hrun, hiff⟩ := VoteSet.feed_majority_iff_quorumStage (listPrims_aggregates _) fiveNodes
    1 PREVOTE ⟨7⟩ _ htakes ⟨5, [15]⟩ [0, 1, 2, 3] (by decide) (by simp; omega)
    (ICSCommittee.unwrapped_of_length (by decide))
  exact ⟨s, hrun, hiff.mpr ⟨_, rfl⟩, _, rfl⟩

end GoMoi
