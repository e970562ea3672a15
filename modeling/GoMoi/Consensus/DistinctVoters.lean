/-
  File:      GoMoi/Consensus/DistinctVoters.lean
  Subject:   Does a counter of a vote set count distinct validators?

  A vote is kept once for each flat index, and the index is not part of what is signed. A validator
  that sits in two sets owns two indices, and its one signature can be delivered for both. The
  first credits its own set and every later context set with the validator, the second credits
  its own set again: that set counts the validator twice.

  * **`countsDistinct_iff`** -- the counters of a committee never exceed the distinct validators
    with a verified signature, in any run, exactly if the committee's flat indices are separated:
    no index credits a set twice, and two indices of one validator credit no common set;
  * `shared_member_counted_twice` -- one validator alone meets a quorum of two.
-/
import GoMoi.Consensus.VoteFeed

namespace GoMoi

open VoteSet List

namespace VoteSet

/-! ## 1. Verified signatures -/

/-- The hash the caller expects. -/
def Event.expected : Event → Hash
  | .addVote _ h => h
  | .addQc _ h => h

/-- The call brings a verified signature for index `i`. -/
def Delivers (C : Codec) (P : Primitives) (c : ICSCommittee) (e : Event) (i : Nat) : Prop :=
  (∃ v h, e = .addVote (some v) h ∧ ValidVote C P c v i) ∨
    ∃ v h l, e = .addQc (some v) h ∧ ValidQc C P c v l ∧ i ∈ l

/-- ... over the hash its caller expects. -/
def Supports (C : Codec) (P : Primitives) (c : ICSCommittee) (e : Event) (i : Nat) : Prop :=
  (∃ v h, e = .addVote (some v) h ∧ ValidVote C P c v i ∧ v.tsHash = h) ∨
    ∃ v h l, e = .addQc (some v) h ∧ ValidQc C P c v l ∧ i ∈ l ∧ v.tsHash = h

variable {C : Codec} {P : Primitives} {c : ICSCommittee} {e : Event} {i : Nat}

theorem Supports.delivers (h : Supports C P c e i) : Delivers C P c e i := by
  rcases h with ⟨v, h, he, hv, _⟩ | ⟨v, h, l, he, hv, hi, _⟩
  · exact .inl ⟨v, h, he, hv⟩
  · exact .inr ⟨v, h, l, he, hv, hi⟩

/-- The flat indices of known validators that an `int32` can name. -/
def nameable (c : ICSCommittee) : Finset Nat :=
  (Finset.range c.totalNodes).filter fun i => i < 2 ^ 31 ∧ c.ownerOf i ≠ []

theorem mem_nameable : i ∈ nameable c ↔ i < c.totalNodes ∧ i < 2 ^ 31 ∧ c.ownerOf i ≠ [] := by
  rw [nameable, Finset.mem_filter, Finset.mem_range]

theorem Delivers.nameable (h : Delivers C P c e i) : i ∈ nameable c := by
  rw [mem_nameable]
  rcases h with ⟨v, _, _, hv⟩ | ⟨v, _, l, _, hv, hi⟩
  · exact ⟨hv.lt, hv.lt_int32, hv.known⟩
  · exact ⟨hv.lt i hi, hv.lt_int32 hi, hv.known i hi⟩

/-! ## 2. The step and the run -/

/-- **The step**: a call adds only indices it supports, and a majority only for its hash. -/
theorem call_supports {s s' : ClusterState × VoteSet} (hs : Counted c s) (h : Step C P s e s') :
    Counted c s' ∧ (∀ i ∈ s'.2.voted, i ∈ s.2.voted ∨ Supports C P c e i) ∧
      (s'.2.maj23TsHash = s.2.maj23TsHash ∨ s'.2.maj23TsHash = some e.expected) := by
  obtain ⟨_, _⟩ := s'
  obtain ⟨_, _, hcall⟩ := h
  cases e with
  | addVote v expected =>
    rcases addVote_spec hs hcall with
      ⟨rfl, rfl, _, _⟩ | ⟨vote, i, rfl, hvalid, _, _, hhash, _, hacc⟩
    · exact ⟨hs, fun i hi => .inl hi, .inl rfl⟩
    have hsup : Supports C P c (.addVote (some vote) expected) i :=
      .inl ⟨vote, expected, rfl, hvalid, hhash⟩
    rcases hacc with ⟨_, heq⟩ | hadded
    · cases heq
      exact ⟨hs, fun j hj => .inl hj, .inl rfl⟩
    refine ⟨hadded.counted, fun j hj => ?_, ?_⟩
    · rw [hadded.voted, Finset.mem_insert] at hj
      rcases hj with rfl | hj
      · exact .inr hsup
      · exact .inl hj
    · rcases hadded.majority with ⟨hkeep, _⟩ | ⟨_, hnew, _⟩
      · exact .inl hkeep
      · exact .inr (by rw [hnew, hhash]; rfl)
  | addQc v expected =>
    rcases addQc_spec hs hcall with ⟨rfl, rfl, _⟩ | ⟨vote, l, rfl, hvalid, hhash, hrun⟩
    · exact ⟨hs, fun i hi => .inl hi, .inl rfl⟩
    obtain ⟨hc, hvoted, _, _, hmaj⟩ := acceptedRun_spec hs hrun
    refine ⟨hc, fun i hi => ?_, ?_⟩
    · rw [hvoted, Finset.mem_union, mem_toFinset] at hi
      exact hi.imp_right fun hl => .inr ⟨vote, expected, l, rfl, hvalid, hl, hhash⟩
    · rw [hhash] at hmaj
      exact hmaj.imp And.left fun h => h.2.1

/-- **The run**: every index that holds a vote was supported by a call, and a majority is for a
    hash that a caller expected. -/
theorem run_supports {view : UInt64} {t : ConsensusMsgType} {es : List Event}
    {s : ClusterState × VoteSet} (h : Run (Step C P) (start c view t) es s) :
    Counted c s ∧ (∀ i ∈ s.2.voted, ∃ e ∈ es, Supports C P c e i) ∧
      ∀ m, s.2.maj23TsHash = some m → ∃ e ∈ es, e.expected = m := by
  apply h.invariant
  · refine ⟨counted_new c view t, fun i hi => ?_, nofun⟩
    have hi' : i ∈ (new view t (ClusterState.new c)).voted := hi
    rw [voted_new] at hi'
    cases hi'
  rintro _ s e _ ⟨hc, hsup, hmaj⟩ hstep
  obtain ⟨hc', hsup', hmaj'⟩ := call_supports hc hstep
  refine ⟨hc', fun i hi => ?_, fun m hm => ?_⟩
  · rcases hsup' i hi with hold | hnew
    · obtain ⟨e', he', h'⟩ := hsup i hold
      exact ⟨e', mem_append_left _ he', h'⟩
    · exact ⟨e, by simp, hnew⟩
  rcases hmaj' with hkeep | hnew
  · obtain ⟨e', he', h'⟩ := hmaj m (by rw [← hkeep, hm])
    exact ⟨e', mem_append_left _ he', h'⟩
  · rw [hnew, Option.some.injEq] at hm
    exact ⟨e, by simp, hm⟩

/-! ## 3. Counters and distinct validators -/

/-- The validators a set lists. -/
def members (c : ICSCommittee) (s : Nat) : Finset KramaID :=
  ((c.sets[s]?).map (·.kramaIDs.toFinset)).getD ∅

variable {s : Nat} {l : List Nat} {k : KramaID}

theorem ownerOf_mem_members (h : s ∈ c.slotsOf i) : c.ownerOf i ∈ members c s := by
  obtain ⟨_, hset, hk⟩ := ICSCommittee.slotsOf_mem h
  simp [members, hset, hk]

open Classical in
/-- The validators of a set with a verified signature among the calls. -/
noncomputable def verifiedMembers (C : Codec) (P : Primitives) (c : ICSCommittee)
    (es : List Event) (s : Nat) : Finset KramaID :=
  (members c s).filter fun k => ∃ e ∈ es, ∃ i, Delivers C P c e i ∧ c.ownerOf i = k

/-- What it means that the holder of a key signed some bytes, as far as verification tells. -/
structure Sound (P : Primitives) (Signed : Bytes → Bytes → Prop) : Prop where
  single : ∀ raw sig key, Crypto.verify P raw sig key = .ok (true, none) → Signed key raw
  aggregate : ∀ raw sig keys, Crypto.verifyAggregateSignature P raw sig keys = (true, none) →
    ∀ key ∈ keys, Signed key raw

open Classical in
/-- The validators of a set whose key signed a vote for a hash. -/
noncomputable def votersFor (C : Codec) (Signed : Bytes → Bytes → Prop) (c : ICSCommittee)
    (s : Nat) (h : Hash) : Finset KramaID :=
  (members c s).filter fun k => ∃ i, c.ownerOf i = k ∧
    ∃ cv raw, cv.tsHash = h ∧ C.polorizeVote cv = .ok raw ∧ Signed (c.keyOf i) raw

/-- No counter exceeds the distinct validators of its set with a verified signature. -/
def CountBounded (C : Codec) (P : Primitives) (c : ICSCommittee) (es : List Event)
    (vs : VoteSet) : Prop :=
  ∀ s n, vs.sum[s]? = some n → n.toNat ≤ (verifiedMembers C P c es s).card

/-- A supermajority reached by calls for one hash is for that hash, and of each set the required
    number of distinct validators signed a vote for it. -/
def MajoritySound (C : Codec) (P : Primitives) (c : ICSCommittee) (es : List Event)
    (vs : VoteSet) : Prop :=
  ∀ Signed, Sound P Signed → ∀ h, (∀ e ∈ es, e.expected = h) →
    ∀ m, vs.superMajority = (m, true) → m = h ∧
      ∀ s q, c.requiredVotes[s]? = some q → q.toNat ≤ (votersFor C Signed c s h).card

/-- In every run of a vote set of this committee, whatever is signed and called. -/
def CountsDistinct (c : ICSCommittee) : Prop :=
  ∀ C P view t es s, Run (Step C P) (start c view t) es s →
    CountBounded C P c es s.2 ∧ MajoritySound C P c es s.2

/-- A supported index is signed for by its key. -/
theorem Supports.signed {Signed : Bytes → Bytes → Prop} (hsound : Sound P Signed)
    (h : Supports C P c e i) :
    ∃ cv raw, cv.tsHash = e.expected ∧ C.polorizeVote cv = .ok raw ∧ Signed (c.keyOf i) raw := by
  rcases h with ⟨v, h, rfl, hv, hh⟩ | ⟨v, h, l, rfl, hv, hi, hh⟩
  · obtain ⟨raw, hraw, hverify⟩ := hv.verified
    exact ⟨v.canonical, raw, hh, signBytes_ok hraw, hsound.single _ _ _ hverify⟩
  · obtain ⟨raw, hraw, hverify⟩ := hv.verified
    exact ⟨v.canonical, raw, hh, signBytes_ok hraw,
      hsound.aggregate _ _ _ hverify _ (mem_map.mpr ⟨i, hi, rfl⟩)⟩

/-- What a vote for index `i` adds to the counter of a set, in 32 bits. -/
def credit (c : ICSCommittee) (i s : Nat) : Nat := (c.slotsOf i).count s % 2 ^ 32

theorem mem_slotsOf_of_credit (h : credit c i s ≠ 0) : s ∈ c.slotsOf i := by
  by_contra hs
  exact h (by rw [credit, count_eq_zero_of_not_mem hs, Nat.zero_mod])

/-- The words of separated indices are at most the number of their owners. -/
theorem words_le_card_owners {I : Finset Nat} (h : Separated (credit c) c.ownerOf I) (s : Nat)
    {O : Finset KramaID} (hO : ∀ i ∈ I, s ∈ c.slotsOf i → c.ownerOf i ∈ O) :
    c.words I s ≤ O.card :=
  (tally_mod_le _ _ _ _).trans
    (sum_le_card_owners h s fun i hi hcredit => hO i hi (mem_slotsOf_of_credit hcredit))

theorem countsDistinct_of_separated (hsep : Separated (credit c) c.ownerOf (nameable c)) :
    CountsDistinct c := by
  intro C P view t es s hrun
  obtain ⟨hc, hsup, hmaj⟩ := run_supports hrun
  have hvoted : Separated (credit c) c.ownerOf s.2.voted := hsep.subset fun i hi => by
    obtain ⟨e, _, he⟩ := hsup i hi
    exact he.delivers.nameable
  constructor
  · intro j n hn
    have hj : j < c.size := by
      rw [← hc.sum_length]
      exact (List.getElem?_eq_some_iff.mp hn).1
    rw [hc.sum_eq j hj, Option.some.injEq] at hn
    subst hn
    rw [UInt32.toNat_ofNat']
    refine words_le_card_owners hvoted j fun i hi hslot => ?_
    obtain ⟨e, he, hs⟩ := hsup i hi
    classical
    exact Finset.mem_filter.mpr ⟨ownerOf_mem_members hslot, e, he, i, hs.delivers, rfl⟩
  · intro Signed hsound h hall m hm
    have hsome : s.2.maj23TsHash = some m := by
      unfold superMajority at hm
      split at hm
      · cases hm
        assumption
      · cases hm
    obtain ⟨e, he, rfl⟩ := hmaj m hsome
    refine ⟨hall e he, fun j q hq => ?_⟩
    obtain ⟨I, hI, hquorate⟩ := hc.frozen (by rw [hsome]; rfl)
    refine (hquorate.2 j q hq).trans
      (words_le_card_owners (hvoted.subset hI) j fun i hi hslot => ?_)
    obtain ⟨e', he', hs⟩ := hsup i (hI hi)
    obtain ⟨cv, raw, hh, hraw, hsigned⟩ := hs.signed hsound
    classical
    exact Finset.mem_filter.mpr ⟨ownerOf_mem_members hslot, i, rfl, cv, raw,
      hh.trans (hall e' he'), hraw, hsigned⟩

/-! ## 4. The condition is exact -/

/-- A codec and curve packages under which every vote verifies, to deliver any index. -/
def anyCodec : Codec where
  polorizeBody _ := .ok []
  polorizeVote _ := .ok []
  blake2b _ := nilHash

def anyPrims : Primitives where
  verifyCompressed _ _ _ := true
  aggregate _ := .ok []
  fastAggregateVerify _ _ _ := true
  secp256k1Verify _ _ _ := (true, none)

def anyVote (i : Nat) : Vote := ⟨PREVOTE, false, 0, Int32.ofInt i, nilHash, none, [1, 0]⟩

theorem anyVote_takes (hi : i ∈ nameable c) :
    Takes anyCodec anyPrims c 0 PREVOTE nilHash (anyVote i) i := by
  obtain ⟨hlt, h31, hknown⟩ := mem_nameable.mp hi
  exact { index := int32_of_lt h31, lt := hlt, known := hknown, verified := ⟨[], rfl, rfl⟩,
          view_eq := rfl, type_eq := rfl, hash_eq := rfl }

theorem anyVote_delivers {j : Nat} (hi : i < 2 ^ 31)
    (h : Delivers anyCodec anyPrims c (.addVote (some (anyVote i)) nilHash) j) : j = i := by
  rcases h with ⟨v, h, he, hv⟩ | ⟨v, h, l, he, _⟩
  · cases he
    have hindex : (anyVote i).signerIndex.toInt = i := int32_of_lt hi
    have := hv.index
    omega
  · cases he

/-- The calls for a list of flat indices, and what they lead to. -/
theorem anyVote_run (l : List Nat) (hl : ∀ i ∈ l, i ∈ nameable c) :
    ∃ s, Run (Step anyCodec anyPrims) (start c 0 PREVOTE)
        (feed nilHash (l.map fun i => (anyVote i, i))) s ∧ Counted c s ∧
      s.2.voted = l.toFinset := by
  have htakes : ∀ p ∈ l.map (fun i => (anyVote i, i)),
      Takes anyCodec anyPrims c 0 PREVOTE nilHash p.1 p.2 := by
    intro p hp
    obtain ⟨i, hi, rfl⟩ := mem_map.mp hp
    exact anyVote_takes (hl i hi)
  obtain ⟨s, hrun, hc, hvoted, -⟩ := feed_run (fun _ _ => ⟨[], rfl⟩) _ htakes
    (counted_new c 0 PREVOTE) (readable_new 0 PREVOTE (ClusterState.new c)) rfl rfl
  refine ⟨s, hrun, hc, ?_⟩
  rw [hvoted, voted_new, Finset.empty_union, map_map]
  congr 1
  exact map_id l

/-- The owners of the delivered indices are those of the list. -/
theorem verifiedMembers_anyVote (hl : ∀ i ∈ l, i ∈ nameable c)
    (hk : k ∈ verifiedMembers anyCodec anyPrims c
      (feed nilHash (l.map fun i => (anyVote i, i))) s) : ∃ i ∈ l, c.ownerOf i = k := by
  classical
  obtain ⟨_, e, he, j, hj, hown⟩ := Finset.mem_filter.mp hk
  obtain ⟨p, hp, rfl⟩ := mem_map.mp he
  obtain ⟨i, hi, rfl⟩ := mem_map.mp hp
  have hji : j = i := anyVote_delivers (mem_nameable.mp (hl i hi)).2.1 hj
  exact ⟨i, hi, by rw [← hji]; exact hown⟩

/-- Indices of one owner credit a set at most once. -/
theorem words_le_one (hdist : CountsDistinct c) (hl : ∀ i ∈ l, i ∈ nameable c)
    (hown : ∀ i ∈ l, c.ownerOf i = k) (s : Nat) : c.words l.toFinset s ≤ 1 := by
  by_cases hs : s < c.size
  swap
  · have hzero : tally c.slotsOf l.toFinset s = 0 := by
      refine Finset.sum_eq_zero fun i _ => count_eq_zero_of_not_mem fun h => hs ?_
      obtain ⟨_, hset, _⟩ := ICSCommittee.slotsOf_mem h
      rw [c.size_eq]
      exact (List.getElem?_eq_some_iff.mp hset).1
    rw [ICSCommittee.words, hzero]
    exact Nat.zero_le 1
  obtain ⟨_, hrun, hc, hvoted⟩ := anyVote_run l hl
  have hbound := (hdist _ _ _ _ _ _ hrun).1 s _ (hc.sum_eq s hs)
  rw [hvoted, UInt32.toNat_ofNat'] at hbound
  refine hbound.trans (Finset.card_le_one.mpr fun a ha b hb => ?_)
  obtain ⟨i, hi, rfl⟩ := verifiedMembers_anyVote hl ha
  obtain ⟨j, hj, rfl⟩ := verifiedMembers_anyVote hl hb
  rw [hown i hi, hown j hj]

/-- **The counters of a committee count distinct validators exactly if its flat indices are
    separated.** -/
theorem countsDistinct_iff (c : ICSCommittee) :
    CountsDistinct c ↔ Separated (credit c) c.ownerOf (nameable c) := by
  refine ⟨fun hdist => ?_, countsDistinct_of_separated⟩
  have honce : ∀ i ∈ nameable c, ∀ s, credit c i s ≤ 1 := by
    intro i hi s
    have hone := words_le_one hdist (l := [i]) (k := c.ownerOf i) (by simpa using hi) (by simp) s
    simpa [ICSCommittee.words, tally, credit] using hone
  refine ⟨honce, fun i hi j hj hne hown s => ?_⟩
  -- the two indices together credit the set twice
  have hone := words_le_one hdist (l := [i, j]) (k := c.ownerOf i)
    (by simpa using ⟨hi, hj⟩) (by simp [hown]) s
  rw [ICSCommittee.words, tally_toFinset _ (by simpa using hne)] at hone
  have hi1 := honce i hi s
  have hj1 := honce j hj s
  simp only [map_cons, map_nil, sum_cons, sum_nil, Nat.add_zero] at hone
  unfold credit at hi1 hj1 ⊢
  omega

end VoteSet

/-- A validator `[1]` in two context sets, the second of which also lists `[2]` and so requires two
    votes, and `[3]` as the random set. -/
def sharedMember : ICSCommittee :=
  ((ICSCommittee.new.appendNodeSet ⟨1⟩ (some (NodeSet.new [⟨0, [1], []⟩] 1))).appendNodeSet ⟨2⟩
    (some (NodeSet.new [⟨0, [1], []⟩, ⟨1, [2], []⟩] 2))).appendNodeSet nilHash
      (some (NodeSet.new [⟨2, [3], []⟩] 1))

/-- **One validator counts twice**: with the votes of `[1]` for both its indices and of `[3]` a
    supermajority is reported, though one validator of the second set voted and two are required. -/
theorem shared_member_counted_twice :
    ∃ (C : Codec) (P : Primitives) (es : List VoteSet.Event) (s : ClusterState × VoteSet),
      Run (VoteSet.Step C P) (start sharedMember 0 PREVOTE) es s ∧
        s.2.hasMajority = true ∧ sharedMember.requiredVotes[1]? = some 2 ∧
        s.2.sum[1]? = some 2 ∧ verifiedMembers C P sharedMember es 1 ⊆ {[1]} ∧
        ¬ VoteSet.CountsDistinct sharedMember := by
  have hl : ∀ i ∈ [0, 1, 3], i ∈ nameable sharedMember := by decide
  obtain ⟨s, hrun, hc, hvoted⟩ := anyVote_run [0, 1, 3] hl
  have htally : ∀ j < 3, tally sharedMember.slotsOf [0, 1, 3].toFinset j =
      [1, 2, 1].getD j 0 := by decide
  have hsum : s.2.sum[1]? = some 2 := by
    rw [hc.sum_eq 1 (by decide), hvoted, htally 1 (by decide)]
    rfl
  have hsub : verifiedMembers anyCodec anyPrims sharedMember
      (feed nilHash ([0, 1, 3].map fun i => (anyVote i, i))) 1 ⊆ {[1]} := by
    intro k hk
    have howner : ∀ i ∈ [0, 1, 3], sharedMember.ownerOf i ∈ members sharedMember 1 →
        sharedMember.ownerOf i = [1] := by decide
    obtain ⟨i, hi, rfl⟩ := verifiedMembers_anyVote hl hk
    classical
    exact Finset.mem_singleton.mpr (howner i hi (Finset.mem_filter.mp hk).1)
  refine ⟨_, _, _, s, hrun, ?_, rfl, hsum, hsub, fun hdist => ?_⟩
  · have hrequired : sharedMember.requiredVotes.map (·.toNat) = [1, 2, 1] := by decide
    refine hc.reached ⟨by decide, fun j q hq => ?_⟩
    have hj : j < 3 := (List.getElem?_eq_some_iff.mp hq).1
    have hmet : [1, 2, 1][j]? = some q.toNat := by
      rw [← hrequired, List.getElem?_map, hq]
      rfl
    have hword : sharedMember.words s.2.voted j = [1, 2, 1].getD j 0 := by
      rw [ICSCommittee.words, hvoted, htally j hj]
      have hsmall : ∀ k < 3, [1, 2, 1].getD k 0 % 2 ^ 32 = [1, 2, 1].getD k 0 := by decide
      exact hsmall j hj
    rw [hword, getD_eq_getElem?_getD, hmet]
    exact le_rfl
  · have hbound : 2 ≤ _ := (hdist _ _ _ _ _ _ hrun).1 1 2 hsum
    have := Finset.card_le_card hsub
    rw [Finset.card_singleton] at this
    omega

end GoMoi
