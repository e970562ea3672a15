/-
  File:      GoMoi/Consensus/Certificate.lean
  Subject:   Is the certificate of a vote set signed by exactly the indices it names?

  `GetQC` pairs the bit array of a vote set, as it is now, with the aggregate signature frozen when
  the quorum was first met. The two part ways
  -- when a vote arrives after the supermajority: its bit is set, its signature is in no aggregate;
  -- when a certificate completes the quorum over earlier votes: its signature is frozen, their
     bits stay set;
  -- when a vote completes the quorum over the signers of an earlier certificate: what is stored
     for these is the certificate's aggregate, which is no framed signature, and the aggregation
     fails with the supermajority recorded all the same.

  * **`run_certificateExact`** -- in every run of clean calls a reported supermajority has a
    certificate that names exactly the aggregated indices and that every peer verifies;
  * `late_vote_breaks_certificate` -- the fourth vote of four spoils the certificate of three.
-/
import GoMoi.Consensus.QuorumAgreement

namespace GoMoi

open VoteSet List Crypto ICSCommittee

namespace VoteSet

/-! ## 1. The indices that are aggregated -/

/-- The flat indices a certificate names. -/
def qcIndices (v : Vote) : List Nat :=
  match v.signerIndices with
  | none => []
  | some b => match b.getTrueIndices with
    | .error _ => []
    | .ok l => l.map fun i : Nat => (int32 i).toNat

/-- The indices whose signatures are in the aggregate that a call froze: those that hold a vote,
    if they could be aggregated, or those of the certificate. -/
def aggregatedBy (P : Primitives) (vs : VoteSet) : Event → Finset Nat
  | .addVote _ _ => match vs.aggregateSignatures P with
    | .ok (_, none) => vs.voted
    | _ => ∅
  | .addQc none _ => ∅
  | .addQc (some v) _ => (qcIndices v).toFinset

/-- A vote set with the indices that were aggregated. -/
abbrev Trace : Type := (ClusterState × VoteSet) × Finset Nat

/-- A call; when it is the one that freezes the aggregate, the aggregated indices are recorded. -/
def tracedCall (C : Codec) (P : Primitives) (x : Trace) (e : Event) : Go Trace := do
  let (cs, vs, _, _) ← call C P x.1 e
  pure ((cs, vs), if x.1.2.maj23TsHash = none ∧ vs.maj23TsHash ≠ none then aggregatedBy P vs e
    else x.2)

variable {C : Codec} {P : Primitives} {c : ICSCommittee} {l : List Nat} {s : ClusterState × VoteSet}

theorem ValidQc.qcIndices_eq {v : Vote} (h : ValidQc C P c v l) : qcIndices v = l := by
  obtain ⟨b, _, hb, hsigned, hmap⟩ := h.indices
  have hnat := congrArg (List.map Int.toNat) hmap
  simp only [map_map, Function.comp_def, Int.toNat_natCast, map_id'] at hnat
  simp [qcIndices, hb, hsigned, hnat]

/-! ## 2. Calls that keep the certificate exact -/

/-- A call that brings a vote for an index without one finds no supermajority; and if it completes
    the quorum, then no count wraps with it, and
    -- as a vote: it and every stored vote are BLS signatures of their indices over its bytes;
    -- as a certificate: it is for the view and type of the set and names every index that holds a
       vote, none of them twice. -/
def Clean (C : Codec) (P : Primitives) (c : ICSCommittee) (s : ClusterState × VoteSet) :
    Event → Prop
  | .addVote v h => ∀ vote i, v = some vote → Takes C P c s.2.view s.2.voteType h vote i →
      i ∉ s.2.voted → s.2.maj23TsHash = none ∧
        (c.Quorate (tally c.slotsOf (insert i s.2.voted)) → c.Unwrapped (insert i s.2.voted) ∧
          ∀ raw, vote.signBytes C = .ok raw →
            Crypto.BlsSigned P raw vote.signature (c.keyOf i) ∧
              ∀ (j : Nat) (w : Vote), s.2.votes[j]? = some (some w) →
                Crypto.BlsSigned P raw w.signature (c.keyOf j))
  | .addQc v h => ∀ vote l, v = some vote → ValidQc C P c vote l → vote.tsHash = h →
      (∃ i ∈ l, i ∉ s.2.voted) → s.2.maj23TsHash = none ∧
        (c.Quorate (tally c.slotsOf (s.2.voted ∪ l.toFinset)) →
          c.Unwrapped (s.2.voted ∪ l.toFinset) ∧ vote.view = s.2.view ∧
            vote.type = s.2.voteType ∧ l.Nodup ∧ ∀ i ∈ s.2.voted, i ∈ l)

/-! ## 3. The invariant -/

/-- The frozen aggregate holds the signers of the indices `I`, for the hash `h`. -/
def Holds (C : Codec) (signedBy : Bytes → Multiset (Bytes × Bytes)) (c : ICSCommittee)
    (vs : VoteSet) (h : Hash) (I : Finset Nat) : Prop :=
  ∃ raw, C.polorizeVote ⟨vs.voteType, vs.view, h⟩ = .ok raw ∧
    (∀ i ∈ I, (c.keyOf i).length = blsPublicKeyLength) ∧
    signedBy vs.maj23aggSignature = I.val.map fun i => (c.keyOf i, raw)

/-- **The invariant**: a recorded majority has an aggregate of the indices that hold a vote, and
    their counts have not wrapped. -/
structure Certified (C : Codec) (signedBy : Bytes → Multiset (Bytes × Bytes)) (c : ICSCommittee)
    (x : Trace) : Prop where
  counted : Counted c x.1
  lt_int32 : ∀ i ∈ x.1.2.voted, i < 2 ^ 31
  aggregated : ∀ h, x.1.2.maj23TsHash = some h → x.2 = x.1.2.voted ∧
    Holds C signedBy c x.1.2 h x.1.2.voted ∧ c.Unwrapped x.1.2.voted

variable {signedBy : Bytes → Multiset (Bytes × Bytes)}

theorem certified_new (c : ICSCommittee) (view : UInt64) (t : ConsensusMsgType) :
    Certified C signedBy c (start c view t, ∅) where
  counted := counted_new c view t
  lt_int32 i hi := by
    have hi' : i ∈ (new view t (ClusterState.new c)).voted := hi
    rw [voted_new] at hi'
    cases hi'
  aggregated h hm := by cases hm

variable {vote : Vote} {x : Trace} {e : Event}

/-- A vote that completes the quorum over BLS signatures of its own bytes. -/
theorem vote_holds (hP : P.Ideal signedBy) {s' : ClusterState × VoteSet} {i : Nat}
    (hadded : Added P c s vote i false s') (hi : i < c.totalNodes) {raw : Bytes}
    (hraw : vote.signBytes C = .ok raw) (hview : vote.view = s.2.view)
    (htype : vote.type = s.2.voteType) (hnew : Crypto.BlsSigned P raw vote.signature (c.keyOf i))
    (hold : ∀ (j : Nat) (w : Vote), s.2.votes[j]? = some (some w) →
      Crypto.BlsSigned P raw w.signature (c.keyOf j)) {r : VoteSet}
    (hrec : Recorded c s'.1 s.2 vote i r)
    (hagg : r.majoritySignature P vote false = .ok s'.2.maj23aggSignature) :
    aggregatedBy P s'.2 (.addVote (some vote) vote.tsHash) = s'.2.voted ∧
      Holds C signedBy c s'.2 vote.tsHash s'.2.voted := by
  have hpos : 0 < c.totalNodes := by omega
  have hvotes : s'.2.votes = r.votes := by rw [hadded.votes, hrec.votes]
  have hvoted : s'.2.voted = r.voted := by rw [hadded.voted, hrec.voted]
  have hsigned : ∀ j ∈ votedList c r, Crypto.BlsSigned P raw (r.signatureAt j) (c.keyOf j) := by
    intro j hj
    obtain ⟨w, hw⟩ := mem_voted.mp ((mem_votedList hrec.tallied).mp hj)
    rw [signatureAt_eq hw]
    rw [hrec.votes, List.getElem?_set] at hw
    split at hw
    · rename_i hij
      split at hw
      · cases hw
        exact hij ▸ hnew
      · cases hw
    · exact hold j w hw
  have hne : votedList c r ≠ [] := by
    refine ne_nil_of_mem ((mem_votedList hrec.tallied (i := i)).mpr ?_)
    rw [hrec.voted]
    exact Finset.mem_insert_self _ _
  -- the recorded set and the returned one store the same votes, so they aggregate the same
  have hcall : s'.2.aggregateSignatures P = r.aggregateSignatures P := by
    rw [aggregateSignatures_eq P hadded.counted.toTallied hpos,
      aggregateSignatures_eq P hrec.tallied hpos, votedList, votedList, hvoted]
    congr 1
    refine map_congr_left fun j _ => ?_
    rw [signatureAt, signatureAt, hvotes]
  rw [majoritySignature, if_neg (by simp), Go.bind_eq_ok] at hagg
  obtain ⟨⟨agg, err⟩, hret, hsig⟩ := hagg
  have hsig' : agg = s'.2.maj23aggSignature := Except.ok.inj hsig
  rw [aggregateSignatures_eq P hrec.tallied hpos] at hret
  obtain ⟨rfl, hholds⟩ := aggregateSignatures_signed hP hne hsigned hret
  refine ⟨?_, raw, ?_, ?_, ?_⟩
  · rw [aggregatedBy, hcall, aggregateSignatures_eq P hrec.tallied hpos, hret]
  · rw [hadded.view, hadded.voteType, ← hview, ← htype]
    exact signBytes_ok hraw
  · intro j hj
    rw [hvoted, ← mem_votedList hrec.tallied] at hj
    exact (hsigned j hj).key_length
  · rw [← hsig', hholds, hvoted, ← votedList_toFinset hrec.tallied, toFinset_val,
      dedup_eq_self.mpr (votedList_nodup c r)]
    rfl

/-- A certificate that completes the quorum and names every index that holds a vote. -/
theorem qc_holds (hP : P.Ideal signedBy) {vs' : VoteSet} (hvalid : ValidQc C P c vote l)
    (hview : vote.view = s.2.view) (htype : vote.type = s.2.voteType) (hnodup : l.Nodup)
    (hsub : ∀ i ∈ s.2.voted, i ∈ l) (hvoted : vs'.voted = s.2.voted ∪ l.toFinset)
    (hview' : vs'.view = s.2.view) (htype' : vs'.voteType = s.2.voteType)
    (hsig : vs'.maj23aggSignature = vote.signature) :
    aggregatedBy P vs' (.addQc (some vote) vote.tsHash) = vs'.voted ∧
      Holds C signedBy c vs' vote.tsHash vs'.voted := by
  have hset : vs'.voted = l.toFinset := by
    rw [hvoted, Finset.union_eq_right]
    exact fun i hi => mem_toFinset.mpr (hsub i hi)
  obtain ⟨raw, hraw, hverify⟩ := hvalid.verified
  have hfast := verifyAggregateSignature_true P (congrArg Prod.fst hverify)
  refine ⟨by rw [aggregatedBy, hvalid.qcIndices_eq, hset], raw, ?_, ?_, ?_⟩
  · rw [hview', htype', ← hview, ← htype]
    exact signBytes_ok hraw
  · intro i hi
    rw [hset, mem_toFinset] at hi
    exact verifyAggregateSignature_length P hverify _ (mem_map.mpr ⟨i, hi, rfl⟩)
  · rw [hsig, (hP.fast _ _ _).mp hfast.1, hset, toFinset_val, dedup_eq_self.mpr hnodup, map_map]
    rfl

/-! ## 4. The step and the run -/

theorem Certified.same {I : Finset Nat} (hx : Certified C signedBy c x) (hs : s = x.1)
    (hI : I = if x.1.2.maj23TsHash = none ∧ s.2.maj23TsHash ≠ none then aggregatedBy P s.2 e
      else x.2) : Certified C signedBy c (s, I) := by
  subst hs
  rw [if_neg fun h => h.2 h.1] at hI
  subst hI
  exact hx

/-- **The step**: a clean call keeps the certificate exact. -/
theorem traced_certified (hP : P.Ideal signedBy) {y : Trace} (hx : Certified C signedBy c x)
    (hclean : Clean C P c x.1 e) (h : tracedCall C P x e = .ok y) : Certified C signedBy c y := by
  obtain ⟨⟨cs, vs⟩, I⟩ := x
  rw [tracedCall, Go.bind_eq_ok] at h
  obtain ⟨⟨cs', vs', added, err⟩, hcall, hret⟩ := h
  cases hret
  have hcounted : Counted c (cs, vs) := hx.counted
  cases e with
  | addVote v expected =>
    rcases addVote_spec hcounted hcall with
      ⟨rfl, rfl, _, _⟩ | ⟨vote, i, rfl, hvalid, hview, htype, hhash, _, hacc⟩
    · exact hx.same rfl rfl
    rcases hacc with ⟨_, heq⟩ | hadded
    · exact hx.same heq rfl
    obtain ⟨hnone, hquorum⟩ :=
      hclean vote i rfl { hvalid with view_eq := hview, type_eq := htype, hash_eq := hhash }
        hadded.free
    have hlt : ∀ j ∈ vs'.voted, j < 2 ^ 31 := by
      intro j hj
      rw [hadded.voted, Finset.mem_insert] at hj
      rcases hj with rfl | hj
      · exact hvalid.lt_int32
      · exact hx.lt_int32 j hj
    refine ⟨hadded.counted, hlt, fun m hm => ?_⟩
    rcases hadded.majority with ⟨hkeep, _⟩ | ⟨_, hnew, r, hrec, hagg⟩
    · rw [hkeep, hnone] at hm
      cases hm
    obtain ⟨I, hI, hq⟩ := hadded.counted.frozen (by rw [hnew]; rfl)
    rw [hadded.voted] at hI
    obtain ⟨raw, hraw, _⟩ := hvalid.verified
    obtain ⟨hfit, hsigned⟩ := hquorum (hq.of_words hI)
    obtain ⟨hbls, hstored⟩ := hsigned raw hraw
    obtain ⟨hby, hholds⟩ :=
      vote_holds hP hadded hvalid.lt hraw hview htype hbls hstored hrec hagg
    obtain rfl : vote.tsHash = m := by rwa [hnew, Option.some.injEq] at hm
    refine ⟨?_, hholds, by rwa [← hadded.voted] at hfit⟩
    rw [if_pos ⟨hnone, by rw [hnew]; simp⟩]
    exact hby
  | addQc v expected =>
    rcases addQc_spec hcounted hcall with
      ⟨rfl, rfl, _⟩ | ⟨vote, l, rfl, hvalid, hhash, hrun⟩
    · exact hx.same rfl rfl
    obtain ⟨hc', hvoted, hview', htype', hmaj⟩ := acceptedRun_spec hcounted hrun
    by_cases hnewIndex : ∃ i ∈ l, i ∉ vs.voted
    · obtain ⟨hnone, hquorum⟩ := hclean vote l rfl hvalid hhash hnewIndex
      have hlt : ∀ j ∈ vs'.voted, j < 2 ^ 31 := by
        intro j hj
        rw [hvoted, Finset.mem_union, mem_toFinset] at hj
        rcases hj with hj | hj
        · exact hx.lt_int32 j hj
        · exact hvalid.lt_int32 hj
      refine ⟨hc', hlt, fun m hm => ?_⟩
      rcases hmaj with ⟨hkeep, _⟩ | ⟨_, hnew, hsig⟩
      · rw [hkeep, hnone] at hm
        cases hm
      obtain ⟨I, hI, hq⟩ := hc'.frozen (by rw [hnew]; rfl)
      rw [hvoted] at hI
      obtain ⟨hfit, hview, htype, hnodup, hsub⟩ := hquorum (hq.of_words hI)
      obtain ⟨hby, hholds⟩ :=
        qc_holds hP hvalid hview htype hnodup hsub hvoted hview' htype' hsig
      obtain rfl : vote.tsHash = m := by rwa [hnew, Option.some.injEq] at hm
      refine ⟨?_, hholds, by rwa [← hvoted] at hfit⟩
      rw [if_pos ⟨hnone, by rw [hnew]; simp⟩]
      exact hby
    · -- every index of the certificate is taken: the loop changes nothing
      simp only [not_exists, not_and, not_not] at hnewIndex
      exact hx.same (acceptedRun_taken hnewIndex hrun) rfl

/-- A reported supermajority has a certificate that names exactly the aggregated indices, and that
    verifies at every peer with the committee. -/
def CertificateExact (C : Codec) (P : Primitives) (c : ICSCommittee) (x : Trace) : Prop :=
  ∀ h, x.1.2.superMajority = (h, true) → ∃ qc bits signers,
    x.1.2.getQC h x.1.2.view = .ok (.ok qc) ∧ qc.signerIndices = some bits ∧
    bits.getTrueIndices = .ok signers ∧ signers.toFinset = x.2 ∧
    ∀ N : Node, N.codec = C → N.signatureVerifier = verifyAggregateSignature P →
      N.verifyQc x.1.2.view c (some qc) = .ok (true, none)

/-- The keys `verifyQc` collects for the indices that hold a vote. -/
theorem signerKeys_eq (h : ∀ i ∈ l, i < 2 ^ 31 ∧ i < c.totalNodes) :
    c.signerKeys l = l.map c.keyOf := by
  induction l with
  | nil => rfl
  | cons i l ih =>
    obtain ⟨h31, hlt⟩ := h i mem_cons_self
    obtain ⟨k, hk⟩ := Option.isSome_iff_exists.mp
      ((c.getKramaID_isSome i).mpr ⟨by omega, by exact_mod_cast hlt⟩)
    have ih' := ih fun j hj => h j (mem_cons_of_mem i hj)
    rw [signerKeys] at ih' ⊢
    rw [filterMap_cons, int32_of_lt h31, hk, Option.map_some, ih', map_cons, keyOf, hk]
    rfl

theorem Certified.exact (hP : P.Ideal signedBy) (hx : Certified C signedBy c x) :
    CertificateExact C P c x := by
  obtain ⟨⟨cs, vs⟩, I⟩ := x
  intro h hmaj
  have hsome : vs.maj23TsHash = some h := by
    simp only [superMajority] at hmaj
    split at hmaj
    · cases hmaj
      assumption
    · cases hmaj
  obtain ⟨hI, ⟨raw, hraw, hlen, hsigned⟩, hfit⟩ := hx.aggregated h hsome
  have ht : Tallied c (cs, vs) := hx.counted.toTallied
  have hquorate : c.Quorate (tally c.slotsOf vs.voted) := by
    obtain ⟨_, hsub, hq⟩ := hx.counted.frozen (by simp only [hsome]; rfl)
    exact hq.of_words hsub
  have hne : votedList c vs ≠ [] := by
    intro hnil
    have hempty := votedList_toFinset ht
    rw [hnil, toFinset_nil] at hempty
    rw [← hempty] at hquorate
    exact c.not_quorate_zero (by simpa [funext fun s => tally_empty c.slotsOf s] using hquorate)
  have hin : ∀ i ∈ votedList c vs, i < 2 ^ 31 ∧ i < c.totalNodes := fun i hi =>
    ⟨hx.lt_int32 i ((mem_votedList ht).mp hi), mem_range.mp (mem_filter.mp hi).1⟩
  have hpos : 0 < c.totalNodes := by
    obtain ⟨i, hi⟩ := exists_mem_of_ne_nil _ hne
    have := (hin i hi).2
    omega
  obtain ⟨bits, hbits, hlist⟩ := votesBitArray_eq ht hpos
  refine ⟨⟨vs.voteType, vs.view, h, some bits, vs.maj23aggSignature⟩, bits, votedList c vs, ?_, rfl,
    hlist, ?_, fun N hC hN => ?_⟩
  · simp only [getQC, hsome, hbits, Go.deref, bind, Except.bind]
    simp [pure, Except.pure]
  · rw [votedList_toFinset ht]
    exact hI.symm
  have hstage : c.quorumStage (some bits) = .ok (.ok ((votedList c vs).map c.keyOf)) := by
    rcases quorumStage_eq hquorate.1 hlist with ⟨hok, _⟩ | ⟨e, _, hno⟩
    · rw [hok, signerKeys_eq hin]
    · rw [counted_eq_words (votedList_nodup c vs) fun i hi => (hin i hi).1,
        votedList_toFinset ht, hfit.words_eq] at hno
      exact absurd hquorate hno
  have hverdict : verifyAggregateSignature P raw vs.maj23aggSignature
      ((votedList c vs).map c.keyOf) = (true, none) := by
    rw [verifyAggregateSignature_eq P (by simpa using hne), Prod.mk.injEq]
    · refine ⟨(hP.fast _ _ _).mpr ?_, rfl⟩
      rw [hsigned, ← votedList_toFinset ht, toFinset_val,
        dedup_eq_self.mpr (votedList_nodup c vs), map_map]
      rfl
    · intro k hk
      obtain ⟨i, hi, rfl⟩ := mem_map.mp hk
      exact hlen i ((mem_votedList ht).mp hi)
  simp only [Node.verifyQc, Go.deref, bind, Except.bind, hstage, Qc.canonical,
    CanonicalVote.bytes, hC, hraw, hN, hverdict]
  rfl

/-- **In every run of clean calls the certificate of a reported supermajority is exact.** -/
theorem run_certificateExact (hP : P.Ideal signedBy) (c : ICSCommittee) (view : UInt64)
    (t : ConsensusMsgType) (es : List Event) (x : Trace)
    (h : Run (Guarded (fun x e => Clean C P c x.1 e) fun x e y => tracedCall C P x e = .ok y)
      (start c view t, ∅) es x) : CertificateExact C P c x :=
  Certified.exact hP (h.invariant (I := fun _ x => Certified C signedBy c x)
    (certified_new c view t) fun _ _ _ _ hx hs => traced_certified hP hx hs.1 hs.2)

end VoteSet

/-! ## 5. A late vote -/

/-- The certificate of the first four validators of five. -/
def prevoteQc : Vote := ⟨PREVOTE, true, 1, 0, ⟨7⟩, some ⟨5, [15]⟩, [0, 1, 2, 3]⟩

/-- A certificate of four validators, taken by an empty vote set and given out again. -/
theorem prevoteQc_certificate :
    ∃ x, Run (Guarded (fun x e => VoteSet.Clean byteCodec prevotePrims fiveNodes x.1 e)
          fun x e y => tracedCall byteCodec prevotePrims x e = .ok y)
        (start fiveNodes 1 PREVOTE, ∅) [.addQc (some prevoteQc) ⟨7⟩] x ∧
      x.1.2.superMajority = (⟨7⟩, true) ∧
      VoteSet.CertificateExact byteCodec prevotePrims fiveNodes x := by
  have hcall : (tracedCall byteCodec prevotePrims (start fiveNodes 1 PREVOTE, ∅)
      (.addQc (some prevoteQc) ⟨7⟩)).toOption.map (fun x => x.1.2.superMajority) =
        some (⟨7⟩, true) := by decide
  cases hx : tracedCall byteCodec prevotePrims (start fiveNodes 1 PREVOTE, ∅)
      (.addQc (some prevoteQc) ⟨7⟩) with
  | error p =>
    rw [hx] at hcall
    cases hcall
  | ok x =>
    rw [hx] at hcall
    have hclean : VoteSet.Clean byteCodec prevotePrims fiveNodes
        (start fiveNodes 1 PREVOTE) (.addQc (some prevoteQc) ⟨7⟩) := by
      rintro _ l hv hvalid - -
      cases hv
      rw [← hvalid.qcIndices_eq]
      refine ⟨rfl, fun _ => ⟨unwrapped_of_length (by decide), rfl, rfl, by decide, fun i hi => ?_⟩⟩
      have hi' : i ∈ (new 1 PREVOTE (ClusterState.new fiveNodes)).voted := hi
      cases hi'
    have hrun : Run (Guarded
        (fun x e => VoteSet.Clean byteCodec prevotePrims fiveNodes x.1 e)
        fun x e y => tracedCall byteCodec prevotePrims x e = .ok y)
        (start fiveNodes 1 PREVOTE, ∅) [.addQc (some prevoteQc) ⟨7⟩] x :=
      .cons ⟨hclean, hx⟩ .start
    exact ⟨x, hrun, Option.some.inj hcall,
      run_certificateExact (listPrims_ideal _) fiveNodes 1 PREVOTE _ x hrun⟩

/-- The five prevotes, one after the other. -/
def fivePrevotes : List VoteSet.Event := feed ⟨7⟩ ((List.range 5).map fun i => (prevote i, i))

/-- **The vote after the supermajority spoils the certificate**: it names all five validators, and
    four are in the aggregate. -/
theorem late_vote_breaks_certificate :
    prevotePrims.Ideal (listSignedBy [2, 1, 7]) ∧
    ∃ x, Run (fun x e y => tracedCall byteCodec prevotePrims x e = .ok y)
        (start fiveNodes 1 PREVOTE, ∅) fivePrevotes x ∧
      x.1.2.superMajority = (⟨7⟩, true) ∧
      x.1.2.getQC ⟨7⟩ 1 = .ok (.ok ⟨PREVOTE, 1, ⟨7⟩, some ⟨5, [31]⟩, [0, 1, 2, 3]⟩) ∧
      x.2 = {0, 1, 2, 3} ∧
      (∀ N : Node, N.codec = byteCodec →
        N.signatureVerifier = verifyAggregateSignature prevotePrims →
        N.verifyQc 1 fiveNodes (some ⟨PREVOTE, 1, ⟨7⟩, some ⟨5, [31]⟩, [0, 1, 2, 3]⟩) =
          .ok (false, none)) ∧ ¬ VoteSet.CertificateExact byteCodec prevotePrims fiveNodes x := by
  have hloop : ((fivePrevotes.foldlM (tracedCall byteCodec prevotePrims)
      (start fiveNodes 1 PREVOTE, ∅)).toOption.map fun x =>
        (x.1.2.superMajority, (x.1.2.getQC ⟨7⟩ 1).toOption.bind Except.toOption, x.1.2.view, x.2)) =
      some ((⟨7⟩, true), some ⟨PREVOTE, 1, ⟨7⟩, some ⟨5, [31]⟩, [0, 1, 2, 3]⟩, 1,
        {0, 1, 2, 3}) := by decide
  cases hx : fivePrevotes.foldlM (tracedCall byteCodec prevotePrims)
      (start fiveNodes 1 PREVOTE, ∅) with
  | error p =>
    rw [hx] at hloop
    cases hloop
  | ok x =>
    rw [hx] at hloop
    simp only [Except.toOption, Option.map_some, Option.some.injEq, Prod.mk.injEq] at hloop
    obtain ⟨hmaj, hqc, hview, hagg⟩ := hloop
    have hget : x.1.2.getQC ⟨7⟩ 1 =
        .ok (.ok ⟨PREVOTE, 1, ⟨7⟩, some ⟨5, [31]⟩, [0, 1, 2, 3]⟩) := by
      split at hqc
      · rename_i r hr
        rcases r with e | qc
        · cases hqc
        rw [hr]
        exact congrArg (Except.ok ∘ Except.ok) (Option.some.inj hqc)
      · cases hqc
    refine ⟨listPrims_ideal _, x, .of_foldlM hx, hmaj, hget, hagg, fun N hC hN => ?_, fun h => ?_⟩
    · simp only [Node.verifyQc, hC, hN]
      rfl
    obtain ⟨_, _, signers, hq, hb, hs, hset, _⟩ := h ⟨7⟩ hmaj
    rw [hview, hget] at hq
    cases hq
    cases hb
    have hsigners : signers = [0, 1, 2, 3, 4] := (Except.ok.inj hs).symm
    rw [hsigners, hagg] at hset
    exact absurd hset (by decide)

end GoMoi
