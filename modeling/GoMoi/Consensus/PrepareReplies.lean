/-
  File:      GoMoi/Consensus/PrepareReplies.lean
  Subject:   Which prepare messages of a view a node replies to (`handlePrepareMsg`,
             `processPrepareMsgs` of `consensus/handler.go`).

  A node collects the prepare messages of a view under each participant whose context it belongs to.
  At the timeout it picks a winner for each participant, the sender whose hash comes first, and
  drops the messages that have lost somewhere. Then it goes over the participants again and replies
  to at most one message for each. A message that names several participants is one object in
  several lists.

  * **`prepareReplies_spec`** -- exclusive, exactly the winners, and independent of the order of
    arrival, by the participants whose context the node belongs to;
  * **`shared_participant_answered`** -- and not by the others.
-/
import GoMoi.Common.Interaction
import GoMoi.Lib.Run
import GoMoi.Lattice.Manager

namespace GoMoi

open List Function

/-! ## 1. Collecting the messages of a view -/

/-- A message of type `PREPARE`: the sender and the cluster of the `ICSMSG`, the view and the
    interactions of the `Prepare`. -/
structure PrepareIn where
  sender : KramaID
  clusterID : ClusterID
  view : UInt64
  ixns : List Hash
  deriving DecidableEq, Repr

/-- What the rest of the node says about a message: whether the interactions are in the pool, their
    participants, whether the sender may propose them, and in whose contexts this node is. -/
structure PrepareLookup where
  getIxns : Bool
  isOperatorEligible : Bool
  participants : GoMap Identifier ParticipantInfo
  order : GoMap.Order participants
  isParticipantsContext : Identifier → Bool

/-- `fetchParticipantsThisNodeIsContext`. -/
def PrepareLookup.fetchParticipantsThisNodeIsContext (a : PrepareLookup) : List Identifier :=
  (a.order.entries.filter fun e => !(e.2.isGenesis || e.2.lockType = noLock) &&
    a.isParticipantsContext e.1).map (·.1)

theorem PrepareLookup.nodup (a : PrepareLookup) : a.fetchParticipantsThisNodeIsContext.Nodup :=
  ((a.order.perm.map _).nodup_iff.mpr a.participants.nodupKeys).sublist
    (filter_sublist.map _)

/-- `type metaPrepareMsg struct`, without its flags: of the interactions their participants, and
    those whose context this node belongs to, each once. -/
structure MetaPrepareMsg where
  msg : PrepareIn
  participants : GoMap Identifier ParticipantInfo
  ids : List Identifier
  nodup : ids.Nodup

/-- The fields of `type Engine struct` for prepare messages. The messages are numbered in the order
    of their arrival, and a list of the map holds their numbers. -/
structure PrepareInbox where
  currentView : UInt64
  futureMsg : List PrepareIn
  msgs : List MetaPrepareMsg
  participantToPrepareMsg : GoMap Identifier (List Nat)

namespace PrepareInbox

/-- The inbox at the start of a view. -/
def newView (view : UInt64) (futureMsg : List PrepareIn) : PrepareInbox := ⟨view, futureMsg, [], ∅⟩

/-- One round of the last loop of `handlePrepareMsg`. -/
def enlist (n : Nat) (m : GoMap Identifier (List Nat)) (id : Identifier) :
    GoMap Identifier (List Nat) :=
  m.insert id ((m.lookup id).getD [] ++ [n])

/-- `handlePrepareMsg`. -/
def handlePrepareMsg (k : PrepareInbox) (prepare : PrepareIn) (a : PrepareLookup) :
    Option Err × PrepareInbox :=
  if k.currentView ≠ prepare.view then
    (some (.sentinel .errInvalidView),
      if prepare.view - k.currentView = 1 then
        { k with futureMsg := k.futureMsg ++ [prepare] }
      else k)
  else if !a.getIxns then (some (.sentinel .errIxnsNotFound), k)
  else if !a.isOperatorEligible then (some (.sentinel .errOperatorNotEligible), k)
  else (none,
    { k with
      msgs := k.msgs ++ [⟨prepare, a.participants, a.fetchParticipantsThisNodeIsContext, a.nodup⟩]
      participantToPrepareMsg := a.fetchParticipantsThisNodeIsContext.foldl (enlist k.msgs.length)
        k.participantToPrepareMsg })

/-- A message comes in. -/
def Step (k : PrepareInbox) (e : PrepareIn × PrepareLookup) (k' : PrepareInbox) : Prop :=
  k' = (k.handlePrepareMsg e.1 e.2).2

end PrepareInbox

/-! ## 2. Replying -/

/-- `sort.Slice` by a string: it permutes the list and sorts it; equal keys end up in any order. -/
structure SortSlice where
  run : (Nat → List Char) → List Nat → List Nat
  perm : ∀ key l, (run key l).Perm l
  sorted : ∀ key l, (run key l).Pairwise fun i j => ¬ key j < key i

/-- Insertion sort is such a sort. -/
def SortSlice.insertion : SortSlice where
  run key l := l.insertionSort fun i j => ¬ key j < key i
  perm _ _ := perm_insertionSort _ _
  sorted key l := by
    have : Std.Total fun i j => ¬ key j < key i := ⟨fun i j => List.le_total (key i) (key j)⟩
    have : IsTrans Nat fun i j => ¬ key j < key i := ⟨fun _ _ _ => List.le_trans⟩
    exact pairwise_insertionSort (fun i j => ¬ key j < key i) l

/-- The flags of the messages, and the messages that the node has set out to reply to. -/
structure ReplyState where
  shouldReply : Nat → Bool
  msgSent : Nat → Bool
  tried : List Nat

section

variable (S : SortSlice) (H : KramaID → UInt64 → Hash) (msgs : List MetaPrepareMsg)

/-- `rankHash.String()`. -/
def rankOf (i : Nat) : List Char :=
  match msgs[i]? with
  | none => []
  | some m => (H m.msg.sender m.msg.view).string

/-- The sender of a message. -/
def senderAt (i : Nat) : Option KramaID := (msgs[i]?).map (·.msg.sender)

/-- The list after `findWinner` has sorted it. -/
def ranked (l : List Nat) : List Nat := S.run (rankOf H msgs) l

/-- `findWinner`. -/
def findWinner (l : List Nat) : Option KramaID := (ranked S H msgs l).head?.bind (senderAt msgs)

/-- One round of the first loop: the messages of other senders are dropped. -/
def dropLosers (shouldReply : Nat → Bool) (l : List Nat) : Nat → Bool :=
  if l.length = 1 then shouldReply
  else (ranked S H msgs l).foldl (fun should i =>
    if senderAt msgs i = findWinner S H msgs l then should else update should i false)
    shouldReply

/-- The list as the second loop finds it. -/
def sortedList (l : List Nat) : List Nat := if l.length = 1 then l else ranked S H msgs l

/-- One round of the second loop: the first message that is neither dropped nor answered yet.
    `reply` tells whether its view infos can be loaded and the reply can be made. -/
def replyOnce (reply : Identifier → Option MetaPrepareMsg → Bool) (st : ReplyState)
    (e : Σ _ : Identifier, List Nat) : ReplyState :=
  match (sortedList S H msgs e.2).find? fun i => st.shouldReply i && !st.msgSent i with
  | none => st
  | some i =>
    { st with
      tried := st.tried ++ [i]
      msgSent := if reply e.1 msgs[i]? then update st.msgSent i true else st.msgSent }

/-- `processPrepareMsgs`. -/
def processPrepareMsgs (reply : Identifier → Option MetaPrepareMsg → Bool)
    {m : GoMap Identifier (List Nat)} (o₁ o₂ : GoMap.Order m) : ReplyState :=
  let should := o₁.entries.foldl (fun should e => dropLosers S H msgs should e.2) fun _ => true
  o₂.entries.foldl (replyOnce S H msgs reply) ⟨should, fun _ => false, []⟩

/-! ## 3. The two loops -/

theorem foldl_update_iff (c : Nat → Prop) [DecidablePred c] (xs : List Nat)
    (f : Nat → Bool) (j : Nat) :
    xs.foldl (fun f i => if c i then f else update f i false) f j = true ↔
      f j = true ∧ (j ∈ xs → c j) := by
  induction xs generalizing f with
  | nil => simp
  | cons i xs ih =>
    rw [foldl_cons, ih, mem_cons]
    by_cases hc : c i
    · rw [if_pos hc]
      grind
    · rw [if_neg hc, update_apply]
      grind

variable {S H msgs} in
theorem mem_ranked {l : List Nat} {i : Nat} : i ∈ ranked S H msgs l ↔ i ∈ l :=
  (S.perm _ l).mem_iff

theorem ranked_singleton (i : Nat) : ranked S H msgs [i] = [i] :=
  perm_singleton.mp (S.perm _ [i])

theorem mem_sortedList {l : List Nat} {i : Nat} : i ∈ sortedList S H msgs l ↔ i ∈ l := by
  unfold sortedList
  split
  · exact Iff.rfl
  · exact mem_ranked

variable (reply : Identifier → Option MetaPrepareMsg → Bool) (should : Nat → Bool)

/-- A round of the first loop drops the messages of the list whose sender is not the winner. -/
theorem dropLosers_iff (l : List Nat) (i : Nat) :
    dropLosers S H msgs should l i = true ↔
      should i = true ∧ (i ∈ l → senderAt msgs i = findWinner S H msgs l) := by
  unfold dropLosers
  split
  next h =>
    -- the loop skips a list of one message, which wins anyway
    obtain ⟨a, rfl⟩ := length_eq_one_iff.mp h
    have hw : findWinner S H msgs [a] = senderAt msgs a := by simp [findWinner, ranked_singleton]
    rw [hw, mem_singleton]
    exact ⟨fun h => ⟨h, fun hi => congrArg _ hi⟩, fun h => h.1⟩
  next => rw [foldl_update_iff, mem_ranked]

variable (es : List (Σ _ : Identifier, List Nat))

/-- **The flag after the first loop**: the sender wins in every list that has the message. -/
theorem shouldReply_iff (should : Nat → Bool) (i : Nat) :
    es.foldl (fun should e => dropLosers S H msgs should e.2) should i = true ↔
      should i = true ∧ ∀ e ∈ es, i ∈ e.2 → senderAt msgs i = findWinner S H msgs e.2 := by
  induction es generalizing should with
  | nil => simp
  | cons e es ih => rw [foldl_cons, ih, dropLosers_iff, forall_mem_cons, and_assoc]

/-- What a round of the second loop does. -/
theorem replyOnce_cases (st : ReplyState) (e : Σ _ : Identifier, List Nat) :
    (replyOnce S H msgs reply st e = st ∧
      ∀ i ∈ e.2, st.shouldReply i = true → st.msgSent i = true) ∨
    ∃ i ∈ e.2, st.shouldReply i = true ∧
      replyOnce S H msgs reply st e =
        ⟨st.shouldReply,
          if reply e.1 msgs[i]? then update st.msgSent i true else st.msgSent,
          st.tried ++ [i]⟩ := by
  unfold replyOnce
  split
  next h =>
    refine .inl ⟨rfl, fun i hi hs => ?_⟩
    have := List.find?_eq_none.mp h i ((mem_sortedList S H msgs).mpr hi)
    simpa [hs] using this
  next i h =>
    have hi := (mem_sortedList S H msgs).mp (mem_of_find?_eq_some h)
    have hs := List.find?_some h
    simp only [Bool.and_eq_true] at hs
    exact .inr ⟨i, hi, hs.1, rfl⟩

/-- The flags and the replies after the second loop has gone over the entries `es`. -/
structure Replied (reply : Identifier → Option MetaPrepareMsg → Bool) (should : Nat → Bool)
    (es : List (Σ _ : Identifier, List Nat)) (st : ReplyState) : Prop where
  should_eq : st.shouldReply = should
  tried_sound : ∀ i ∈ st.tried, should i = true ∧ ∃ e ∈ es, i ∈ e.2
  sent_sound : ∀ i, st.msgSent i = true → i ∈ st.tried ∧ ∃ e ∈ es, i ∈ e.2 ∧
    reply e.1 msgs[i]? = true
  complete : (∀ e ∈ es, ∀ i ∈ e.2, ∀ j ∈ e.2, should i = true → should j = true → i = j) →
    ∀ e ∈ es, ∀ i ∈ e.2, should i = true →
      i ∈ st.tried ∧ (reply e.1 msgs[i]? = true → st.msgSent i = true)

theorem Replied.step {reply : Identifier → Option MetaPrepareMsg → Bool} {should : Nat → Bool}
    {es : List (Σ _ : Identifier, List Nat)} {st : ReplyState}
    (h : Replied msgs reply should es st) (e : Σ _ : Identifier, List Nat) :
    Replied msgs reply should (es ++ [e]) (replyOnce S H msgs reply st e) := by
  obtain ⟨hsh, htr, hse, hco⟩ := h
  obtain ⟨heq, hall⟩ | ⟨i, hi, hs, heq⟩ := replyOnce_cases S H msgs reply st e
  · -- every message of the list that is not dropped has its answer already
    rw [heq]
    refine ⟨hsh, fun j hj => ?_, fun j hj => ?_, fun hu => ?_⟩
    · obtain ⟨h1, e', he', h2⟩ := htr j hj
      exact ⟨h1, e', mem_append_left _ he', h2⟩
    · obtain ⟨h1, e', he', h2⟩ := hse j hj
      exact ⟨h1, e', mem_append_left _ he', h2⟩
    rw [forall_mem_append, forall_mem_singleton] at hu ⊢
    refine ⟨hco hu.1, fun j hj hsj => ?_⟩
    have hsent := hall j hj (hsh ▸ hsj)
    exact ⟨(hse j hsent).1, fun _ => hsent⟩
  · rw [heq]
    rw [hsh] at hs
    have hkeep : ∀ j, st.msgSent j = true →
        (if reply e.1 msgs[i]? then update st.msgSent i true else st.msgSent) j = true := by
      intro j hj
      split
      · rw [update_apply]
        split <;> simp [hj]
      · exact hj
    refine ⟨hsh, fun j hj => ?_, fun j hj => ?_, fun hu => ?_⟩
    · obtain hj | hj := mem_append.mp hj
      · obtain ⟨h1, e', he', h2⟩ := htr j hj
        exact ⟨h1, e', mem_append_left _ he', h2⟩
      · obtain rfl := mem_singleton.mp hj
        exact ⟨hs, e, by simp, hi⟩
    · by_cases hold : st.msgSent j = true
      · obtain ⟨h1, e', he', h2⟩ := hse j hold
        exact ⟨mem_append_left _ h1, e', mem_append_left _ he', h2⟩
      -- the only message that gets its mark in this round
      split at hj
      next hr =>
        simp only [update_apply] at hj
        split at hj
        next hji =>
          subst hji
          exact ⟨by simp, e, by simp, hi, hr⟩
        next => exact absurd hj hold
      next => exact absurd hj hold
    · rw [forall_mem_append, forall_mem_singleton] at hu ⊢
      refine ⟨fun e' he' j hj hsj => ?_, fun j hj hsj => ?_⟩
      · obtain ⟨h1, h2⟩ := hco hu.1 e' he' j hj hsj
        exact ⟨mem_append_left _ h1, fun hr => hkeep j (h2 hr)⟩
      · obtain rfl := hu.2 i hi j hj hs hsj
        refine ⟨by simp, fun hr => ?_⟩
        simp [hr]

theorem Replied.run :
    Replied msgs reply should es
      (es.foldl (replyOnce S H msgs reply) ⟨should, fun _ => false, []⟩) := by
  induction es using List.reverseRecOn with
  | nil => exact ⟨rfl, by simp, by simp, by simp⟩
  | append_singleton es e ih =>
    rw [foldl_append]
    exact ih.step S H msgs e

end

/-! ## 4. What lies under a participant -/

namespace PrepareInbox

/-- The messages under a participant. -/
def listOf (k : PrepareInbox) (p : Identifier) : List Nat :=
  (k.participantToPrepareMsg.lookup p).getD []

/-- **A list of the map holds the messages that name its participant.** -/
def Collected (k : PrepareInbox) : Prop :=
  ∀ p i, i ∈ k.listOf p ↔ ∃ m, k.msgs[i]? = some m ∧ p ∈ m.ids

theorem lookup_enlist (n : Nat) (m : GoMap Identifier (List Nat)) {ids : List Identifier}
    (hn : ids.Nodup) (p : Identifier) :
    (ids.foldl (enlist n) m).lookup p =
      if p ∈ ids then some ((m.lookup p).getD [] ++ [n]) else m.lookup p := by
  induction ids generalizing m with
  | nil => simp
  | cons id ids ih =>
    obtain ⟨hid, hn⟩ := nodup_cons.mp hn
    rw [foldl_cons, ih _ hn, enlist]
    by_cases hp : p = id
    · subst hp
      rw [if_neg hid, if_pos mem_cons_self, AList.lookup_insert]
    · rw [AList.lookup_insert_ne hp]
      simp [hp]

theorem exists_getElem?_concat {α : Type} (xs : List α) (x : α) (P : α → Prop) (i : Nat) :
    (∃ a, (xs ++ [x])[i]? = some a ∧ P a) ↔ (∃ a, xs[i]? = some a ∧ P a) ∨
      (i = xs.length ∧ P x) := by
  obtain h | rfl | h := Nat.lt_trichotomy i xs.length
  · rw [List.getElem?_append_left h]
    simp [Nat.ne_of_lt h]
  · simp
  · have hnone : (xs ++ [x])[i]? = none := List.getElem?_eq_none (by simp; omega)
    rw [hnone, List.getElem?_eq_none (by omega)]
    simp [Nat.ne_of_gt h]

theorem Collected.step {k k' : PrepareInbox} {e : PrepareIn × PrepareLookup} (h : k.Collected)
    (hs : Step k e k') : k'.Collected := by
  subst hs
  unfold handlePrepareMsg
  split
  · split <;> exact h
  split
  · exact h
  split
  · exact h
  intro p i
  have hold := h p i
  unfold listOf
  rw [lookup_enlist _ _ e.2.nodup]
  split
  next hp =>
    show i ∈ k.listOf p ++ [k.msgs.length] ↔ _
    rw [mem_append, hold, mem_singleton, exists_getElem?_concat]
    simp [hp]
  next hp =>
    show i ∈ k.listOf p ↔ _
    rw [hold, exists_getElem?_concat]
    simp [hp]

/-- **The lists of a view after any run of messages.** -/
theorem collected {view : UInt64} {futureMsg : List PrepareIn}
    {es : List (PrepareIn × PrepareLookup)}
    {k : PrepareInbox} (h : Run Step (newView view futureMsg) es k) : k.Collected := by
  apply h.invariant
  · intro p i
    simp [listOf, newView]
  · intro _ _ _ _ hk hs
    exact hk.step hs

end PrepareInbox

/-! ## 5. The messages that get a reply -/

section

variable (S : SortSlice) (H : KramaID → UInt64 → Hash)

/-- No two messages of one sender name the same participant. -/
def DistinctSenders (msgs : List MetaPrepareMsg) : Prop :=
  msgs.Pairwise fun m m' => ∀ p ∈ m.ids, p ∈ m'.ids → m.msg.sender ≠ m'.msg.sender

theorem DistinctSenders.index_eq {msgs : List MetaPrepareMsg} (h : DistinctSenders msgs) {i j : Nat}
    {m m' : MetaPrepareMsg} (hm : msgs[i]? = some m) (hm' : msgs[j]? = some m') {p : Identifier}
    (hp : p ∈ m.ids) (hp' : p ∈ m'.ids) (hs : m.msg.sender = m'.msg.sender) : i = j := by
  obtain ⟨hi, rfl⟩ := List.getElem?_eq_some_iff.mp hm
  obtain ⟨hj, rfl⟩ := List.getElem?_eq_some_iff.mp hm'
  have hpair := pairwise_iff_getElem.mp h
  obtain hlt | heq | hlt := Nat.lt_trichotomy i j
  · exact absurd hs (hpair i j hi hj hlt p hp hp')
  · exact heq
  · exact absurd hs.symm (hpair j i hj hi hlt p hp' hp)

theorem DistinctSenders.perm {msgs msgs' : List MetaPrepareMsg} (h : DistinctSenders msgs)
    (hperm : msgs.Perm msgs') : DistinctSenders msgs' := by
  refine (hperm.pairwise_iff ?_).mp h
  intro m m' hmm p hp hp' hs
  exact hmm p hp' hp hs.symm

/-- The hashes of different senders differ. -/
def DistinctRanks (msgs : List MetaPrepareMsg) : Prop :=
  ∀ m ∈ msgs, ∀ m' ∈ msgs,
    (H m.msg.sender m.msg.view).string = (H m'.msg.sender m'.msg.view).string →
      m.msg.sender = m'.msg.sender

/-- The sender of the message wins the selection for every participant that it is collected
    under. -/
def Chosen (k : PrepareInbox) (m : MetaPrepareMsg) : Prop :=
  m.ids ≠ [] ∧ ∀ p ∈ m.ids, findWinner S H k.msgs (k.listOf p) = some m.msg.sender

/-- The node sets out to reply to the message. -/
def Picked (k : PrepareInbox) (st : ReplyState) (m : MetaPrepareMsg) : Prop :=
  ∃ i, k.msgs[i]? = some m ∧ i ∈ st.tried

/-- The node replies to the message. -/
def Answered (k : PrepareInbox) (st : ReplyState) (m : MetaPrepareMsg) : Prop :=
  ∃ i, k.msgs[i]? = some m ∧ st.msgSent i = true

variable {k : PrepareInbox} {S H}

theorem findWinner_spec (hk : k.Collected) {p : Identifier} {s : KramaID}
    (h : findWinner S H k.msgs (k.listOf p) = some s) :
    ∃ m ∈ k.msgs, p ∈ m.ids ∧ m.msg.sender = s ∧ ∀ m' ∈ k.msgs, p ∈ m'.ids →
      ¬ (H m'.msg.sender m'.msg.view).string < (H m.msg.sender m.msg.view).string := by
  obtain ⟨i, hi, hs⟩ := Option.bind_eq_some_iff.mp h
  obtain ⟨m, hm, rfl⟩ := Option.map_eq_some_iff.mp hs
  obtain ⟨l, hl⟩ := List.head?_eq_some_iff.mp hi
  have hmem : i ∈ k.listOf p := mem_ranked.mp (hl ▸ mem_cons_self)
  obtain ⟨m1, hm1, hp⟩ := (hk p i).mp hmem
  obtain rfl : m = m1 := Option.mem_unique hm hm1
  refine ⟨m, mem_of_getElem? hm, hp, rfl, fun m' hm' hp' => ?_⟩
  obtain ⟨j, hj⟩ := mem_iff_getElem?.mp hm'
  have hjl : j ∈ ranked S H k.msgs (k.listOf p) := mem_ranked.mpr ((hk p j).mpr ⟨m', hj, hp'⟩)
  have hsort : (ranked S H k.msgs (k.listOf p)).Pairwise _ := S.sorted _ _
  rw [hl] at hjl hsort
  -- the first of the sorted list is below the others
  obtain rfl | hjl := mem_cons.mp hjl
  · obtain rfl : m = m' := Option.mem_unique hm hj
    exact List.lt_irrefl _
  · simpa [rankOf, hm, hj] using (pairwise_cons.mp hsort).1 j hjl

theorem findWinner_isSome (hk : k.Collected) {p : Identifier} {m : MetaPrepareMsg} (hm : m ∈ k.msgs)
    (hp : p ∈ m.ids) : ∃ s, findWinner S H k.msgs (k.listOf p) = some s := by
  obtain ⟨j, hj⟩ := mem_iff_getElem?.mp hm
  have hjl : j ∈ ranked S H k.msgs (k.listOf p) := mem_ranked.mpr ((hk p j).mpr ⟨m, hj, hp⟩)
  obtain ⟨i, l, hl⟩ := exists_cons_of_ne_nil (ne_nil_of_mem hjl)
  obtain ⟨m', hm', -⟩ := (hk p i).mp (mem_ranked.mp (hl ▸ mem_cons_self : i ∈ ranked S H _ _))
  exact ⟨m'.msg.sender, by simp [findWinner, hl, senderAt, hm']⟩

section

variable {k' : PrepareInbox} {m : MetaPrepareMsg} (hk : k.Collected) (hk' : k'.Collected)
  (hperm : k.msgs.Perm k'.msgs) (hr : DistinctRanks H k.msgs) (hm : m ∈ k.msgs)
include hk hk' hperm hr hm

/-- **The winner of a participant does not depend on the order of arrival.** -/
theorem findWinner_perm {S' : SortSlice} {p : Identifier} (hp : p ∈ m.ids) :
    findWinner S H k.msgs (k.listOf p) = findWinner S' H k'.msgs (k'.listOf p) := by
  obtain ⟨s, hs⟩ := findWinner_isSome (S := S) (H := H) hk hm hp
  obtain ⟨_, hs'⟩ := findWinner_isSome (S := S') (H := H) hk' (hperm.mem_iff.mp hm) hp
  obtain ⟨w, hw, hpw, rfl, hleast⟩ := findWinner_spec hk hs
  obtain ⟨w', hw', hpw', rfl, hleast'⟩ := findWinner_spec hk' hs'
  have h1 := hleast w' (hperm.mem_iff.mpr hw') hpw'
  have h2 := hleast' w (hperm.mem_iff.mp hw) hpw
  have hsender := hr w hw w' (hperm.mem_iff.mpr hw') (List.le_antisymm h1 h2)
  rw [hs, hs', hsender]

end

/-- The entries that have a message are the lists of the participants it names. -/
theorem mem_entries_iff (hk : k.Collected) (o : GoMap.Order k.participantToPrepareMsg) {i : Nat}
    {m : MetaPrepareMsg} (hi : k.msgs[i]? = some m) (e : Σ _ : Identifier, List Nat) :
    (e ∈ o.entries ∧ i ∈ e.2) ↔ (e.1 ∈ m.ids ∧ e.2 = k.listOf e.1) := by
  constructor
  · intro ⟨he, hie⟩
    have hl : k.participantToPrepareMsg.lookup e.1 = some e.2 := o.mem_iff.mp he
    have heq : k.listOf e.1 = e.2 := by simp [PrepareInbox.listOf, hl]
    obtain ⟨m', hm', hp⟩ := (hk e.1 i).mp (heq ▸ hie)
    obtain rfl : m = m' := Option.mem_unique hi hm'
    exact ⟨hp, heq.symm⟩
  · intro ⟨hp, heq⟩
    have hie : i ∈ k.listOf e.1 := (hk e.1 i).mpr ⟨m, hi, hp⟩
    refine ⟨o.mem_iff.mpr ?_, heq ▸ hie⟩
    rw [heq]
    unfold PrepareInbox.listOf at hie ⊢
    cases hl : k.participantToPrepareMsg.lookup e.1 with
    | none => simp [hl] at hie
    | some l => rfl

section

variable (hk : k.Collected) (reply : Identifier → Option MetaPrepareMsg → Bool)
  (o₁ o₂ : GoMap.Order k.participantToPrepareMsg)

/-- The flag of a message after the first loop. -/
def shouldReplyOf (S : SortSlice) (H : KramaID → UInt64 → Hash) (k : PrepareInbox)
    (o₁ : GoMap.Order k.participantToPrepareMsg) : Nat → Bool :=
  o₁.entries.foldl (fun should e => dropLosers S H k.msgs should e.2) fun _ => true

theorem processPrepareMsgs_replied :
    Replied k.msgs reply (shouldReplyOf S H k o₁) o₂.entries
      (processPrepareMsgs S H k.msgs reply o₁ o₂) :=
  Replied.run S H k.msgs reply _ _

include hk in
theorem shouldReplyOf_iff {i : Nat} {m : MetaPrepareMsg} (hi : k.msgs[i]? = some m) :
    shouldReplyOf S H k o₁ i = true ↔
      ∀ p ∈ m.ids, findWinner S H k.msgs (k.listOf p) = some m.msg.sender := by
  have hsender : senderAt k.msgs i = some m.msg.sender := by simp [senderAt, hi]
  rw [shouldReplyOf, shouldReply_iff, hsender]
  constructor
  · intro ⟨_, h⟩ p hp
    obtain ⟨he, hie⟩ := (mem_entries_iff hk o₁ hi ⟨p, k.listOf p⟩).mpr ⟨hp, rfl⟩
    exact (h _ he hie).symm
  intro h
  refine ⟨rfl, fun e he hie => ?_⟩
  obtain ⟨hp, heq⟩ := (mem_entries_iff hk o₁ hi e).mp ⟨he, hie⟩
  rw [heq, h _ hp]

include hk in
/-- **Messages of different senders that name a common participant are not both picked.** -/
theorem picked_exclusive {m m' : MetaPrepareMsg}
    (h : Picked k (processPrepareMsgs S H k.msgs reply o₁ o₂) m)
    (h' : Picked k (processPrepareMsgs S H k.msgs reply o₁ o₂) m') {p : Identifier}
    (hp : p ∈ m.ids) (hp' : p ∈ m'.ids) : m.msg.sender = m'.msg.sender := by
  obtain ⟨i, hi, ht⟩ := h
  obtain ⟨j, hj, ht'⟩ := h'
  have hr := processPrepareMsgs_replied (S := S) (H := H) reply o₁ o₂
  have hw := (shouldReplyOf_iff hk o₁ hi).mp (hr.tried_sound i ht).1 p hp
  have hw' := (shouldReplyOf_iff hk o₁ hj).mp (hr.tried_sound j ht').1 p hp'
  exact Option.mem_unique hw hw'

variable (hd : DistinctSenders k.msgs)
include hk hd

theorem shouldReplyOf_unique :
    ∀ e ∈ o₂.entries, ∀ i ∈ e.2, ∀ j ∈ e.2, shouldReplyOf S H k o₁ i = true →
      shouldReplyOf S H k o₁ j = true → i = j := by
  intro e he i hi j hj hsi hsj
  have heq : k.listOf e.1 = e.2 := by
    have hl : k.participantToPrepareMsg.lookup e.1 = some e.2 := o₂.mem_iff.mp he
    simp [PrepareInbox.listOf, hl]
  obtain ⟨m, hm, hp⟩ := (hk e.1 i).mp (heq ▸ hi)
  obtain ⟨_, hm', hp'⟩ := (hk e.1 j).mp (heq ▸ hj)
  have hw := (shouldReplyOf_iff hk o₁ hm).mp hsi _ hp
  have hw' := (shouldReplyOf_iff hk o₁ hm').mp hsj _ hp'
  exact hd.index_eq hm hm' hp hp' (Option.mem_unique hw hw')

section

variable {i : Nat} {m : MetaPrepareMsg} (hi : k.msgs[i]? = some m)
include hi

/-- **The picked messages are those whose sender wins everywhere.** -/
theorem mem_tried_iff : i ∈ (processPrepareMsgs S H k.msgs reply o₁ o₂).tried ↔ Chosen S H k m := by
  have hr := processPrepareMsgs_replied (S := S) (H := H) reply o₁ o₂
  constructor
  · intro ht
    obtain ⟨hs, e, he, hie⟩ := hr.tried_sound i ht
    have hp := ((mem_entries_iff hk o₂ hi e).mp ⟨he, hie⟩).1
    exact ⟨ne_nil_of_mem hp, (shouldReplyOf_iff hk o₁ hi).mp hs⟩
  · intro ⟨hne, hw⟩
    obtain ⟨p, _, hps⟩ := exists_cons_of_ne_nil hne
    have hp : p ∈ m.ids := hps ▸ mem_cons_self
    obtain ⟨he, hie⟩ := (mem_entries_iff hk o₂ hi ⟨p, k.listOf p⟩).mpr ⟨hp, rfl⟩
    exact (hr.complete (shouldReplyOf_unique hk o₁ o₂ hd) _ he i hie
      ((shouldReplyOf_iff hk o₁ hi).mpr hw)).1

theorem msgSent_iff :
    (processPrepareMsgs S H k.msgs reply o₁ o₂).msgSent i = true ↔
      Chosen S H k m ∧ ∃ p ∈ m.ids, reply p (some m) = true := by
  have hr := processPrepareMsgs_replied (S := S) (H := H) reply o₁ o₂
  constructor
  · intro hsent
    obtain ⟨ht, e, he, hie, hrep⟩ := hr.sent_sound i hsent
    have hp := ((mem_entries_iff hk o₂ hi e).mp ⟨he, hie⟩).1
    exact ⟨(mem_tried_iff hk reply o₁ o₂ hd hi).mp ht, e.1, hp, hi ▸ hrep⟩
  · intro ⟨⟨_, hw⟩, p, hp, hrep⟩
    obtain ⟨he, hie⟩ := (mem_entries_iff hk o₂ hi ⟨p, k.listOf p⟩).mpr ⟨hp, rfl⟩
    exact (hr.complete (shouldReplyOf_unique hk o₁ o₂ hd) _ he i hie
      ((shouldReplyOf_iff hk o₁ hi).mpr hw)).2 (hi ▸ hrep)

end

theorem picked_iff (m : MetaPrepareMsg) :
    Picked k (processPrepareMsgs S H k.msgs reply o₁ o₂) m ↔ m ∈ k.msgs ∧ Chosen S H k m := by
  rw [mem_iff_getElem?, ← exists_and_right]
  exact exists_congr fun i => and_congr_right fun hi => mem_tried_iff hk reply o₁ o₂ hd hi

theorem answered_iff (m : MetaPrepareMsg) :
    Answered k (processPrepareMsgs S H k.msgs reply o₁ o₂) m ↔
      m ∈ k.msgs ∧ Chosen S H k m ∧ ∃ p ∈ m.ids, reply p (some m) = true := by
  rw [mem_iff_getElem?, ← exists_and_right]
  exact exists_congr fun i => and_congr_right fun hi => msgSent_iff hk reply o₁ o₂ hd hi

end

end

/-- **The replies of a view.** The messages may come in any run, the loops go over the map in any
    order, and the sort is any that sorts. The node sets out to reply to messages that exclude each
    other. If no sender has two messages for one participant, these are the messages whose sender
    wins for every participant, each of them gets its reply unless the reply cannot be made, and
    another order of arrival changes nothing. -/
theorem prepareReplies_spec (S S' : SortSlice) (H : KramaID → UInt64 → Hash)
    (reply : Identifier → Option MetaPrepareMsg → Bool) {view : UInt64}
    {future future' : List PrepareIn} {es es' : List (PrepareIn × PrepareLookup)}
    {k k' : PrepareInbox} (h : Run PrepareInbox.Step (.newView view future) es k)
    (h' : Run PrepareInbox.Step (.newView view future') es' k')
    (o₁ o₂ : GoMap.Order k.participantToPrepareMsg)
    (o₁' o₂' : GoMap.Order k'.participantToPrepareMsg) :
    let st := processPrepareMsgs S H k.msgs reply o₁ o₂
    let st' := processPrepareMsgs S' H k'.msgs reply o₁' o₂'
    (∀ m m', Picked k st m → Picked k st m' → ∀ p ∈ m.ids, p ∈ m'.ids →
      m.msg.sender = m'.msg.sender) ∧
    (∀ m, Answered k st m → Picked k st m) ∧
    (DistinctSenders k.msgs →
      (∀ m, Picked k st m ↔ m ∈ k.msgs ∧ Chosen S H k m) ∧
      (∀ m, Answered k st m ↔ Picked k st m ∧ ∃ p ∈ m.ids, reply p (some m) = true) ∧
      (k.msgs.Perm k'.msgs → DistinctRanks H k.msgs →
        ∀ m, (Picked k st m ↔ Picked k' st' m) ∧ (Answered k st m ↔ Answered k' st' m))) := by
  have hk := PrepareInbox.collected h
  have hk' := PrepareInbox.collected h'
  refine ⟨?_, ?_, fun hd => ⟨?_, ?_, ?_⟩⟩
  · intro m m' hm hm' p hp hp'
    exact picked_exclusive hk reply o₁ o₂ hm hm' hp hp'
  · intro m ⟨i, hi, hsent⟩
    have hr := processPrepareMsgs_replied (S := S) (H := H) reply o₁ o₂
    exact ⟨i, hi, (hr.sent_sound i hsent).1⟩
  · exact picked_iff hk reply o₁ o₂ hd
  · intro m
    rw [answered_iff hk reply o₁ o₂ hd, picked_iff hk reply o₁ o₂ hd, and_assoc]
  intro hperm hranks m
  have hd' := hd.perm hperm
  have hsame : m ∈ k.msgs ∧ Chosen S H k m ↔ m ∈ k'.msgs ∧ Chosen S' H k' m := by
    rw [← hperm.mem_iff]
    refine and_congr_right fun hm => and_congr_right fun _ => forall₂_congr fun p hp => ?_
    rw [findWinner_perm hk hk' hperm hranks hm hp]
  rw [picked_iff hk reply o₁ o₂ hd, picked_iff hk' reply o₁' o₂' hd',
    answered_iff hk reply o₁ o₂ hd, answered_iff hk' reply o₁' o₂' hd', ← and_assoc, ← and_assoc,
    hsame]
  exact ⟨Iff.rfl, Iff.rfl⟩

/-- A message on these participants, at a node in the contexts of some. -/
def prepareFor (ids : List Identifier) (isParticipantsContext : Identifier → Bool) :
    PrepareLookup where
  getIxns := true
  isOperatorEligible := true
  participants := ids.foldl (fun m id => m.insert id ⟨false, mutateLock, false⟩) ∅
  order := .given _
  isParticipantsContext := isParticipantsContext

/-- Two senders propose for one participant, and their messages come in either order. -/
theorem prepareReplies_spec_two :
    let p : Identifier := ⟨1⟩
    let a : PrepareLookup := prepareFor [p] fun _ => true
    let m₁ : PrepareIn := ⟨[1], [], 7, []⟩
    let m₂ : PrepareIn := ⟨[2], [], 7, []⟩
    let k₀ : PrepareInbox := .newView 7 []
    let k := ((k₀.handlePrepareMsg m₁ a).2.handlePrepareMsg m₂ a).2
    let k' := ((k₀.handlePrepareMsg m₂ a).2.handlePrepareMsg m₁ a).2
    let H : KramaID → UInt64 → Hash := fun s _ => if s = [1] then ⟨0⟩ else ⟨1⟩
    let o := GoMap.Order.given k.participantToPrepareMsg
    let o' := GoMap.Order.given k'.participantToPrepareMsg
    let st := processPrepareMsgs .insertion H k.msgs (fun _ _ => true) o o
    let st' := processPrepareMsgs .insertion H k'.msgs (fun _ _ => true) o' o'
    k.msgs.length = 2 ∧ st.tried = [0] ∧ st'.tried = [1] ∧
      ∀ m, Answered k st m ↔ Answered k' st' m := by
  intro p a m₁ m₂ k₀ k k' H o o' st st'
  have hk : Run PrepareInbox.Step k₀ [(m₁, a), (m₂, a)] k := .snoc (.snoc .start _ rfl) _ rfl
  have hk' : Run PrepareInbox.Step k₀ [(m₂, a), (m₁, a)] k' := .snoc (.snoc .start _ rfl) _ rfl
  have hmsgs : k.msgs = [⟨m₁, a.participants, _, a.nodup⟩, ⟨m₂, a.participants, _, a.nodup⟩] := rfl
  have hspec := prepareReplies_spec .insertion .insertion H (fun _ _ => true) hk hk' o o o' o'
  have hd : DistinctSenders k.msgs := by
    rw [hmsgs]
    simp [DistinctSenders, m₁, m₂]
  have hperm : k.msgs.Perm k'.msgs := by
    exact List.Perm.swap _ _ _
  have hranks : DistinctRanks H k.msgs := by
    unfold DistinctRanks
    decide
  refine ⟨rfl, by decide, by decide, fun m => ?_⟩
  exact ((hspec.2.2 hd).2.2 hperm hranks m).2

/-- **Two senders that share a participant are both answered.** The messages are on the accounts 1
    and 2, and on 2 and 3; the node is in the contexts of 1 and 3. -/
theorem shared_participant_answered :
    let inContext : Identifier → Bool := fun id => id ≠ ⟨2⟩
    let k₀ : PrepareInbox := .newView 7 []
    let k₁ := (k₀.handlePrepareMsg ⟨[1], [], 7, []⟩ (prepareFor [⟨1⟩, ⟨2⟩] inContext)).2
    let k := (k₁.handlePrepareMsg ⟨[2], [], 7, []⟩ (prepareFor [⟨2⟩, ⟨3⟩] inContext)).2
    let o := GoMap.Order.given k.participantToPrepareMsg
    let st := processPrepareMsgs .insertion (fun _ _ => ⟨0⟩) k.msgs (fun _ _ => true) o o
    ∃ m m', Answered k st m ∧ Answered k st m' ∧ m.msg.sender ≠ m'.msg.sender ∧
      (⟨2⟩ : Identifier) ∈ m.participants ∧ (⟨2⟩ : Identifier) ∈ m'.participants := by
  intro inContext k₀ k₁ k o st
  refine ⟨_, _, ⟨0, rfl, by decide⟩, ⟨1, rfl, by decide⟩, ?_⟩
  decide

end GoMoi
