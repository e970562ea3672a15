/-
  File:      GoMoi/Common/LeaderAgreement.lean
  Subject:   Whether nodes with the same interactions agree on the account that leads
             (`NewInteractionsWithLeaderCheck`, `UpdateLeaderCandidateID` of
             `common/interaction.go`).

  A node chooses the candidate of an interaction when it decodes it, in an iteration order of its
  own. Sarga, the system account and an invalid account each end the loop, so where two of them are
  participants the order decides. The candidate of a list is made from the candidates of its
  members; the first that is Sarga or the system account wins.

  * `ChosenBy` -- an interaction as some node may hold it; `sameListAgrees_iff`,
    `permutedAgrees_iff`;
  * **`leaderAgreement_iff`** -- all three together.
-/
import GoMoi.Common.LeaderCandidate

namespace GoMoi

open AccountIDs List

/-! ## 1. The leader of a list -/

section

variable (ids : AccountIDs)

/-- The loop of `NewInteractionsWithLeaderCheck`. -/
def listCandidates : List Interaction → List Identifier × List Identifier →
    Identifier ⊕ (List Identifier × List Identifier)
  | [], found => .inr found
  | ixn :: rest, (regular, nonRegular) =>
    if ids.accountTypeFromID ixn.leaderCandidateAcc = .systemAccount then
      .inl ixn.leaderCandidateAcc
    else if ids.accountTypeFromID ixn.leaderCandidateAcc = .regularAccount then
      listCandidates rest (regular ++ [ixn.leaderCandidateAcc], nonRegular)
    else listCandidates rest (regular, nonRegular ++ [ixn.leaderCandidateAcc])

/-- `NewInteractionsWithLeaderCheck`: the candidate of the list. -/
def newInteractionsWithLeaderCheck (checkForLeader : Bool) (l : List Interaction) : Identifier :=
  if !checkForLeader then nilIdentifier
  else match listCandidates ids l ([], []) with
    | .inl id => id
    | .inr (regular, nonRegular) =>
      match nonRegular.mergeSort (· ≤ ·), regular.mergeSort (· ≤ ·) with
      | id :: _, _ => id
      | [], id :: _ => id
      | [], [] => nilIdentifier

variable {ids} {id : Identifier} {l held : List Interaction} {ix : Interaction}

theorem AccountIDs.type_eq_system :
    ids.accountTypeFromID id = .systemAccount ↔ ids.isSpecial id = true := by
  refine ⟨fun h => ?_, isSpecial_type⟩
  unfold accountTypeFromID at h
  split at h
  next hsp => exact decide_eq_true hsp.symm
  next => split_ifs at h

/-- **The loop over the list in closed form**, over the candidates of its members. -/
theorem listCandidates_eq (l : List Interaction) (found : List Identifier × List Identifier) :
    listCandidates ids l found =
      let leaders := l.map (·.leaderCandidateAcc)
      match leaders.find? ids.isSpecial with
      | some id => .inl id
      | none =>
        .inr (found.1 ++ leaders.filter fun id => ids.accountTypeFromID id = .regularAccount,
          found.2 ++ leaders.filter fun id => ¬ ids.accountTypeFromID id = .regularAccount) := by
  induction l generalizing found with
  | nil => simp [listCandidates]
  | cons ixn rest ih =>
    simp only [listCandidates, type_eq_system, map_cons, List.find?_cons]
    by_cases hsp : ids.isSpecial ixn.leaderCandidateAcc = true
    · simp [hsp]
    by_cases hreg : ids.accountTypeFromID ixn.leaderCandidateAcc = .regularAccount
    · simp [hsp, hreg, ih]
    · simp [hsp, hreg, ih]

/-- **The candidate of a list in closed form.** -/
theorem newInteractionsWithLeaderCheck_eq (l : List Interaction) :
    newInteractionsWithLeaderCheck ids true l =
      let leaders := l.map (·.leaderCandidateAcc)
      match leaders.find? ids.isSpecial with
      | some id => id
      | none =>
        ((leastOf (leaders.filter fun id => ¬ ids.accountTypeFromID id = .regularAccount)).or
          (leastOf (leaders.filter fun id => ids.accountTypeFromID id = .regularAccount))).getD
            nilIdentifier := by
  rw [newInteractionsWithLeaderCheck, listCandidates_eq]
  simp only [Bool.not_true, Bool.false_eq_true, if_false, nil_append]
  cases (l.map (·.leaderCandidateAcc)).find? ids.isSpecial with
  | some id => rfl
  | none =>
    simp only [leastOf]
    generalize (List.filter _ (l.map (·.leaderCandidateAcc))).mergeSort _ = nonRegular
    generalize (List.filter _ (l.map (·.leaderCandidateAcc))).mergeSort _ = regular
    cases nonRegular with
    | cons id _ => rfl
    | nil =>
      cases regular <;> rfl

/-- **Without Sarga and the system account, the order of the list does not matter.** -/
theorem newInteractionsWithLeaderCheck_perm {l' : List Interaction}
    (hperm : (l.map (·.leaderCandidateAcc)).Perm (l'.map (·.leaderCandidateAcc)))
    (hsp : ∀ ix ∈ l, ids.isSpecial ix.leaderCandidateAcc = false) :
    newInteractionsWithLeaderCheck ids true l = newInteractionsWithLeaderCheck ids true l' := by
  have hnone : (l.map (·.leaderCandidateAcc)).find? ids.isSpecial = none := by
    simpa using hsp
  have hnone' : (l'.map (·.leaderCandidateAcc)).find? ids.isSpecial = none := by
    rw [List.find?_eq_none] at hnone ⊢
    exact fun id hid => hnone id (hperm.mem_iff.mpr hid)
  rw [newInteractionsWithLeaderCheck_eq, newInteractionsWithLeaderCheck_eq]
  simp [hnone, hnone', leastOf_perm (hperm.filter _)]

/-! ## 2. Agreement on one interaction -/

variable (ids) in
/-- The participants hold at most one of Sarga, the system account and an invalid account, which all
    end the loop, each in its own way. -/
def Unambiguous (ps : ParticipantInfos) : Prop :=
  ¬ (ids.sargaAccountID ∈ ps ∧ ids.systemAccountID ∈ ps) ∧
  ¬ ((ids.sargaAccountID ∈ ps ∨ ids.systemAccountID ∈ ps) ∧
    ∃ id ∈ ps, ids.accountTypeFromID id = .invalidAccount)

/-- Where not both are, the two accounts are one. -/
theorem AccountIDs.special_unique {P : Identifier → Prop} {id' : Identifier}
    (hnot : ¬ (P ids.sargaAccountID ∧ P ids.systemAccountID)) (h : ids.isSpecial id = true)
    (h' : ids.isSpecial id' = true) (hP : P id) (hP' : P id') : id = id' := by
  obtain rfl | rfl := of_decide_eq_true h
  · obtain rfl | rfl := of_decide_eq_true h'
    · rfl
    · exact absurd ⟨hP, hP'⟩ hnot
  · obtain rfl | rfl := of_decide_eq_true h'
    · exact absurd ⟨hP', hP⟩ hnot
    · rfl

theorem unambiguous_iff (ps : ParticipantInfos) :
    Unambiguous ids ps ↔ ∀ id ∈ ps, ∀ id' ∈ ps, ids.stops id = true → ids.stops id' = true →
      ids.verdict id = ids.verdict id' := by
  have hsarga : ids.isSpecial ids.sargaAccountID = true := by simp [isSpecial]
  have hsystem : ids.isSpecial ids.systemAccountID = true := by simp [isSpecial]
  have hstop : ∀ {id}, ids.isSpecial id = true → ids.stops id = true := fun h => by
    simp [stops, h]
  have herr : ∀ {id}, ids.accountTypeFromID id = .invalidAccount →
      ids.verdict id = .error (.sentinel .errInvalidIdentifier) := fun h => if_pos h
  constructor
  · intro hun id hid id' hid' hs hs'
    obtain ⟨hboth, hmix⟩ := hun
    simp only [stops, Bool.or_eq_true, decide_eq_true_eq] at hs hs'
    have hsp : ∀ {id}, id ∈ ps → ids.isSpecial id = true →
        ids.sargaAccountID ∈ ps ∨ ids.systemAccountID ∈ ps := by
      intro id hid h
      obtain rfl | rfl := of_decide_eq_true h
      · exact .inl hid
      · exact .inr hid
    obtain hinv | hspec := hs
    · obtain hinv' | hspec' := hs'
      · rw [herr hinv, herr hinv']
      · exact absurd ⟨hsp hid' hspec', id, hid, hinv⟩ hmix
    · obtain hinv' | hspec' := hs'
      · exact absurd ⟨hsp hid hspec, id', hid', hinv'⟩ hmix
      · rw [special_unique hboth hspec hspec' hid hid']
  · intro h
    refine ⟨fun hboth => ?_, fun hmix => ?_⟩
    · have := h _ hboth.1 _ hboth.2 (hstop hsarga) (hstop hsystem)
      rw [verdict_special hsarga, verdict_special hsystem] at this
      exact ids.ne (Except.ok.inj this)
    obtain ⟨h1, id, hid, hinv⟩ := hmix
    have hs : ids.stops id = true := by simp [stops, hinv]
    obtain h1 | h1 := h1
    · have := h _ h1 _ hid (hstop hsarga) hs
      rw [verdict_special hsarga, herr hinv] at this
      cases this
    · have := h _ h1 _ hid (hstop hsystem) hs
      rw [verdict_special hsystem, herr hinv] at this
      cases this

/-- Some iteration comes to a given account first. -/
theorem updateLeaderCandidateID_first {ps : ParticipantInfos} (hid : id ∈ ps)
    (hs : ids.stops id = true) :
    ∃ order, order.Perm ps.keys ∧ updateLeaderCandidateID ids order ps = .ok (ids.verdict id) := by
  have hkey := AList.mem_keys.mp hid
  have hperm : (id :: ps.keys.erase id).Perm ps.keys := (perm_cons_erase hkey).symm
  refine ⟨_, hperm, ?_⟩
  rw [updateLeaderCandidateID_eq ps hperm (ne_nil_of_mem hkey), List.find?_cons, hs]

/-- **The choice for one interaction**: the same for every iteration order, exactly without a
    clash. -/
theorem orderFree_iff (ps : ParticipantInfos) :
    (∀ order order', order.Perm ps.keys → order'.Perm ps.keys →
      updateLeaderCandidateID ids order ps = updateLeaderCandidateID ids order' ps) ↔
      Unambiguous ids ps := by
  rw [unambiguous_iff]
  constructor
  · intro h id hid id' hid' hs hs'
    obtain ⟨o, ho, hoeq⟩ := updateLeaderCandidateID_first hid hs
    obtain ⟨o', ho', hoeq'⟩ := updateLeaderCandidateID_first hid' hs'
    exact Except.ok.inj (hoeq.symm.trans ((h o o' ho ho').trans hoeq'))
  · intro h o o' ho ho'
    by_cases hne : ps.keys = []
    · simp [updateLeaderCandidateID, hne]
    have hmem : ∀ id, id ∈ o → id ∈ ps := fun id hid => AList.mem_keys.mpr (ho.mem_iff.mp hid)
    have hmem' : ∀ id, id ∈ o' → id ∈ ps := fun id hid => AList.mem_keys.mpr (ho'.mem_iff.mp hid)
    have hoo : o.Perm o' := ho.trans ho'.symm
    rw [updateLeaderCandidateID_eq ps ho hne, updateLeaderCandidateID_eq ps ho' hne]
    cases hf : o.find? ids.stops with
    | some id =>
      have hid := mem_of_find?_eq_some hf
      cases hf' : o'.find? ids.stops with
      | some id' =>
        have hid' := mem_of_find?_eq_some hf'
        show Except.ok _ = Except.ok _
        rw [h id (hmem id hid) id' (hmem' id' hid') (List.find?_some hf) (List.find?_some hf')]
      | none =>
        exact absurd (List.find?_some hf) (List.find?_eq_none.mp hf' id (hoo.mem_iff.mp hid))
    | none =>
      have hf' : o'.find? ids.stops = none := by
        rw [List.find?_eq_none] at hf ⊢
        exact fun id hid => hf id (hoo.mem_iff.mpr hid)
      simp [hf', leastOf_perm (hoo.filter _)]

variable (ids) in
/-- The interaction as a node may hold it: with the candidate of some iteration order. -/
def ChosenBy (ix ix' : Interaction) : Prop :=
  ∃ order leader, order.Perm ix.ps.keys ∧
    updateLeaderCandidateID ids order ix.ps = .ok (.ok leader) ∧
    ix' = { ix with leaderCandidateAcc := leader }

variable (ids) in
/-- Sarga or the system account is a participant. -/
def namesSpecial (ix : Interaction) : Bool := ix.ps.keys.any ids.isSpecial

/-! ## 3. Agreement on a list -/

variable {ix' : Interaction}

/-- An iteration that comes to Sarga or the system account ends with it. -/
theorem ChosenBy.special (h : ChosenBy ids ix ix') (hsp : namesSpecial ids ix = true) :
    ids.isSpecial ix'.leaderCandidateAcc = true ∧ ix'.leaderCandidateAcc ∈ ix.ps := by
  obtain ⟨order, _, hperm, heq, rfl⟩ := h
  obtain ⟨id, hid, hs⟩ := any_eq_true.mp hsp
  have hstop : ids.stops id = true := by simp [stops, hs]
  rw [updateLeaderCandidateID_eq _ hperm (ne_nil_of_mem hid)] at heq
  rcases hf : order.find? ids.stops with _ | _
  · exact absurd hstop (List.find?_eq_none.mp hf id (hperm.mem_iff.mpr hid))
  simp only [hf, verdict] at heq
  have hs1 := List.find?_some hf
  split at heq
  · cases heq
  next hvalid =>
    cases heq
    simp only [stops, hvalid, decide_false, Bool.false_or] at hs1
    exact ⟨hs1, AList.mem_keys.mpr (hperm.mem_iff.mp (mem_of_find?_eq_some hf))⟩

variable (ids) in
/-- The candidate of an interaction without Sarga and the system account. -/
def plainLeader (ix : Interaction) : Identifier :=
  ((leastOf (ix.ps.keys.filter (picksOther ids ix.ps))).or
    (leastOf (ix.ps.keys.filter (picksRegular ids ix.ps)))).getD nilIdentifier

theorem ChosenBy.plain (h : ChosenBy ids ix ix') (hsp : namesSpecial ids ix = false) :
    ix'.leaderCandidateAcc = plainLeader ids ix ∧ ids.isSpecial ix'.leaderCandidateAcc = false := by
  obtain ⟨order, _, hperm, heq, rfl⟩ := h
  have hnot : ∀ id ∈ ix.ps.keys, ids.isSpecial id = false := by
    simpa [namesSpecial] using hsp
  have hne : ix.ps.keys ≠ [] := by
    intro hnil
    simp [updateLeaderCandidateID, hnil] at heq
  rw [updateLeaderCandidateID_eq _ hperm hne] at heq
  cases hf : order.find? ids.stops with
  | some id =>
    have hs := List.find?_some hf
    have hid := hnot id (hperm.mem_iff.mp (mem_of_find?_eq_some hf))
    have hinv : ids.accountTypeFromID id = .invalidAccount := by
      simpa [stops, hid] using hs
    simp [hf, verdict, hinv] at heq
  | none =>
    rw [plainLeader, leastOf_perm (hperm.symm.filter _), leastOf_perm (hperm.symm.filter _)]
    simp only [hf] at heq
    cases hl : (leastOf (order.filter (picksOther ids ix.ps))).or
        (leastOf (order.filter (picksRegular ids ix.ps))) with
    | none => simp [hl] at heq
    | some id =>
      simp only [hl] at heq
      cases heq
      refine ⟨rfl, hnot _ (hperm.mem_iff.mp ?_)⟩
      obtain ho | ⟨-, ho⟩ := Option.or_eq_some_iff.mp hl
      · exact (mem_filter.mp (leastOf_mem ho)).1
      · exact (mem_filter.mp (leastOf_mem ho)).1

/-- A member that names one of the two accounts may be held with that account as its candidate. -/
theorem chosenBy_special (hid : id ∈ ix.ps) (hsp : ids.isSpecial id = true) :
    ChosenBy ids ix { ix with leaderCandidateAcc := id } := by
  have hstop : ids.stops id = true := by simp [stops, hsp]
  obtain ⟨order, hperm, heq⟩ := updateLeaderCandidateID_first hid hstop
  rw [verdict_special hsp] at heq
  exact ⟨order, id, hperm, heq, rfl⟩

variable (ids) in
/-- A list of interactions as a node may hold it. -/
def HeldAs (l held : List Interaction) : Prop := List.Forall₂ (ChosenBy ids) l held

variable (ids) in
/-- The members are interactions that exist: some iteration gives them a candidate. -/
def Created (l : List Interaction) : Prop := ∀ ix ∈ l, ∃ ix', ChosenBy ids ix ix'

variable (ids) in
/-- Any two nodes that hold the list have the same candidate for it. -/
def SameListAgrees (l : List Interaction) : Prop :=
  ∀ held held', HeldAs ids l held → HeldAs ids l held' →
    newInteractionsWithLeaderCheck ids true held = newInteractionsWithLeaderCheck ids true held'

variable (ids) in
/-- Any two nodes that hold the interactions, each in its own order, have the same candidate. -/
def PermutedAgrees (l : List Interaction) : Prop :=
  ∀ l₁ l₂ held held', l₁.Perm l → l₂.Perm l → HeldAs ids l₁ held → HeldAs ids l₂ held' →
    newInteractionsWithLeaderCheck ids true held = newInteractionsWithLeaderCheck ids true held'

theorem Created.exists_held (h : Created ids l) : ∃ held, HeldAs ids l held := by
  induction l with
  | nil => exact ⟨[], .nil⟩
  | cons ix rest ih =>
    obtain ⟨hix, hrest⟩ := forall_mem_cons.mp h
    obtain ⟨ix', hix'⟩ := hix
    obtain ⟨held, hheld⟩ := ih hrest
    exact ⟨ix' :: held, .cons hix' hheld⟩

theorem forall₂_of_mem {R : Interaction → Interaction → Prop} (h : List.Forall₂ R l held)
    (hm : ix ∈ l) : ∃ ix' ∈ held, R ix ix' := by
  induction h with
  | nil => cases hm
  | cons hix _ ih =>
    obtain rfl | hm := mem_cons.mp hm
    · exact ⟨_, mem_cons_self, hix⟩
    · obtain ⟨ix', hl, hch⟩ := ih hm
      exact ⟨ix', mem_cons_of_mem _ hl, hch⟩

theorem HeldAs.of_mem_held (h : HeldAs ids l held) (hm : ix' ∈ held) :
    ∃ ix ∈ l, ChosenBy ids ix ix' :=
  forall₂_of_mem (List.Forall₂.flip h) hm

/-- Two nodes go through the same rounds up to the first member that names Sarga or the system
    account. -/
theorem listCandidates_held {held' : List Interaction}
    (hone : ∀ ix, l.find? (namesSpecial ids) = some ix →
      ¬ (ids.sargaAccountID ∈ ix.ps ∧ ids.systemAccountID ∈ ix.ps)) (h : HeldAs ids l held)
    (h' : HeldAs ids l held') (found : List Identifier × List Identifier) :
    listCandidates ids held found = listCandidates ids held' found := by
  induction l generalizing held held' found with
  | nil =>
    cases h
    cases h'
    rfl
  | cons ix rest ih =>
    cases h with
    | cons hix hrest =>
    cases h' with
    | cons hix' hrest' =>
    rw [listCandidates, listCandidates]
    cases hsp : namesSpecial ids ix with
    | true =>
      obtain ⟨hs, hm⟩ := hix.special hsp
      obtain ⟨hs', hm'⟩ := hix'.special hsp
      rw [if_pos (isSpecial_type hs), if_pos (isSpecial_type hs')]
      have hnot := hone ix (List.find?_cons_of_pos hsp)
      rw [special_unique hnot hs hs' hm hm']
    | false =>
      have hsame : _ = _ := (hix.plain hsp).1.trans (hix'.plain hsp).1.symm
      have hone' : ∀ ix, rest.find? (namesSpecial ids) = some ix →
          ¬ (ids.sargaAccountID ∈ ix.ps ∧ ids.systemAccountID ∈ ix.ps) := by
        intro ix1 hf
        refine hone ix1 ?_
        rwa [List.find?_cons_of_neg (by simp [hsp])]
      rw [hsame, ih hone' hrest hrest', ih hone' hrest hrest']

/-- The first candidate that is Sarga or the system account leads the list. -/
theorem listLeader_of_split {as heldA heldB : List Interaction} (h : HeldAs ids as heldA)
    (has : ∀ a ∈ as, namesSpecial ids a = false)
    (hix : ids.isSpecial ix.leaderCandidateAcc = true) :
    newInteractionsWithLeaderCheck ids true (heldA ++ ix :: heldB) = ix.leaderCandidateAcc := by
  have hnone : (heldA.map (·.leaderCandidateAcc)).find? ids.isSpecial = none := by
    rw [List.find?_eq_none]
    intro id hid
    obtain ⟨_, ha', rfl⟩ := mem_map.mp hid
    obtain ⟨a, ha, hch⟩ := h.of_mem_held ha'
    simp [(hch.plain (has a ha)).2]
  rw [newInteractionsWithLeaderCheck_eq]
  simp [hnone, hix]

/-- **Nodes with the same list agree** exactly if the first member that names Sarga or the system
    account names only one of them. -/
theorem sameListAgrees_iff (hc : Created ids l) :
    SameListAgrees ids l ↔ ∀ ix, l.find? (namesSpecial ids) = some ix →
      ¬ (ids.sargaAccountID ∈ ix.ps ∧ ids.systemAccountID ∈ ix.ps) := by
  constructor
  · intro h ix hf ⟨hsarga, hsystem⟩
    obtain ⟨-, as, _, rfl, has⟩ := List.find?_eq_some_iff_append.mp hf
    obtain ⟨_, hA⟩ := Created.exists_held fun a ha => hc a (mem_append_left _ ha)
    obtain ⟨_, hB⟩ := Created.exists_held fun b hb =>
      hc b (mem_append_right _ (mem_cons_of_mem _ hb))
    have has' : ∀ a ∈ as, namesSpecial ids a = false := fun a ha => by simpa using has a ha
    have hs : ids.isSpecial ids.sargaAccountID = true := by simp [isSpecial]
    have hs' : ids.isSpecial ids.systemAccountID = true := by simp [isSpecial]
    -- one node meets Sarga first, the other the system account
    have heq := h _ _ (rel_append hA (.cons (chosenBy_special hsarga hs) hB))
      (rel_append hA (.cons (chosenBy_special hsystem hs') hB))
    rw [listLeader_of_split hA has' hs, listLeader_of_split hA has' hs'] at heq
    exact ids.ne heq
  · intro hone held held' h h'
    rw [newInteractionsWithLeaderCheck, newInteractionsWithLeaderCheck,
      listCandidates_held hone h h']

/-- A list in which a member names Sarga or the system account is led by one of them that a member
    names. -/
theorem listLeader_special (h : HeldAs ids l held) (hix : ix ∈ l)
    (hsp : namesSpecial ids ix = true) :
    ids.isSpecial (newInteractionsWithLeaderCheck ids true held) = true ∧
      ∃ ix ∈ l, newInteractionsWithLeaderCheck ids true held ∈ ix.ps := by
  obtain ⟨_, hheld, hch⟩ := forall₂_of_mem h hix
  rcases hf : (held.map (·.leaderCandidateAcc)).find? ids.isSpecial with _ | id
  · have := List.find?_eq_none.mp hf _ (mem_map_of_mem hheld)
    exact absurd (hch.special hsp).1 this
  have heq : newInteractionsWithLeaderCheck ids true held = id := by
    rw [newInteractionsWithLeaderCheck_eq]
    simp [hf]
  have hid := List.find?_some hf
  obtain ⟨_, hy', rfl⟩ := mem_map.mp (mem_of_find?_eq_some hf)
  obtain ⟨y, hy, hchy⟩ := h.of_mem_held hy'
  rw [heq]
  refine ⟨hid, y, hy, ?_⟩
  cases hys : namesSpecial ids y with
  | true => exact (hchy.special hys).2
  | false => exact absurd hid (by simp [(hchy.plain hys).2])

theorem HeldAs.map_leader (h : HeldAs ids l held) (hl : ∀ ix ∈ l, namesSpecial ids ix = false) :
    held.map (·.leaderCandidateAcc) = l.map (plainLeader ids) := by
  induction h with
  | nil => rfl
  | cons hix _ ih =>
    obtain ⟨h1, hrest⟩ := forall_mem_cons.mp hl
    rw [map_cons, map_cons, (hix.plain h1).1, ih hrest]

/-- **Nodes with the same interactions in any order agree** exactly if no two members name Sarga and
    the system account. -/
theorem permutedAgrees_iff (hc : Created ids l) :
    PermutedAgrees ids l ↔
      ¬ ((∃ ix ∈ l, ids.sargaAccountID ∈ ix.ps) ∧ ∃ ix ∈ l, ids.systemAccountID ∈ ix.ps) := by
  have hfront : ∀ {ix id}, ix ∈ l → id ∈ ix.ps → ids.isSpecial id = true →
      ∃ l1 held, l1.Perm l ∧ HeldAs ids l1 held ∧
        newInteractionsWithLeaderCheck ids true held = id := by
    intro ix id hix hid hs
    obtain ⟨as, bs, rfl⟩ := append_of_mem hix
    have hrest : Created ids (as ++ bs) := fun b hb =>
      hc b (mem_append.mpr ((mem_append.mp hb).imp_right (mem_cons_of_mem _)))
    obtain ⟨held, hheld⟩ := hrest.exists_held
    refine ⟨ix :: (as ++ bs), _, perm_middle.symm, .cons (chosenBy_special hid hs) hheld, ?_⟩
    have hnil : HeldAs ids [] [] := .nil
    exact listLeader_of_split hnil (by simp) hs
  constructor
  · intro h ⟨⟨ix, hix, hsarga⟩, ix', hix', hsystem⟩
    obtain ⟨l1, held, hp, hh, heq⟩ := hfront hix hsarga (by simp [isSpecial])
    obtain ⟨l2, held', hp', hh', heq'⟩ := hfront hix' hsystem (by simp [isSpecial])
    exact ids.ne (heq.symm.trans ((h l1 l2 held held' hp hp' hh hh').trans heq'))
  · intro hnot l1 l2 held held' hp hp' hh hh'
    by_cases hsp : ∃ ix ∈ l, namesSpecial ids ix = true
    · obtain ⟨ix, hix, hs⟩ := hsp
      obtain ⟨h1, y, hy, hm⟩ := listLeader_special hh (hp.mem_iff.mpr hix) hs
      obtain ⟨h1', y', hy', hm'⟩ := listLeader_special hh' (hp'.mem_iff.mpr hix) hs
      exact special_unique (P := fun id => ∃ ix ∈ l, id ∈ ix.ps) hnot h1 h1'
        ⟨y, hp.mem_iff.mp hy, hm⟩ ⟨y', hp'.mem_iff.mp hy', hm'⟩
    have hplain : ∀ ix ∈ l, namesSpecial ids ix = false := fun ix hix =>
      Bool.eq_false_iff.mpr fun h => hsp ⟨ix, hix, h⟩
    have hplain1 : ∀ ix ∈ l1, namesSpecial ids ix = false := fun ix hix =>
      hplain ix (hp.mem_iff.mp hix)
    have hplain2 : ∀ ix ∈ l2, namesSpecial ids ix = false := fun ix hix =>
      hplain ix (hp'.mem_iff.mp hix)
    refine newInteractionsWithLeaderCheck_perm ?_ fun ix' hix' => ?_
    · rw [hh.map_leader hplain1, hh'.map_leader hplain2]
      exact (hp.trans hp'.symm).map _
    · obtain ⟨ix, hix, hch⟩ := hh.of_mem_held hix'
      exact (hch.plain (hplain1 ix hix)).2

end

/-- **When nodes agree on the leader.** For one interaction the choice, with its success, is free of
    the iteration order exactly if the participants hold at most one of Sarga, the system account
    and an invalid account. For a list of interactions that exist, see the parts above. -/
theorem leaderAgreement_iff (ids : AccountIDs) :
    (∀ ix : Interaction,
      (∀ order order', order.Perm ix.ps.keys → order'.Perm ix.ps.keys →
        updateLeaderCandidateID ids order ix.ps = updateLeaderCandidateID ids order' ix.ps) ↔
        Unambiguous ids ix.ps) ∧
    (∀ l, Created ids l →
      (SameListAgrees ids l ↔ ∀ ix, l.find? (namesSpecial ids) = some ix →
        ¬ (ids.sargaAccountID ∈ ix.ps ∧ ids.systemAccountID ∈ ix.ps))) ∧
    (∀ l, Created ids l →
      (PermutedAgrees ids l ↔
        ¬ ((∃ ix ∈ l, ids.sargaAccountID ∈ ix.ps) ∧ ∃ ix ∈ l, ids.systemAccountID ∈ ix.ps))) :=
  ⟨fun ix => orderFree_iff ix.ps, fun _ => sameListAgrees_iff, fun _ => permutedAgrees_iff⟩

/-- An interaction without operations that locks the given accounts. -/
def locking (l : List Identifier) : Interaction :=
  let inner : IxData := ⟨⟨⟨7⟩, 0, 0⟩, nilIdentifier, none, 0, [], l.map (⟨·, mutateLock, false⟩)⟩
  ⟨inner, [], inner.participantsInfo, nilIdentifier, nilHash, 0, []⟩

/-- Two interactions, of which one names Sarga. -/
def namingSarga : List Interaction :=
  [locking [⟨7⟩], locking [⟨7⟩, namedAccounts.sargaAccountID]]

/-- The nodes agree on them. -/
theorem nodes_agree : Created namedAccounts namingSarga ∧
    SameListAgrees namedAccounts namingSarga ∧ PermutedAgrees namedAccounts namingSarga := by
  have hcreated : Created namedAccounts namingSarga := by
    intro ix hix
    rcases List.mem_pair.mp hix with rfl | rfl
    · refine ⟨_, [⟨7⟩], ⟨7⟩, .refl _, ?_, rfl⟩
      have hstop : [⟨7⟩].find? namedAccounts.stops = none := by decide
      have hother : [⟨7⟩].filter (picksOther namedAccounts (locking [⟨7⟩]).ps) = [] := by decide
      have hregular : [⟨7⟩].filter (picksRegular namedAccounts (locking [⟨7⟩]).ps) = [⟨7⟩] := by
        decide
      have hperm : [⟨7⟩].Perm (locking [⟨7⟩]).ps.keys := .refl _
      rw [updateLeaderCandidateID_eq _ hperm (by decide), hstop, hother, hregular]
      simp [leastOf]
    · have hsarga : namedAccounts.sargaAccountID ∈
          (locking [⟨7⟩, namedAccounts.sargaAccountID]).ps := by decide
      exact ⟨_, chosenBy_special hsarga (by decide)⟩
  obtain ⟨-, hsame, hpermuted⟩ := leaderAgreement_iff namedAccounts
  refine ⟨hcreated, (hsame _ hcreated).mpr fun ix hix => ?_, (hpermuted _ hcreated).mpr ?_⟩
  · obtain rfl | rfl := List.mem_pair.mp (List.mem_of_find?_eq_some hix) <;> decide
  · decide

/-- **Two nodes that decode one interaction may disagree**: on the candidate, or on whether there is
    an interaction at all. -/
theorem nodes_disagree :
    let sender : IxParticipant := ⟨⟨7⟩, mutateLock, false⟩
    let sarga : IxParticipant := ⟨namedAccounts.sargaAccountID, mutateLock, false⟩
    let system : IxParticipant := ⟨namedAccounts.systemAccountID, mutateLock, false⟩
    let other : IxParticipant := ⟨⟨0xF <<< 252⟩, noLock, false⟩
    let data (l : List IxParticipant) : IxData := ⟨⟨⟨7⟩, 0, 0⟩, nilIdentifier, none, 0, [], l⟩
    let ps := (data [sender, sarga, system]).participantsInfo
    let ps' := (data [sender, sarga, other]).participantsInfo
    (∃ order order', order.Perm ps.keys ∧ order'.Perm ps.keys ∧
      updateLeaderCandidateID namedAccounts order ps = .ok (.ok namedAccounts.sargaAccountID) ∧
      updateLeaderCandidateID namedAccounts order' ps = .ok (.ok namedAccounts.systemAccountID)) ∧
    (∃ order order', order.Perm ps'.keys ∧ order'.Perm ps'.keys ∧
      updateLeaderCandidateID namedAccounts order ps' = .ok (.ok namedAccounts.sargaAccountID) ∧
      updateLeaderCandidateID namedAccounts order' ps' =
        .ok (.error (.sentinel .errInvalidIdentifier))) := by
  intro sender sarga system other data ps ps'
  have hstops : ∀ id ∈ [sarga.id, system.id, other.id], namedAccounts.stops id = true := by decide
  have hin : sarga.id ∈ ps ∧ system.id ∈ ps ∧ sarga.id ∈ ps' ∧ other.id ∈ ps' := by decide
  obtain ⟨h1, h2, h3, h4⟩ := hin
  obtain ⟨o1, hp1, he1⟩ := updateLeaderCandidateID_first h1 (hstops _ (by simp))
  obtain ⟨o2, hp2, he2⟩ := updateLeaderCandidateID_first h2 (hstops _ (by simp))
  obtain ⟨o3, hp3, he3⟩ := updateLeaderCandidateID_first h3 (hstops _ (by simp))
  obtain ⟨o4, hp4, he4⟩ := updateLeaderCandidateID_first h4 (hstops _ (by simp))
  have hinv : namedAccounts.verdict other.id = .error (.sentinel .errInvalidIdentifier) :=
    if_pos (by decide)
  rw [hinv] at he4
  exact ⟨⟨o1, o2, hp1, hp2, he1, he2⟩, o3, o4, hp3, hp4, he3, he4⟩

end GoMoi
