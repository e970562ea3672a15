/-
  File:      GoMoi/Common/LeaderCandidate.lean
  Subject:   The account that leads an interaction, and when `NewInteraction` finds one
             (`UpdateLeaderCandidateID`, `NewInteraction` of `common/interaction.go`).

  The loop of `UpdateLeaderCandidateID` goes over the participants in the order of one iteration of
  the map. It stops at the first invalid account, with an error, or at the first of Sarga and the
  system account, which leads. If it never stops, the least account leads that has a mutate lock and
  is not new, accounts other than regular ones first. If there is none, the code reads the first
  element of an empty list.

  * **`newInteraction_returns_iff`** -- `NewInteraction` returns unless nobody can lead.
-/
import GoMoi.Common.Interaction

namespace GoMoi

open AccountIDs List AList Option ParticipantInfos

/-! ## 1. The loop -/

section

variable (ids : AccountIDs)

/-- Sarga or the system account. -/
def AccountIDs.isSpecial (id : Identifier) : Bool :=
  decide (id = ids.sargaAccountID ∨ id = ids.systemAccountID)

/-- The loop ends at such an account. -/
def AccountIDs.stops (id : Identifier) : Bool :=
  decide (ids.accountTypeFromID id = .invalidAccount) || ids.isSpecial id

/-- What the loop returns where it ends. -/
def AccountIDs.verdict (id : Identifier) : Except Err Identifier :=
  if ids.accountTypeFromID id = .invalidAccount then .error (.sentinel .errInvalidIdentifier)
  else .ok id

/-- A regular account that the loop collects. -/
def picksRegular (ps : ParticipantInfos) (id : Identifier) : Bool :=
  (ps.lookup id).any fun info =>
    !info.isGenesis && decide (ids.accountTypeFromID id = .regularAccount ∧
      info.lockType = mutateLock)

/-- Another account that the loop collects. -/
def picksOther (ps : ParticipantInfos) (id : Identifier) : Bool :=
  (ps.lookup id).any fun info =>
    !info.isGenesis &&
      !decide (ids.accountTypeFromID id = .regularAccount ∧ info.lockType = mutateLock) &&
      decide (info.lockType.val < readLock.val)

variable {ids} {id : Identifier} {l order : List Identifier}

theorem AccountIDs.isSpecial_type (h : ids.isSpecial id = true) :
    ids.accountTypeFromID id = .systemAccount := by
  simp only [isSpecial, decide_eq_true_eq] at h
  exact if_pos h.symm

theorem AccountIDs.verdict_special (h : ids.isSpecial id = true) : ids.verdict id = .ok id := by
  rw [verdict, isSpecial_type h]
  rfl

variable (ps : ParticipantInfos)

/-- **The loop in closed form.** -/
theorem candidates_eq (order : List Identifier) (found : List Identifier × List Identifier)
    (h : ∀ id ∈ order, id ∈ ps) :
    candidates ids ps order found =
      match order.find? ids.stops with
      | some id => (ids.verdict id).map .inl
      | none =>
        .ok (.inr (found.1 ++ order.filter (picksRegular ids ps),
          found.2 ++ order.filter (picksOther ids ps))) := by
  induction order generalizing found with
  | nil => simp [candidates]
  | cons id rest ih =>
    obtain ⟨hid, hrest⟩ := forall_mem_cons.mp h
    obtain ⟨info, hinfo⟩ := isSome_iff_exists.mp (lookup_isSome.mpr hid)
    rw [candidates, hinfo, List.find?_cons]
    by_cases hinv : ids.accountTypeFromID id = .invalidAccount
    · simp [stops, hinv, verdict, Except.map]
    by_cases hsp : id = ids.sargaAccountID ∨ id = ids.systemAccountID
    · simp [stops, isSpecial, hinv, hsp, verdict, Except.map]
    have hstop : ids.stops id = false := by
      simp [stops, isSpecial, hinv, hsp]
    simp only [hinv, hsp, if_false, hstop]
    by_cases hg : info.isGenesis = true
    · have hr : picksRegular ids ps id = false := by simp [picksRegular, hinfo, hg]
      have ho : picksOther ids ps id = false := by simp [picksOther, hinfo, hg]
      simp [hg, ih _ hrest, hr, ho]
    by_cases hm : ids.accountTypeFromID id = .regularAccount ∧ info.lockType = mutateLock
    · have hr : picksRegular ids ps id = true := by simp [picksRegular, hinfo, hg, hm]
      have ho : picksOther ids ps id = false := by simp [picksOther, hinfo, hm]
      simp only [hg, if_false, hm, and_self, if_true, ih _ hrest, filter_cons, hr, ho,
        Bool.false_eq_true, append_assoc, singleton_append]
    have hr : picksRegular ids ps id = false := by
      simp only [picksRegular, hinfo, any_some, hm, decide_false, Bool.and_false]
    by_cases hl : info.lockType.val < readLock.val
    · have ho : picksOther ids ps id = true := by
        simp only [picksOther, hinfo, any_some, hm, hl, decide_false, decide_true,
          Bool.not_false, Bool.and_true, hg]
      simp [hg, hm, hl, ih _ hrest, hr, ho]
    · have ho : picksOther ids ps id = false := by simp [picksOther, hinfo, hl]
      simp [hg, hm, hl, ih _ hrest, hr, ho]

/-- The least of a list, as the code takes it: sorted, the first. -/
def leastOf (l : List Identifier) : Option Identifier := (l.mergeSort (· ≤ ·)).head?

theorem leastOf_perm {l' : List Identifier} (h : l.Perm l') : leastOf l = leastOf l' := by
  have hsorted : ∀ l : List Identifier, (l.mergeSort (· ≤ ·)).Pairwise (· ≤ ·) := fun l => by
    simpa using @pairwise_mergeSort Identifier (fun a b => decide (a ≤ b))
      (by simpa using fun a b c => le_trans) (by simpa using le_total) l
  rw [leastOf, leastOf]
  congr 1
  exact ((mergeSort_perm l _).trans (h.trans (mergeSort_perm l' _).symm)).eq_of_pairwise'
    (hsorted l) (hsorted l')

theorem leastOf_mem (h : leastOf l = some id) : id ∈ l :=
  mem_mergeSort.mp (mem_of_mem_head? h)

theorem leastOf_eq_none : leastOf l = none ↔ l = [] := by
  rw [leastOf, List.head?_eq_none_iff, ← length_eq_zero_iff, length_mergeSort, length_eq_zero_iff]

/-- **The choice in closed form.** -/
theorem updateLeaderCandidateID_eq (h : order.Perm ps.keys) (hne : ps.keys ≠ []) :
    updateLeaderCandidateID ids order ps =
      match order.find? ids.stops with
      | some id => .ok (ids.verdict id)
      | none =>
        match (leastOf (order.filter (picksOther ids ps))).or
            (leastOf (order.filter (picksRegular ids ps))) with
        | some id => .ok (.ok id)
        | none => .error .indexOutOfRange := by
  have hmem : ∀ id ∈ order, id ∈ ps := fun id hid => mem_keys.mpr (h.mem_iff.mp hid)
  rw [updateLeaderCandidateID, if_neg (by simpa using hne), candidates_eq ps order _ hmem]
  rcases order.find? ids.stops with _ | id
  swap
  · by_cases hinv : ids.accountTypeFromID id = .invalidAccount <;> simp [verdict, hinv, Except.map]
  simp only [nil_append, leastOf]
  cases (order.filter (picksOther ids ps)).mergeSort (· ≤ ·) with
  | cons id _ => rfl
  | nil =>
    cases (order.filter (picksRegular ids ps)).mergeSort (· ≤ ·) <;> rfl

/-! ## 2. When the choice returns -/

variable (ids) in
/-- The loop ends at one of the participants or collects one. -/
def CanLead (ps : ParticipantInfos) : Prop :=
  ∃ id info, ps.lookup id = some info ∧
    (ids.stops id = true ∨ (info.isGenesis = false ∧ info.lockType.val < readLock.val))

theorem picks_iff (id : Identifier) :
    (picksRegular ids ps id = true ∨ picksOther ids ps id = true) ↔
      ∃ info, ps.lookup id = some info ∧ info.isGenesis = false ∧
        info.lockType.val < readLock.val := by
  unfold picksRegular picksOther
  rcases ps.lookup id with _ | info
  · simp
  -- a mutate lock is below a read lock
  have hlt : info.lockType = mutateLock → info.lockType.val < readLock.val := by
    intro h
    rw [h]
    decide
  simp only [any_some, Bool.and_eq_true, Bool.not_eq_true', decide_eq_true_eq,
    decide_eq_false_iff_not, Option.some.injEq, exists_eq_left']
  tauto

/-- **The choice returns exactly if there is something to choose.** Then it gives an error, or one
    of the participants. -/
theorem updateLeaderCandidateID_cases (h : order.Perm ps.keys) (hne : ps.keys ≠ []) :
    (CanLead ids ps ∧
      ∃ r, updateLeaderCandidateID ids order ps = .ok r ∧ ∀ id, r = .ok id → id ∈ ps) ∨
    (¬ CanLead ids ps ∧ ∃ p, updateLeaderCandidateID ids order ps = .error p) := by
  have hmem : ∀ id, id ∈ order ↔ id ∈ ps := fun id => h.mem_iff.trans mem_keys.symm
  rw [updateLeaderCandidateID_eq ps h hne]
  rcases hf : order.find? ids.stops with _ | id
  swap
  · have hid : id ∈ ps := (hmem id).mp (mem_of_find?_eq_some hf)
    obtain ⟨info, hinfo⟩ := isSome_iff_exists.mp (lookup_isSome.mpr hid)
    refine .inl ⟨⟨id, info, hinfo, .inl (List.find?_some hf)⟩, _, rfl, fun id' hr => ?_⟩
    unfold verdict at hr
    split at hr
    · cases hr
    · cases hr
      exact hid
  cases hl : (leastOf (order.filter (picksOther ids ps))).or
      (leastOf (order.filter (picksRegular ids ps))) with
  | some id =>
    have hpick : id ∈ order ∧ (picksRegular ids ps id = true ∨ picksOther ids ps id = true) := by
      obtain ho | ⟨-, ho⟩ := or_eq_some_iff.mp hl
      · exact (mem_filter.mp (leastOf_mem ho)).imp_right .inr
      · exact (mem_filter.mp (leastOf_mem ho)).imp_right .inl
    obtain ⟨info, hinfo, hg⟩ := (picks_iff ps id).mp hpick.2
    refine .inl ⟨⟨id, info, hinfo, .inr hg⟩, _, rfl, fun id' hr => ?_⟩
    cases hr
    exact (hmem id).mp hpick.1
  | none =>
    obtain ⟨ho, hr⟩ := or_eq_none_iff.mp hl
    refine .inr ⟨fun ⟨id, info, hinfo, hlead⟩ => ?_, _, rfl⟩
    have hid : id ∈ order := (hmem id).mpr (lookup_isSome.mp (by simp [hinfo]))
    have hg := hlead.resolve_left (List.find?_eq_none.mp hf id hid)
    have ho := filter_eq_nil_iff.mp (leastOf_eq_none.mp ho) id hid
    have hr := filter_eq_nil_iff.mp (leastOf_eq_none.mp hr) id hid
    exact absurd ((picks_iff ps id).mpr ⟨info, hinfo, hg⟩) (not_or.mpr ⟨hr, ho⟩)

end

/-! ## 3. What the operations add -/

/-- The participants of `ps` are among those of `ps'`, with their locks. -/
def PsKept (ps ps' : ParticipantInfos) : Prop :=
  ∀ id info, ps.lookup id = some info → ∃ info', ps'.lookup id = some info' ∧
    info'.lockType = info.lockType ∧ info'.isGenesis = info.isGenesis

namespace PsKept

variable {ps ps1 ps2 : ParticipantInfos}

theorem refl (ps : ParticipantInfos) : PsKept ps ps := fun _ info h => ⟨info, h, rfl, rfl⟩

theorem trans (h₁ : PsKept ps ps1) (h₂ : PsKept ps1 ps2) : PsKept ps ps2 := by
  intro id info h
  obtain ⟨info1, h1, hl1, hg1⟩ := h₁ id info h
  obtain ⟨info2, h2, hl2, hg2⟩ := h₂ id info1 h1
  exact ⟨info2, h2, hl2.trans hl1, hg2.trans hg1⟩

theorem mem (h : PsKept ps ps1) {id : Identifier} (hid : id ∈ ps) : id ∈ ps1 := by
  obtain ⟨info, hinfo⟩ := isSome_iff_exists.mp (lookup_isSome.mpr hid)
  obtain ⟨_, hinfo', -⟩ := h id info hinfo
  exact lookup_isSome.mp (by simp [hinfo'])

theorem canLead {ids : AccountIDs} (h : PsKept ps ps1) (hl : CanLead ids ps) : CanLead ids ps1 := by
  obtain ⟨id, info, hinfo, hlead⟩ := hl
  obtain ⟨info', hinfo', hlock, hgen⟩ := h id info hinfo
  exact ⟨id, info', hinfo', by rwa [hlock, hgen]⟩

theorem ensure (ps : ParticipantInfos) (id : Identifier) (isGenesis : Bool) :
    PsKept ps (ps.ensure id isGenesis) := by
  unfold ParticipantInfos.ensure
  split
  · exact refl ps
  next hid =>
    intro id' info h
    have hne : id' ≠ id := fun heq => hid (heq ▸ lookup_isSome.mp (by simp [h]))
    exact ⟨info, (lookup_insert_ne hne).trans h, rfl, rfl⟩

end PsKept

variable (ps : ParticipantInfos) (id : Identifier)

theorem ParticipantInfos.mem_ensure (isGenesis : Bool) : id ∈ ps.ensure id isGenesis := by
  unfold ensure
  split
  · assumption
  · exact (mem_insert ps).mpr (.inl rfl)

/-- The same participants with the same locks: only signers may differ. -/
def PsAlike (ps ps' : ParticipantInfos) : Prop := PsKept ps ps' ∧ PsKept ps' ps

theorem PsAlike.refl : PsAlike ps ps := ⟨.refl ps, .refl ps⟩

theorem PsAlike.trans {ps ps1 ps2 : ParticipantInfos} (h1 : PsAlike ps ps1) (h2 : PsAlike ps1 ps2) :
    PsAlike ps ps2 :=
  ⟨h1.1.trans h2.1, h2.2.trans h1.2⟩

theorem PsAlike.mem_iff {ps ps' : ParticipantInfos} (h : PsAlike ps ps') {id : Identifier} :
    id ∈ ps ↔ id ∈ ps' :=
  ⟨h.1.mem, h.2.mem⟩

theorem psAlike_modify : PsAlike ps (ps.modify id fun info => { info with isSigner := false }) := by
  constructor
  · intro id' info h
    rw [GoMap.lookup_modify, h]
    refine ⟨_, rfl, ?_, ?_⟩ <;> split <;> rfl
  intro id' info h
  rw [GoMap.lookup_modify] at h
  obtain ⟨info', h', rfl⟩ := map_eq_some_iff.mp h
  refine ⟨info', h', ?_, ?_⟩ <;> split <;> rfl

/-- The loop over the foreign logics succeeds if all of them are declared. -/
theorem foreignLogics_ok (interfaces : List Identifier) :
    (∃ ps', ps.foreignLogics interfaces = .ok ps') ↔ ∀ id ∈ interfaces, id ∈ ps := by
  induction interfaces generalizing ps with
  | nil => simp [foreignLogics]
  | cons id rest ih =>
    rw [foreignLogics, forall_mem_cons]
    split
    next hid =>
      rw [ih]
      simp [hid, ← (psAlike_modify ps id).mem_iff]
    next hid => simp [hid]

theorem foreignLogics_alike {ps ps' : ParticipantInfos} {interfaces : List Identifier}
    (h : ps.foreignLogics interfaces = .ok ps') : PsAlike ps ps' := by
  induction interfaces generalizing ps with
  | nil =>
    cases h
    exact .refl _
  | cons id rest ih =>
    rw [foreignLogics] at h
    split at h
    · exact (psAlike_modify ps id).trans (ih h)
    · cases h

section

variable (E : IxEnv)

/-- An operation that adds no account, with a payload that is accepted: a configuration, or a call
    of an asset or logic account among the participants. -/
def InertOp (ps : ParticipantInfos) (op : IxOpRaw) : Prop :=
  (op.type = ixAccountConfigure ∧ ∃ p, E.accountConfigure op.payload = .ok p) ∨
  (op.type = ixAssetAction ∧ ∃ p, E.assetAction op.payload = .ok p ∧ p.assetID ∈ ps) ∨
  (op.type = ixLogicInvoke ∧ ∃ p, E.logic op.payload = .ok p ∧ p.logicID ∈ ps ∧
    ∀ id ∈ p.interfaces, id ∈ ps)

variable {E} {sender : Sender} {ps ps' : ParticipantInfos} {op : IxOpRaw}

theorem InertOp.alike (h : PsAlike ps ps') : InertOp E ps op ↔ InertOp E ps' op := by
  unfold InertOp
  simp [h.mem_iff]

theorem canLead_of_special {ids : AccountIDs} {id : Identifier} (hid : id ∈ ps)
    (hsp : ids.isSpecial id = true) : CanLead ids ps := by
  obtain ⟨info, hinfo⟩ := isSome_iff_exists.mp (lookup_isSome.mpr hid)
  exact ⟨id, info, hinfo, .inl (by simp [stops, hsp])⟩

/-- **An operation either adds nothing, or it adds Sarga or the system account**, which can lead. -/
theorem readOp_cases {ixOp : IxOp} (h : E.readOp sender ps op = .ok (ixOp, ps')) :
    PsKept ps ps' ∧ ((InertOp E ps op ∧ PsAlike ps ps') ∨ CanLead E.ids ps') := by
  have hsarga : E.ids.isSpecial E.ids.sargaAccountID = true := by simp [isSpecial]
  have hsystem : E.ids.isSpecial E.ids.systemAccountID = true := by simp [isSpecial]
  have hfirst : ∀ id g, PsKept ps ((ps.ensure E.ids.sargaAccountID false).ensure id g) ∧
      CanLead E.ids ((ps.ensure E.ids.sargaAccountID false).ensure id g) := fun id g =>
    ⟨(PsKept.ensure ps _ _).trans (.ensure _ _ _),
      canLead_of_special ((PsKept.ensure _ _ _).mem (ps.mem_ensure _ _)) hsarga⟩
  have hsys : PsKept ps (ps.ensure E.ids.systemAccountID false) ∧
      CanLead E.ids (ps.ensure E.ids.systemAccountID false) :=
    ⟨PsKept.ensure ps _ _, canLead_of_special (ps.mem_ensure _ _) hsystem⟩
  unfold IxEnv.readOp at h
  split at h
  · -- `IxParticipantCreate`
    obtain ⟨p, hp, h⟩ := Go.bind_eq_ok.mp h
    dsimp only at h
    split at h
    · cases h
    split at h
    · cases h
      exact (hfirst _ _).imp_right .inr
    · cases h
  split at h
  next _ hty =>
    obtain ⟨p, hp, h⟩ := Go.bind_eq_ok.mp h
    cases h
    exact ⟨.refl ps, .inl ⟨.inl ⟨hty, p, hp⟩, .refl ps⟩⟩
  split at h
  · -- `IxAccountInherit`: Sarga comes second
    obtain ⟨p, hp, h⟩ := Go.bind_eq_ok.mp h
    dsimp only at h
    split at h
    · cases h
    split at h
    · cases h
      exact ⟨(PsKept.ensure ps _ _).trans (.ensure _ _ _),
        .inr (canLead_of_special (mem_ensure _ _ _) hsarga)⟩
    · cases h
  split at h
  · -- `IxAssetCreate`
    obtain ⟨p, hp, h⟩ := Go.bind_eq_ok.mp h
    cases h
    exact (hfirst _ _).imp_right .inr
  split at h
  next _ _ _ _ hty =>
    obtain ⟨p, hp, h⟩ := Go.bind_eq_ok.mp h
    split at h
    next hmem =>
      cases h
      exact ⟨.refl ps, .inl ⟨.inr (.inl ⟨hty, p, hp, hmem⟩), .refl ps⟩⟩
    next => cases h
  split at h
  next _ _ _ _ _ hty =>
    obtain ⟨p, hp, h⟩ := Go.bind_eq_ok.mp h
    split at h
    next hmem =>
      obtain ⟨_, hf, h⟩ := Go.bind_eq_ok.mp h
      cases h
      have halike := foreignLogics_alike hf
      have hall := (foreignLogics_ok ps p.interfaces).mp ⟨ps', hf⟩
      exact ⟨halike.1, .inl ⟨.inr (.inr ⟨hty, p, hp, hmem, hall⟩), halike⟩⟩
    next => cases h
  split at h
  · -- `IxLogicDeploy`
    obtain ⟨p, hp, h⟩ := Go.bind_eq_ok.mp h
    cases h
    exact (hfirst _ _).imp_right .inr
  split at h
  · -- `IxGuardianRegister`
    obtain ⟨p, hp, h⟩ := Go.bind_eq_ok.mp h
    cases h
    exact ⟨hsys.1, .inr hsys.2⟩
  split at h
  · -- the other operations on guardians
    obtain ⟨p, -, h⟩ := Go.bind_eq_ok.mp h
    cases h
    exact ⟨hsys.1, .inr hsys.2⟩
  · cases h

theorem readOp_inert (sender : Sender) (h : InertOp E ps op) :
    ∃ ixOp ps', E.readOp sender ps op = .ok (ixOp, ps') ∧ PsAlike ps ps' := by
  obtain ⟨hty, p, hp⟩ | ⟨hty, p, hp, hmem⟩ | ⟨hty, p, hp, hmem, hall⟩ := h
  · refine ⟨⟨nilIdentifier, ixAccountConfigure, .accountConfigure p⟩, ps, ?_, .refl ps⟩
    simp only [IxEnv.readOp, hty]
    rw [if_neg (by decide), if_pos trivial, hp]
    rfl
  · refine ⟨⟨p.assetID, ixAssetAction, .assetAction p⟩, ps, ?_, .refl ps⟩
    simp only [IxEnv.readOp, hty]
    rw [if_neg (by decide), if_neg (by decide), if_neg (by decide), if_neg (by decide),
      if_pos trivial, hp]
    show (if p.assetID ∈ ps then _ else _) = _
    rw [if_pos hmem]
    rfl
  · obtain ⟨ps', hps'⟩ := (foreignLogics_ok ps p.interfaces).mpr hall
    refine ⟨⟨p.logicID, ixLogicInvoke, .logic p⟩, ps', ?_, foreignLogics_alike hps'⟩
    simp only [IxEnv.readOp, hty]
    rw [if_neg (by decide), if_neg (by decide), if_neg (by decide), if_neg (by decide),
      if_neg (by decide), if_pos trivial, hp]
    show (if p.logicID ∈ ps then _ else _) = _
    rw [if_pos hmem, hps']
    rfl

variable {raw : List IxOpRaw}

/-- **What the loop over the operations leaves**: the declared participants if no operation adds
    any, else some account that can lead. -/
theorem readOps_cases {ops : List IxOp} (h : E.readOps sender ps raw = .ok (ops, ps')) :
    PsKept ps ps' ∧ (((∀ op ∈ raw, InertOp E ps op) ∧ PsAlike ps ps') ∨ CanLead E.ids ps') := by
  induction raw generalizing ps ops with
  | nil =>
    cases h
    exact ⟨.refl _, .inl ⟨by simp, .refl _⟩⟩
  | cons op rest ih =>
    obtain ⟨⟨_, _⟩, h1, h⟩ := Go.bind_eq_ok.mp h
    obtain ⟨⟨_, _⟩, h2, h⟩ := Go.bind_eq_ok.mp h
    cases h
    obtain ⟨hkept1, hcase1⟩ := readOp_cases h1
    obtain ⟨hkept2, hcase2⟩ := ih h2
    refine ⟨hkept1.trans hkept2, ?_⟩
    obtain ⟨hinert, halike⟩ | hlead := hcase1
    · obtain ⟨hall, halike2⟩ | hlead := hcase2
      · refine .inl ⟨forall_mem_cons.mpr ⟨hinert, fun op' h' => ?_⟩, halike.trans halike2⟩
        exact (InertOp.alike halike).mpr (hall op' h')
      · exact .inr hlead
    · exact .inr (hkept2.canLead hlead)

theorem readOps_inert (sender : Sender) (h : ∀ op ∈ raw, InertOp E ps op) :
    ∃ ops ps', E.readOps sender ps raw = .ok (ops, ps') ∧ PsAlike ps ps' := by
  induction raw generalizing ps with
  | nil => exact ⟨[], ps, rfl, .refl ps⟩
  | cons op rest ih =>
    obtain ⟨hop, hrest⟩ := forall_mem_cons.mp h
    obtain ⟨ixOp, ps1, h1, halike⟩ := readOp_inert sender hop
    obtain ⟨ixOps, ps2, h2, halike2⟩ := ih fun op' h' => (InertOp.alike halike).mp (hrest op' h')
    refine ⟨ixOp :: ixOps, ps2, ?_, halike.trans halike2⟩
    rw [IxEnv.readOps, h1]
    show (E.readOps sender ps1 rest >>= _) = _
    rw [h2]
    rfl

end

/-! ## 4. Acceptance of an interaction -/

section

variable (E : IxEnv) (ixData : IxData) (signatures : List IxSignature)

/-- The data pass every check before the choice of the leader, and nobody can lead: no operation
    adds an account, every declared account is valid and locked for reading at most, and neither
    Sarga nor the system account is among them. -/
def Stranded : Prop :=
  (∃ data, E.polorize ixData = .ok data) ∧ (∃ data, E.signaturesBytes signatures = .ok data) ∧
  ixData.sender.id ∈ ixData.participantsInfo ∧
  (ixData.payer = nilIdentifier ∨ ixData.payer ∈ ixData.participantsInfo) ∧
  (∀ op ∈ ixData.ixOps, InertOp E ixData.participantsInfo op) ∧
  ¬ CanLead E.ids ixData.participantsInfo

/-- An order in which the loop of `UpdateLeaderCandidateID` may go over the participants. -/
def LeaderOrder (order : List Identifier) : Prop :=
  ∀ ops ps, E.readOps ixData.sender ixData.participantsInfo ixData.ixOps = .ok (ops, ps) →
    order.Perm ps.keys

/-- The call returns an error, or an interaction whose leader candidate is a participant. -/
def ReturnsLed (r : Go (Except Err Interaction)) : Prop :=
  ∃ res, r = .ok res ∧ ∀ ix, res = .ok ix → ix.leaderCandidateAcc ∈ ix.ps

variable {E ixData signatures}

theorem returnsLed_error (e : Err) : ReturnsLed (.ok (.error e)) :=
  ⟨_, rfl, nofun⟩

/-- Past the checks, the call returns exactly if the choice does. -/
theorem returnsLed_choice {ps : ParticipantInfos} {order : List Identifier} (h : order.Perm ps.keys)
    (hne : ps.keys ≠ []) (mk : Identifier → Interaction)
    (hmk : ∀ id, (mk id).leaderCandidateAcc = id ∧ (mk id).ps = ps)
      {r : Go (Except Err Interaction)}
    (hr : r = do
      match ← updateLeaderCandidateID E.ids order ps with
      | .error e => return .error e
      | .ok leader => pure (.ok (mk leader))) :
    (CanLead E.ids ps ∧ ReturnsLed r) ∨ (¬ CanLead E.ids ps ∧ ∃ p, r = .error p) := by
  rcases updateLeaderCandidateID_cases ps h hne with ⟨hlead, res, hres, hin⟩ | ⟨hno, p, hp⟩
  · refine .inl ⟨hlead, ?_⟩
    rw [hr, hres]
    rcases res with e | leader
    · exact returnsLed_error e
    refine ⟨_, rfl, fun ix hix => ?_⟩
    cases hix
    rw [(hmk leader).1, (hmk leader).2]
    exact hin leader rfl
  · rw [hr, hp]
    exact .inr ⟨hno, p, rfl⟩

/-- **`NewInteraction` returns unless the data leave it without a leader**; then it panics. -/
theorem newInteraction_cases (signatures : List IxSignature) {order : List Identifier}
    (horder : LeaderOrder E ixData order) :
    (¬ Stranded E ixData signatures ∧ ReturnsLed (newInteraction E order ixData signatures)) ∨
      (Stranded E ixData signatures ∧
        ∃ p, newInteraction E order ixData signatures = .error p) := by
  cases hdata : E.polorize ixData with
  | error e =>
    refine .inl ⟨fun ⟨⟨_, h⟩, _⟩ => absurd (hdata.symm.trans h) nofun, ?_⟩
    simp only [newInteraction, hdata]
    exact returnsLed_error e
  | ok data =>
  by_cases hsender : ixData.sender.id ∈ ixData.participantsInfo
  swap
  · refine .inl ⟨fun h => hsender h.2.2.1, ?_⟩
    simp only [newInteraction, hdata, hsender, not_false_eq_true, if_true]
    exact returnsLed_error _
  by_cases hpayer : ixData.payer ≠ nilIdentifier ∧ ixData.payer ∉ ixData.participantsInfo
  · refine .inl ⟨fun h => h.2.2.2.1.elim hpayer.1 hpayer.2, ?_⟩
    simp only [newInteraction, hdata, not_not.mpr hsender, if_false, if_pos hpayer]
    exact returnsLed_error _
  cases hread : E.readOps ixData.sender ixData.participantsInfo ixData.ixOps with
  | error e =>
    refine .inl ⟨fun h => ?_, ?_⟩
    · obtain ⟨_, _, hinert, -⟩ := readOps_inert ixData.sender h.2.2.2.2.1
      exact absurd (hread.symm.trans hinert) nofun
    simp only [newInteraction, hdata, not_not.mpr hsender, if_false, if_neg hpayer, hread]
    exact returnsLed_error e
  | ok r =>
  obtain ⟨ops, ps⟩ := r
  cases hsigs : E.signaturesBytes signatures with
  | error e =>
    refine .inl ⟨fun ⟨_, ⟨_, h⟩, _⟩ => absurd (hsigs.symm.trans h) nofun, ?_⟩
    simp only [newInteraction, hdata, not_not.mpr hsender, if_false, if_neg hpayer, hread, hsigs]
    exact returnsLed_error e
  | ok sigs =>
  obtain ⟨hkept, hadds⟩ := readOps_cases hread
  have hne : ps.keys ≠ [] := ne_nil_of_mem (mem_keys.mp (hkept.mem hsender))
  let mk : Identifier → Interaction := fun leader =>
    { inner := ixData, ops := ops, ps := ps, leaderCandidateAcc := leader, hash := E.getHash data
      size := data.length + sigs.length, signatures := signatures }
  have hmade : newInteraction E order ixData signatures = (do
      match ← updateLeaderCandidateID E.ids order ps with
      | .error e => return .error e
      | .ok leader => pure (.ok (mk leader))) := by
    simp only [newInteraction, hdata, not_not.mpr hsender, if_false, if_neg hpayer, hread, hsigs]
    rfl
  refine (returnsLed_choice (horder ops ps hread) hne mk (fun _ => ⟨rfl, rfl⟩) hmade).imp
    (.imp_left fun hlead h => ?_) (.imp_left fun hno => ?_)
  · obtain ⟨_, _, hinert, halike⟩ := readOps_inert ixData.sender h.2.2.2.2.1
    cases hread.symm.trans hinert
    exact h.2.2.2.2.2 (halike.2.canLead hlead)
  · -- the data are accepted, so the operations have added nobody
    obtain ⟨hinert, -⟩ := hadds.resolve_right hno
    refine ⟨⟨data, hdata⟩, ⟨sigs, hsigs⟩, hsender, ?_, hinert, fun h => hno (hkept.canLead h)⟩
    by_cases hp : ixData.payer = nilIdentifier
    · exact .inl hp
    · exact .inr (not_not.mp fun hin => hpayer ⟨hp, hin⟩)

/-- **`NewInteraction` returns for every iteration order exactly if the data do not leave it without
    a leader.** Otherwise it panics. -/
theorem newInteraction_returns_iff (E : IxEnv) (ixData : IxData) (signatures : List IxSignature) :
    (∀ order, LeaderOrder E ixData order → ReturnsLed (newInteraction E order ixData signatures)) ↔
      ¬ Stranded E ixData signatures := by
  refine ⟨fun hall hstranded => ?_, fun hns order horder => ?_⟩
  · obtain ⟨ops, ps, hread, -⟩ := readOps_inert ixData.sender hstranded.2.2.2.2.1
    have horder : LeaderOrder E ixData ps.keys := by
      intro ops' ps' h
      cases hread.symm.trans h
      exact .refl _
    obtain ⟨_, hr, -⟩ := hall _ horder
    obtain ⟨hns, -⟩ | ⟨-, p, hp⟩ := newInteraction_cases signatures horder
    · exact hns hstranded
    · cases hr.symm.trans hp
  · exact ((newInteraction_cases signatures horder).resolve_right fun h => hns h.1).2

/-- Two accounts of their own: identifiers of logics. -/
def namedAccounts : AccountIDs where
  sargaAccountID := ⟨0x2 <<< 252 ||| 1⟩
  systemAccountID := ⟨0x2 <<< 252 ||| 2⟩
  sarga_kind := by decide
  system_kind := by decide
  ne := by decide

/-- An environment in which data can be encoded and no payload is accepted. -/
def bareIxEnv : IxEnv where
  ids := namedAccounts
  participantCreate _ := .error (.new "")
  accountConfigure _ := .error (.new "")
  accountInherit _ := .error (.new "")
  assetCreate _ := .error (.new "")
  assetAction _ := .error (.new "")
  logic _ := .error (.new "")
  guardianRegister _ := .error (.new "")
  guardianAction _ := .error (.new "")
  polorize _ := .ok []
  signaturesBytes _ := .ok []
  getHash _ := nilHash
  newAccountID _ := 0

/-- **A sender that locks its own account for reading, without operations, is enough for a
    panic.** -/
theorem reader_alone_panics :
    let sender : Identifier := ⟨7⟩
    let ixData : IxData := ⟨⟨sender, 0, 0⟩, nilIdentifier, none, 0, [], [⟨sender, readLock, false⟩]⟩
    LeaderOrder bareIxEnv ixData [sender] ∧
      newInteraction bareIxEnv [sender] ixData [] = .error .indexOutOfRange := by
  intro sender ixData
  have hloop : candidates namedAccounts ixData.participantsInfo [sender] ([], []) =
      .ok (.inr ([], [])) := by
    have hinfo : ixData.participantsInfo.lookup sender = some ⟨true, readLock, false⟩ := by decide
    have htype : namedAccounts.accountTypeFromID sender = .regularAccount := by decide
    have hother : ¬ (sender = namedAccounts.sargaAccountID ∨
      sender = namedAccounts.systemAccountID) := by
      decide
    have hlock : ¬ readLock = mutateLock := by decide
    simp [candidates, hinfo, htype, hother, hlock]
  have hchoice : updateLeaderCandidateID namedAccounts [sender] ixData.participantsInfo =
      .error .indexOutOfRange := by
    rw [updateLeaderCandidateID, if_neg (by decide), hloop]
    simp
  refine ⟨?_, ?_⟩
  · intro ops ps h
    cases h
    exact .refl _
  · show (updateLeaderCandidateID namedAccounts [sender] ixData.participantsInfo >>= _) = _
    rw [hchoice]
    rfl

end

end GoMoi
