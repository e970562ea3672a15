/-
  File:      GoMoi/Syncer/MergedParticipants.lean
  Subject:   The participants of a list of interactions as consensus and the syncer merge them
             (`Interactions.Participants` of `common/interaction.go`, `fetchParticipantsInfo` of
             `syncer/forage/syncer.go`).

  Both functions keep the strongest lock of an account, the least number. Consensus takes over the
  whole entry whenever its lock is at least as strong, so the flags are those of the last entry with
  the strongest lock. The syncer merges each flag over all interactions.

  * **`mergesAgree_iff`** -- when the order does not matter and both agree.
-/
import GoMoi.Common.Interaction

namespace GoMoi

open List

/-! ## 1. The syncer's merge -/

/-- `type participantInfo struct` of the syncer. -/
structure SyncParticipantInfo where
  lock : LockType
  isSender : Bool
  newParticipant : Bool
  deriving DecidableEq, Repr

/-- What one more interaction changes about an account. -/
def SyncParticipantInfo.note (oldInfo : Option SyncParticipantInfo) (psInfo : ParticipantInfo)
    (isSender : Bool) : SyncParticipantInfo :=
  match oldInfo with
  | none => { lock := psInfo.lockType, newParticipant := psInfo.isGenesis, isSender := isSender }
  | some oldInfo =>
    { lock := if psInfo.lockType.val < oldInfo.lock.val then psInfo.lockType else oldInfo.lock
      newParticipant := oldInfo.newParticipant || psInfo.isGenesis
      isSender := oldInfo.isSender || isSender }

/-- One round of the loops of `fetchParticipantsInfo`. -/
def noteParticipant (ixn : Interaction) (info : GoMap Identifier SyncParticipantInfo)
    (e : Σ _ : Identifier, ParticipantInfo) : GoMap Identifier SyncParticipantInfo :=
  info.insert e.1 (.note (info.lookup e.1) e.2 (decide (e.1 = ixn.senderID)))

/-- `fetchParticipantsInfo`. -/
def fetchParticipantsInfo (ixns : List Interaction) : GoMap Identifier SyncParticipantInfo :=
  ixns.foldl (fun info ixn => ixn.ps.entries.foldl (noteParticipant ixn) info) ∅

/-! ## 2. Account by account -/

/-- What the interactions say about an account, and whether it is the sender, in the order of the
    list. -/
def entriesOf (ixns : List Interaction) (id : Identifier) : List (ParticipantInfo × Bool) :=
  ixns.filterMap fun ixn => (ixn.ps.lookup id).map fun info => (info, decide (id = ixn.senderID))

/-- A merge over a list of interactions, seen from one account. -/
theorem lookup_foldl_interactions {W : Type}
    (step : Interaction → GoMap Identifier W → (Σ _ : Identifier, ParticipantInfo) →
      GoMap Identifier W) (f : Option W → ParticipantInfo → Bool → W)
    (hstep : ∀ ixn m e k, (step ixn m e).lookup k =
      if k = e.1 then some (f (m.lookup k) e.2 (decide (k = ixn.senderID))) else m.lookup k)
    (ixns : List Interaction) (m : GoMap Identifier W) (id : Identifier) :
    (ixns.foldl (fun m ixn => ixn.ps.entries.foldl (step ixn) m) m).lookup id =
      (entriesOf ixns id).foldl (fun acc e => some (f acc e.1 e.2)) (m.lookup id) := by
  induction ixns generalizing m with
  | nil => rfl
  | cons ixn rest ih =>
    have hround := GoMap.lookup_foldl_entries (step ixn)
      (fun k acc info => f acc info (decide (k = ixn.senderID))) (hstep ixn) ixn.ps m id
    have hentries : entriesOf (ixn :: rest) id =
        ((ixn.ps.lookup id).map fun info => (info, decide (id = ixn.senderID))).toList ++
          entriesOf rest id := by
      cases hl : ixn.ps.lookup id <;> simp [entriesOf, hl]
    rw [foldl_cons, ih, hround, hentries]
    cases ixn.ps.lookup id <;> rfl

/-- The entry that consensus keeps of two. -/
def strongest (oldInfo : Option ParticipantInfo) (info : ParticipantInfo) : ParticipantInfo :=
  match oldInfo with
  | none => info
  | some oldInfo => if oldInfo.lockType.val < info.lockType.val then oldInfo else info

/-- The last of the entries with the strongest lock. -/
def lastStrongest (es : List (ParticipantInfo × Bool)) : Option ParticipantInfo :=
  es.foldl (fun acc e => some (strongest acc e.1)) none

/-- What the syncer makes of the entries. -/
def mergedInfo (es : List (ParticipantInfo × Bool)) : Option SyncParticipantInfo :=
  es.foldl (fun acc e => some (.note acc e.1 e.2)) none

theorem lookup_batchParticipants (ixns : List Interaction) (id : Identifier) :
    (batchParticipants ixns).lookup id = lastStrongest (entriesOf ixns id) := by
  refine lookup_foldl_interactions (fun _ ps e => mergeParticipant ps e.1 e.2)
    (fun acc info _ => strongest acc info) ?_ ixns ∅ id
  intro ixn m e k
  unfold mergeParticipant strongest
  by_cases hk : k = e.1
  · subst hk
    rw [if_pos rfl]
    rcases hold : m.lookup e.1 with _ | oldInfo
    · exact AList.lookup_insert _
    simp only
    split
    · exact hold
    · exact AList.lookup_insert _
  rw [if_neg hk]
  rcases m.lookup e.1 with _ | _
  · exact AList.lookup_insert_ne hk
  simp only
  split
  · rfl
  · exact AList.lookup_insert_ne hk

theorem lookup_fetchParticipantsInfo (ixns : List Interaction) (id : Identifier) :
    (fetchParticipantsInfo ixns).lookup id = mergedInfo (entriesOf ixns id) := by
  refine lookup_foldl_interactions noteParticipant .note ?_ ixns ∅ id
  intro ixn m e k
  unfold noteParticipant
  by_cases hk : k = e.1
  · subst hk
    rw [if_pos rfl, AList.lookup_insert]
  · rw [if_neg hk, AList.lookup_insert_ne hk]

/-! ## 3. What the merges keep -/

section

variable {es : List (ParticipantInfo × Bool)}

theorem lastStrongest_concat (es : List (ParticipantInfo × Bool)) (e : ParticipantInfo × Bool) :
    lastStrongest (es ++ [e]) = some (strongest (lastStrongest es) e.1) := by
  simp [lastStrongest]

theorem mergedInfo_concat (es : List (ParticipantInfo × Bool)) (e : ParticipantInfo × Bool) :
    mergedInfo (es ++ [e]) = some (.note (mergedInfo es) e.1 e.2) := by
  simp [mergedInfo]

theorem lastStrongest_eq_none : lastStrongest es = none ↔ es = [] := by
  cases es using List.reverseRecOn with
  | nil => simp [lastStrongest]
  | append_singleton es e => simp [lastStrongest_concat]

theorem mergedInfo_eq_none : mergedInfo es = none ↔ es = [] := by
  cases es using List.reverseRecOn with
  | nil => simp [mergedInfo]
  | append_singleton es e => simp [mergedInfo_concat]

/-- One of the entries has this info, and no entry has a stronger lock. -/
def IsStrongest (es : List (ParticipantInfo × Bool)) (r : ParticipantInfo) : Prop :=
  (∃ e ∈ es, e.1 = r) ∧ ∀ e ∈ es, r.lockType.val ≤ e.1.lockType.val

variable {r : ParticipantInfo}

/-- **Consensus keeps an entry with the strongest lock.** -/
theorem lastStrongest_spec (h : lastStrongest es = some r) : IsStrongest es r := by
  induction es using List.reverseRecOn generalizing r with
  | nil => cases h
  | append_singleton es e ih =>
    rw [lastStrongest_concat] at h
    rcases hold : lastStrongest es with _ | old
    · obtain rfl := lastStrongest_eq_none.mp hold
      cases h
      exact ⟨⟨e, by simp, rfl⟩, by simp [strongest, lastStrongest]⟩
    obtain ⟨⟨e0, he0, hr0⟩, hle⟩ := ih hold
    rw [hold] at h
    simp only [strongest, Option.some.injEq] at h
    split at h
    next hlt =>
      subst h
      refine ⟨⟨e0, by simp [he0], hr0⟩, ?_⟩
      simp only [forall_mem_append, forall_mem_singleton]
      exact ⟨hle, le_of_lt hlt⟩
    next hlt =>
      subst h
      refine ⟨⟨e, by simp, rfl⟩, ?_⟩
      simp only [forall_mem_append, forall_mem_singleton]
      refine ⟨fun e' he' => ?_, le_refl _⟩
      have := hle e' he'
      omega

/-- An entry with the strongest lock that comes last is kept. -/
theorem lastStrongest_of_last {e : ParticipantInfo × Bool}
    (h : ∀ e' ∈ es, e.1.lockType.val ≤ e'.1.lockType.val) :
      lastStrongest (es ++ [e]) = some e.1 := by
  rw [lastStrongest_concat]
  rcases hold : lastStrongest es with _ | _
  · rfl
  obtain ⟨⟨e0, he0, rfl⟩, -⟩ := lastStrongest_spec hold
  simp [strongest, not_lt.mpr (h e0 he0)]

/-- **The syncer keeps the strongest lock, and knows whether the account is new in any entry.** -/
theorem mergedInfo_spec {r : SyncParticipantInfo} (h : mergedInfo es = some r) :
    (∃ e ∈ es, e.1.lockType = r.lock) ∧ (∀ e ∈ es, r.lock.val ≤ e.1.lockType.val) ∧
      (r.newParticipant = true ↔ ∃ e ∈ es, e.1.isGenesis = true) := by
  induction es using List.reverseRecOn generalizing r with
  | nil => cases h
  | append_singleton es e ih =>
    rw [mergedInfo_concat] at h
    rcases hold : mergedInfo es with _ | old
    · obtain rfl := mergedInfo_eq_none.mp hold
      cases h
      simp [SyncParticipantInfo.note, mergedInfo]
    obtain ⟨⟨e0, he0, hr0⟩, hle, hnew⟩ := ih hold
    rw [hold] at h
    cases h
    simp only [SyncParticipantInfo.note, forall_mem_append, forall_mem_singleton,
      Bool.or_eq_true, hnew]
    refine ⟨?_, ?_, ?_⟩
    · split
      · exact ⟨e, by simp, rfl⟩
      · exact ⟨e0, by simp [he0], hr0⟩
    · split
      next hlt => exact ⟨fun e' he' => by have := hle e' he'; omega, le_refl _⟩
      next hlt => exact ⟨hle, not_lt.mp hlt⟩
    · simp

/-- The entries with the strongest lock are equal, and if any entry says that the account is new,
    they say so. -/
def CoherentEntries (es : List (ParticipantInfo × Bool)) : Prop :=
  (∀ r r', IsStrongest es r → IsStrongest es r' → r = r') ∧
  ∀ r, IsStrongest es r → ∀ e ∈ es, e.1.isGenesis = true → r.isGenesis = true

theorem IsStrongest.perm {es' : List (ParticipantInfo × Bool)} (hp : es.Perm es')
    (h : IsStrongest es r) : IsStrongest es' r := by
  obtain ⟨⟨e, he, hr⟩, hle⟩ := h
  exact ⟨⟨e, hp.mem_iff.mp he, hr⟩, fun e' he' => hle e' (hp.mem_iff.mpr he')⟩

end

/-! ## 4. When both merges agree -/

/-- The same interaction with another iteration order of its participants. -/
def SameButOrder (ixn ixn' : Interaction) : Prop :=
  (∀ id, ixn'.ps.lookup id = ixn.ps.lookup id) ∧ ixn'.senderID = ixn.senderID

/-- The same interactions in another order, with other iteration orders of their participants. -/
def Rearranged (ixns ixns' : List Interaction) : Prop :=
  ∃ l, l.Perm ixns ∧ List.Forall₂ SameButOrder l ixns'

variable {ixns' ixns : List Interaction}

theorem entriesOf_sameButOrder {l : List Interaction} (h : List.Forall₂ SameButOrder l ixns')
    (id : Identifier) : entriesOf ixns' id = entriesOf l id := by
  induction h with
  | nil => rfl
  | cons hix _ ih =>
    unfold entriesOf at ih ⊢
    rw [filterMap_cons, filterMap_cons, hix.1, hix.2, ih]

/-- **The merged participants do not depend on the order of the interactions, and the syncer merges
    lock and genesis flag in the same way.** -/
def MergesAgree (ixns : List Interaction) : Prop :=
  (∀ ixns', Rearranged ixns ixns' → ∀ id,
    (batchParticipants ixns').lookup id = (batchParticipants ixns).lookup id) ∧
  ∀ id, ((batchParticipants ixns).lookup id).map (fun info => (info.lockType, info.isGenesis)) =
    ((fetchParticipantsInfo ixns).lookup id).map fun info => (info.lock, info.newParticipant)

/-- Some order of the interactions makes consensus keep a given entry with the strongest lock. -/
theorem exists_rearranged {id : Identifier} {r : ParticipantInfo}
    (h : IsStrongest (entriesOf ixns id) r) :
    ∃ ixns', Rearranged ixns ixns' ∧ (batchParticipants ixns').lookup id = some r := by
  obtain ⟨⟨e, he, rfl⟩, hle⟩ := h
  obtain ⟨ixn, hixn, hsome⟩ := mem_filterMap.mp he
  obtain ⟨as, bs, rfl⟩ := append_of_mem hixn
  have hp : (as ++ bs ++ [ixn]).Perm (as ++ ixn :: bs) := by
    refine perm_append_comm.trans ?_
    rw [singleton_append]
    exact perm_middle.symm
  refine ⟨_, ⟨_, hp, forall₂_same.mpr fun _ _ => ⟨fun _ => rfl, rfl⟩⟩, ?_⟩
  have hlast : entriesOf (as ++ bs ++ [ixn]) id = entriesOf (as ++ bs) id ++ [e] := by
    unfold entriesOf
    rw [filterMap_append, filterMap_cons, hsome]
    rfl
  rw [lookup_batchParticipants, hlast]
  refine lastStrongest_of_last fun e' he' => hle e' ?_
  have : e' ∈ entriesOf (as ++ bs ++ [ixn]) id := hlast ▸ mem_append_left _ he'
  exact (hp.filterMap _).mem_iff.mp this

/-- **Both merges behave exactly if the entries of every account are coherent.** -/
theorem mergesAgree_iff (ixns : List Interaction) :
    MergesAgree ixns ↔ ∀ id, CoherentEntries (entriesOf ixns id) := by
  constructor
  · intro ⟨horder, hsync⟩ id
    -- every strongest entry is kept in some order, so all of them are what the given order keeps
    have hkept : ∀ r, IsStrongest (entriesOf ixns id) r →
        (batchParticipants ixns).lookup id = some r := by
      intro r hr
      obtain ⟨ixns', hre, heq⟩ := exists_rearranged hr
      rw [← horder ixns' hre, heq]
    refine ⟨fun r r' hr hr' => ?_, fun r hr e he hg => ?_⟩
    · exact Option.some.inj ((hkept r hr).symm.trans (hkept r' hr'))
    have hs := hsync id
    rw [hkept r hr, lookup_fetchParticipantsInfo] at hs
    rcases hm : mergedInfo (entriesOf ixns id) with _ | info
    · simp [hm] at hs
    simp only [hm, Option.map_some, Option.some.injEq, Prod.mk.injEq] at hs
    exact hs.2 ▸ (mergedInfo_spec hm).2.2.mpr ⟨e, he, hg⟩
  · intro hco
    refine ⟨fun ixns' ⟨l, hp, hsame⟩ id => ?_, fun id => ?_⟩
    · replace hp : (entriesOf ixns' id).Perm (entriesOf ixns id) := by
        rw [entriesOf_sameButOrder hsame]
        exact hp.filterMap _
      rw [lookup_batchParticipants, lookup_batchParticipants]
      rcases hl : lastStrongest (entriesOf ixns id) with _ | r
      · rw [lastStrongest_eq_none] at hl ⊢
        exact List.Perm.eq_nil (hl ▸ hp)
      cases hl' : lastStrongest (entriesOf ixns' id) with
      | none =>
        rw [lastStrongest_eq_none] at hl'
        have hnil := List.Perm.eq_nil (hl' ▸ hp.symm)
        rw [lastStrongest_eq_none.mpr hnil] at hl
        cases hl
      | some r' =>
        rw [(hco id).1 r' r ((lastStrongest_spec hl').perm hp) (lastStrongest_spec hl)]
    · rw [lookup_batchParticipants, lookup_fetchParticipantsInfo]
      rcases hl : lastStrongest (entriesOf ixns id) with _ | r
      · rw [mergedInfo_eq_none.mpr (lastStrongest_eq_none.mp hl)]
        rfl
      rcases hm : mergedInfo (entriesOf ixns id) with _ | info
      · rw [lastStrongest_eq_none.mpr (mergedInfo_eq_none.mp hm)] at hl
        cases hl
      have hr := lastStrongest_spec hl
      obtain ⟨⟨e, he, hlock⟩, hle, hnew⟩ := mergedInfo_spec hm
      obtain ⟨⟨e0, he0, hr0⟩, hle0⟩ := lastStrongest_spec hl
      have hlocks : r.lockType = info.lock := by
        have h1 := hle0 e he
        have h2 := hle e0 he0
        rw [hlock] at h1
        rw [hr0] at h2
        exact congrArg LockType.mk (le_antisymm h1 h2)
      have hflags : r.isGenesis = info.newParticipant := by
        rw [Bool.eq_iff_iff, hnew]
        constructor
        · intro hg
          exact ⟨e0, he0, hr0 ▸ hg⟩
        · intro ⟨e', he', hg⟩
          exact (hco id).2 r hr e' he' hg
      simp [hlocks, hflags]

/-- An interaction with a sender and participants. -/
def ixnOf (sender : Identifier) (ps : ParticipantInfos) : Interaction where
  inner := ⟨⟨sender, 0, 0⟩, nilIdentifier, none, 0, [], []⟩
  ops := []
  ps := ps
  leaderCandidateAcc := sender
  hash := nilHash
  size := 0
  signatures := []

/-- **Two senders that name each other**: who counts as a signer depends on the order. **An account
    that one interaction creates and another uses**: consensus takes it for an old one, the syncer
    for new. -/
theorem merges_differ :
    let a : Identifier := ⟨7⟩
    let b : Identifier := ⟨8⟩
    let c : Identifier := ⟨9⟩
    let declared (sender : Identifier) (l : List Identifier) : ParticipantInfos :=
      IxData.participantsInfo ⟨⟨sender, 0, 0⟩, nilIdentifier, none, 0, [],
        l.map fun id => ⟨id, mutateLock, false⟩⟩
    let ix1 := ixnOf a (declared a [a, b])
    let ix2 := ixnOf b (declared b [a, b])
    let ix3 := ixnOf a ((declared a [a]).ensure c true)
    let ix4 := ixnOf b (declared b [b, c])
    ((batchParticipants [ix1, ix2]).lookup a).map (·.isSigner) = some false ∧
    ((batchParticipants [ix2, ix1]).lookup a).map (·.isSigner) = some true ∧
    ((batchParticipants [ix3, ix4]).lookup c).map (·.isGenesis) = some false ∧
    ((fetchParticipantsInfo [ix3, ix4]).lookup c).map (·.newParticipant) = some true := by
  decide

end GoMoi
