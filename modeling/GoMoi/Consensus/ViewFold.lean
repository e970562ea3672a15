/-
  File:      GoMoi/Consensus/ViewFold.lean
  Subject:   The highest view info of an account, folded from those of the peers
             (`loadViewInfo`, `shouldReplace`, `updateHighestViewInfo` of
             `consensus/ics_handler.go`).

  A peer reports for an account all certificates of its safety data and the view of the LAST one.
  `shouldReplace` compares that view of the info it holds with the view of the FIRST certificate of
  the next one. The two agree while all certificates of an account are of one view.

  * `Qc.rank`, `ViewInfo.highest` -- view, then type; the greatest of an info;
  * `ViewInfo.Plain` -- the last view is that of the first certificate, which is the greatest;
  * `SafetyData.Level` -- safety data that give such infos; kept by a certificate that is not older;
  * **`foldHighest_max`** -- infos from runs whose certificates were never older than what they were
    entered after fold to the maximum, in every order;
  * `older_certificate_hides_highest` -- with an older certificate behind it the highest one is
    overlooked, in one order.
-/
import GoMoi.Consensus.Prepare
import GoMoi.Consensus.SafetyAligned
import Mathlib

namespace GoMoi

open List

/-! ## 1. The order -/

/-- View, then type. -/
def Qc.rank (q : Qc) : ℕ ×ₗ ℤ := toLex (q.view.toNat, q.type.val)

theorem Qc.rank_lt {q q' : Qc} :
    q.rank < q'.rank ↔ q.view < q'.view ∨ q.view = q'.view ∧ q.type.val < q'.type.val := by
  rw [Qc.rank, Qc.rank, Prod.Lex.toLex_lt_toLex, ← UInt64.lt_iff_toNat_lt, UInt64.toNat_inj]

namespace ViewInfo

/-- The certificates of a view info. -/
def certificates (v : ViewInfo) : List Qc := (v.qc.getD []).reduceOption

/-- The greatest certificate of a view info. -/
noncomputable def highest (v : ViewInfo) : WithBot (ℕ ×ₗ ℤ) := (v.certificates.map Qc.rank).maximum

/-- No certificate and view 0, or certificates of which the first is the greatest and of the last
    view. -/
inductive Plain (v : ViewInfo) : Prop where
  | none (hqc : v.qc = .none) (hview : v.lastView = 0)
  | level (first : Qc) (rest : List Qc) (hqc : v.qc = some ((first :: rest).map some))
      (hview : v.lastView = first.view) (hfirst : ∀ q ∈ rest, q.rank ≤ first.rank)

variable {v : ViewInfo}

theorem certificates_of_qc {l : List Qc} (h : v.qc = some (l.map some)) : v.certificates = l := by
  rw [certificates, h]
  show (l.map some).reduceOption = l
  rw [List.reduceOption, filterMap_map]
  exact filterMap_some

theorem highest_none (h : v.qc = .none) : v.highest = ⊥ := by
  rw [highest, certificates, h]
  rfl

variable {first : Qc} {rest : List Qc}

theorem highest_level (hqc : v.qc = some ((first :: rest).map some))
    (hfirst : ∀ q ∈ rest, q.rank ≤ first.rank) : v.highest = first.rank := by
  rw [highest, certificates_of_qc hqc, maximum_eq_coe_iff]
  refine ⟨mem_cons_self, forall_mem_map.mpr ?_⟩
  exact forall_mem_cons.mpr ⟨le_refl _, hfirst⟩

theorem firstQc_level (hqc : v.qc = some ((first :: rest).map some)) : v.firstQc = .ok first := by
  rw [firstQc, hqc]
  rfl

end ViewInfo

variable {p : ViewInfo} {i : Nat} {order : List ViewInfo}

/-- **On plain infos `shouldReplace` is the order**, unless an info without certificate meets one of
    the genesis view. -/
theorem shouldReplace_plain {h : ViewInfo} (hh : h.Plain) (hp : p.Plain)
    (hgenesis : h.qc = none → ∀ q ∈ p.certificates, q.view ≠ genesisView) :
    shouldReplace (some h) (some p) = .ok (decide (h.highest < p.highest)) := by
  cases hp with
  | none hqc hview =>
    rw [ViewInfo.highest_none hqc, decide_eq_false not_lt_bot]
    have hnil : p.qc.getD [] = [] := by rw [hqc, Option.getD_none]
    show (if p.qc.getD [] = [] then pure false else _) = _
    rw [if_pos hnil]
    rfl
  | level first rest hqc hview hfirst =>
    have hne : p.qc.getD [] ≠ [] := by simp [hqc]
    have hrepl : shouldReplace (some h) (some p) =
        if h.lastView < first.view then pure true
        else if h.lastView = first.view ∧ h.qc ≠ none then do
          let highestQc ← h.firstQc
          pure (decide (highestQc.type.val < first.type.val))
        else pure false := by
      show (if p.qc.getD [] = [] then pure false else do
        let qc ← p.firstQc
        _) = _
      rw [if_neg hne, ViewInfo.firstQc_level hqc]
      rfl
    rw [hrepl, ViewInfo.highest_level hqc hfirst]
    cases hh with
    | none hqc' hview' =>
      have hpos : (0 : UInt64) < first.view := by
        have hmem : first ∈ p.certificates := by
          rw [ViewInfo.certificates_of_qc hqc]
          exact mem_cons_self
        exact UInt64.pos_iff_ne_zero.mpr (hgenesis hqc' first hmem)
      rw [hview', if_pos hpos, ViewInfo.highest_none hqc', decide_eq_true (WithBot.bot_lt_coe _)]
      rfl
    | level first' rest' hqc' hview' hfirst' =>
      rw [hview', ViewInfo.highest_level hqc' hfirst', ViewInfo.firstQc_level hqc']
      simp only [WithBot.coe_lt_coe, Qc.rank_lt]
      by_cases hlt : first'.view < first.view
      · rw [if_pos hlt, decide_eq_true (.inl hlt)]
        rfl
      rw [if_neg hlt]
      by_cases heq : first'.view = first.view
      · rw [if_pos ⟨heq, by rw [hqc']; exact Option.some_ne_none _⟩]
        simp only [heq, UInt64.lt_irrefl, false_or, true_and]
        rfl
      · rw [if_neg fun h => heq h.1, decide_eq_false fun h => h.elim hlt fun h => heq h.1]
        rfl

/-! ## 2. The fold -/

/-- One info of an account against the next one, as `updateHighestViewInfo` does it. -/
def replaceOne (highestViewInfo : Option ViewInfo) (peerViewInfo : ViewInfo) :
    Go (Option ViewInfo) := do
  if ← shouldReplace highestViewInfo (some peerViewInfo) then pure (some peerViewInfo)
  else pure highestViewInfo

/-- The infos of an account, folded in the order in which the peers are visited. -/
def foldHighest (order : List ViewInfo) : Go (Option ViewInfo) := order.foldlM replaceOne none

variable {peerInfo highest highest' : Views} {h : Option ViewInfo}

/-- No info without certificate stands beside one with a certificate of the genesis view. -/
def Separate (infos : List ViewInfo) : Prop :=
  ∀ v ∈ infos, v.qc = none → ∀ w ∈ infos, ∀ q ∈ w.certificates, q.view ≠ genesisView

theorem fold_from {infos : List ViewInfo} (hplain : ∀ v ∈ infos, v.Plain) (hsep : Separate infos)
    (hsub : ∀ v ∈ order, v ∈ infos) {h : ViewInfo} (hh : h ∈ infos) :
    ∃ r ∈ infos, order.foldlM replaceOne (some h) = .ok (some r) ∧ h.highest ≤ r.highest ∧
      ∀ v ∈ order, v.highest ≤ r.highest := by
  induction order generalizing h with
  | nil => exact ⟨h, hh, rfl, le_refl _, fun _ hv => absurd hv not_mem_nil⟩
  | cons p rest ih =>
    have hp := hsub p mem_cons_self
    have hrest := fun v hv => hsub v (mem_cons_of_mem p hv)
    have hcmp := shouldReplace_plain (hplain h hh) (hplain p hp) fun hn q hq =>
      hsep h hh hn p hp q hq
    rw [foldlM_cons]
    by_cases hlt : h.highest < p.highest
    · have hstep : replaceOne (some h) p = .ok (some p) := by
        rw [replaceOne, hcmp, decide_eq_true hlt]
        rfl
      obtain ⟨r, hr, hfold, hle, hall⟩ := ih hrest hp
      rw [hstep]
      exact ⟨r, hr, hfold, hlt.le.trans hle, forall_mem_cons.mpr ⟨hle, hall⟩⟩
    have hstep : replaceOne (some h) p = .ok (some h) := by
      rw [replaceOne, hcmp, decide_eq_false hlt]
      rfl
    obtain ⟨r, hr, hfold, hle, hall⟩ := ih hrest hh
    rw [hstep]
    exact ⟨r, hr, hfold, hle, forall_mem_cons.mpr ⟨(not_lt.mp hlt).trans hle, hall⟩⟩

/-- **Plain infos fold to the maximum.** -/
theorem foldHighest_plain (order : List ViewInfo) (hplain : ∀ v ∈ order, v.Plain)
    (hsep : Separate order) (hne : order ≠ []) :
    ∃ r ∈ order, foldHighest order = .ok (some r) ∧ ∀ v ∈ order, v.highest ≤ r.highest := by
  rcases order with _ | ⟨h, _⟩
  · exact absurd rfl hne
  obtain ⟨r, hr, hfold, hle, hall⟩ := fold_from hplain hsep
    (fun v hv => mem_cons_of_mem h hv) mem_cons_self
  exact ⟨r, hr, hfold, forall_mem_cons.mpr ⟨hle, hall⟩⟩

/-! ## 3. Safety data of one view -/

namespace SafetyData

/-- All certificates are of one view, and if there are several the first is a PRECOMMIT one. -/
def Level (sd : SafetyData) : Prop :=
  ∃ (first : Qc) (rest : List Qc), sd.qc = (first :: rest).map some ∧
    (∀ q ∈ rest, q.view = first.view) ∧
    (∀ q ∈ first :: rest, q.type = PREVOTE ∨ q.type = PRECOMMIT) ∧
    (rest ≠ [] → first.type = PRECOMMIT)

variable {sd sd' : SafetyData} {qc : Qc}

theorem level_single (htype : qc.type = PREVOTE ∨ qc.type = PRECOMMIT) {hashes : List Hash}
    {proposal : Hash} : Level ⟨[some qc], hashes, proposal⟩ :=
  ⟨qc, [], rfl, fun _ h => absurd h not_mem_nil,
    fun _ h => mem_singleton.mp h ▸ htype, fun h => absurd rfl h⟩

/-- The certificates with one more at the end. -/
theorem level_snoc (first : Qc) (rest : List Qc) (hqc : sd.qc = (first :: rest ++ [qc]).map some)
    (hviews : ∀ q ∈ rest, q.view = first.view) (hview : qc.view = first.view)
    (htypes : ∀ q ∈ first :: rest, q.type = PREVOTE ∨ q.type = PRECOMMIT)
    (htype : qc.type = PREVOTE ∨ qc.type = PRECOMMIT) (hfirst : first.type = PRECOMMIT) :
    sd.Level := by
  refine ⟨first, rest ++ [qc], hqc, ?_, ?_, fun _ => hfirst⟩
  · exact forall_mem_append.mpr ⟨hviews, forall_mem_singleton.mpr hview⟩
  · rw [← cons_append]
    exact forall_mem_append.mpr ⟨htypes, forall_mem_singleton.mpr htype⟩

/-- **A certificate that is not older keeps the data level.** -/
theorem Level.updateQc (hl : sd.Level) (htype : qc.type = PREVOTE ∨ qc.type = PRECOMMIT)
    (hview : ∀ v, sd.lastView = .ok v → v ≤ qc.view)
      (h : sd.updateQc qc = .ok sd') : sd'.Level := by
  obtain ⟨first, rest, hqc, hviews, htypes, hfirst⟩ := hl
  have hne : sd.qc ≠ [] := by simp [hqc]
  -- the last certificate, and those before it
  obtain ⟨earlier, last, hsplit⟩ : ∃ earlier last, first :: rest = earlier ++ [last] :=
    ⟨_, _, (dropLast_append_getLast (cons_ne_nil first rest)).symm⟩
  have hlastmem : last ∈ first :: rest := by simp [hsplit]
  have hlastview : last.view = first.view := by
    rcases mem_cons.mp hlastmem with rfl | hmem
    · rfl
    · exact hviews last hmem
  rw [hsplit] at hqc
  have hle : last.view ≤ qc.view := hview _ (by rw [lastView, lastQc_snoc hqc]; rfl)
  rw [SafetyData.updateQc, if_neg hne, lastQc_snoc hqc] at h
  simp only [Go.bind_eq_ok, Except.ok.injEq] at h
  obtain ⟨_, rfl, h⟩ := h
  split at h
  · cases h
    exact level_single htype
  rename_i hlt
  have heq : qc.view = first.view := by
    rw [← hlastview]
    exact UInt64.le_antisymm (UInt64.not_lt.mp hlt) hle
  split at h
  · cases h
    rcases earlier with _ | ⟨first', earlier'⟩
    · rw [hqc]
      exact level_single htype
    obtain ⟨rfl, hrest⟩ : first = first' ∧ rest = earlier' ++ [last] := by
      simpa using hsplit
    refine level_snoc first earlier' ?_ ?_ heq ?_ htype (hfirst ?_)
    · show sd.qc.dropLast ++ [some qc] = _
      rw [hqc, map_append, map_append, map_singleton, map_singleton, dropLast_concat]
    · exact fun q hq => hviews q (by simp [hrest, hq])
    · rw [hrest, ← cons_append] at htypes
      exact (forall_mem_append.mp htypes).1
    · simp [hrest]
  · rename_i hpre
    cases h
    -- what is not replaced is a PRECOMMIT certificate, or stands behind one
    have hpc : first.type = PRECOMMIT := by
      by_cases hnil : rest = []
      · rw [hnil] at hlastmem
        obtain rfl := mem_singleton.mp hlastmem
        exact (htypes last mem_cons_self).resolve_left fun hp => hpre ⟨heq.symm, hp⟩
      · exact hfirst hnil
    refine level_snoc first rest ?_ hviews heq htypes htype hpc
    rw [hsplit]
    simp [SafetyData.append, hqc]

variable {id : Identifier} {lock : LockType} {v : UInt64}

/-- Level data give a plain info. -/
theorem Level.plain (hl : sd.Level) (hview : sd.lastView = .ok v) :
    ViewInfo.Plain ⟨id, v, lock, some sd.qc⟩ := by
  obtain ⟨first, rest, hqc, hviews, htypes, hfirst⟩ := hl
  obtain ⟨earlier, last, hsplit⟩ : ∃ earlier last, first :: rest = earlier ++ [last] :=
    ⟨_, _, (dropLast_append_getLast (cons_ne_nil first rest)).symm⟩
  have hlast : sd.lastView = .ok last.view := by
    rw [lastView, lastQc_snoc (hsplit ▸ hqc)]
    rfl
  have hlastmem : last ∈ first :: rest := by simp [hsplit]
  cases hlast.symm.trans hview
  refine .level first rest (by rw [hqc]) ?_ fun q hq => not_lt.mp fun hlt => ?_
  · rcases mem_cons.mp hlastmem with rfl | hmem
    · rfl
    · exact hviews last hmem
  have hpc := hfirst (ne_nil_of_mem hq)
  rcases Qc.rank_lt.mp hlt with hlt | ⟨_, hlt⟩
  · rw [hviews q hq] at hlt
    exact absurd hlt (UInt64.lt_irrefl _)
  rw [hpc] at hlt
  rcases htypes q (mem_cons_of_mem first hq) with hq' | hq'
  · rw [hq'] at hlt
    exact absurd hlt (by decide)
  · rw [hq'] at hlt
    exact absurd hlt (by decide)

/-- So does a single certificate, of any type. -/
theorem plain_single {qc : Option Qc} (hqc : sd.qc = [qc]) (hview : sd.lastView = .ok v) :
    ViewInfo.Plain ⟨id, v, lock, some sd.qc⟩ := by
  have hlast : sd.lastQc = Go.deref qc := by
    rw [lastQc, hqc]
    rfl
  obtain ⟨q, hq, h⟩ := Go.bind_eq_ok.mp hview
  cases h
  obtain rfl := Go.deref_eq_ok.mp (hlast.symm.trans hq)
  exact .level q [] (by rw [hqc]; rfl) rfl fun _ h => absurd h not_mem_nil

end SafetyData

/-! ## 4. The infos that a node reports -/

namespace ConsensusSafety

open Proc

section

variable (K : SafetyEnv) (a : Answers) (isAccountRegistered : Identifier → Except Err Bool)
  (accountLockStatus : Identifier → LockType)

/-- The view info of one account in `loadViewInfo`. -/
def viewInfoOf (id : Identifier) : Proc SafetyDB (Except Err GoMoi.ViewInfo) :=
  match isAccountRegistered id with
  | .error e => pure (.error e)
  | .ok false => pure (.ok ⟨id, 0, accountLockStatus id, none⟩)
  | .ok true => do
    match ← getLatestSafetyInfo K a id with
    | .error e => pure (.error e)
    | .ok safetyData => do
      let lastView ← ofGo safetyData.lastView
      pure (.ok ⟨id, lastView, accountLockStatus id, some safetyData.qc⟩)

/-- The loop of `loadViewInfo`. -/
def viewInfosOf : List Identifier → Proc SafetyDB (Except Err (List GoMoi.ViewInfo))
  | [] => pure (.ok [])
  | id :: ps => do
    match ← viewInfoOf K a isAccountRegistered accountLockStatus id with
    | .error e => pure (.error e)
    | .ok info => do
      match ← viewInfosOf ps with
      | .error e => pure (.error e)
      | .ok infos => pure (.ok (info :: infos))

/-- `loadViewInfo`. -/
def loadViewInfo (ps : List Identifier) : Proc SafetyDB (Except Err (List GoMoi.ViewInfo)) := do
  match ← viewInfosOf K a isAccountRegistered accountLockStatus ps with
  | .error e => pure (.error e)
  | .ok infos => pure (.ok (infos.insertionSort fun v w => v.id ≤ w.id))

end

variable {K : SafetyEnv} {s : SafetyDB} {a : Answers}
  {isAccountRegistered : Identifier → Except Err Bool} {accountLockStatus : Identifier → LockType}
  {id : Identifier}

/-- What `GetLatestSafetyInfo` returns is stored, or the one certificate of the last commit. -/
theorem getLatestSafetyInfo_cases {P : SafetyData → Prop} (ha : AllStored K.codec P s) :
    wp (getLatestSafetyInfo K a id)
      (fun r s' => s' = s ∧ ∀ sd, r = .ok sd → P sd ∨ ∃ qc, sd.qc = [qc]) (fun _ => False) s := by
  unfold getLatestSafetyInfo
  rcases a.getAccountMetaInfo id with e | _
  · exact ⟨rfl, nofun⟩
  simp only [getSafetyData, wp_bind, wp_self, wp_pure]
  split
  · rename_i sd hread
    refine ⟨rfl, fun sd' h => ?_⟩
    cases h
    split at hread
    · cases hread
    · cases hread
    · rename_i raw _ hlook
      exact .inl (ha.get (fromBytes_dataOf hlook hread))
  simp only [wp_ite, wp_pure]
  refine ⟨fun _ => ⟨trivial, fun sd h => ?_⟩, fun _ => ⟨trivial, nofun⟩⟩
  split at h
  · cases h
  · cases h
    exact .inr ⟨_, rfl⟩

variable {s' : SafetyDB}

section

variable (ha : AllStored K.codec SafetyData.Level s)
include ha

/-- **The infos of a store with level data are plain.** -/
theorem viewInfoOf_plain :
    wp (viewInfoOf K a isAccountRegistered accountLockStatus id)
      (fun r s' => s' = s ∧ ∀ v, r = .ok v → v.Plain) (· = s) s := by
  unfold viewInfoOf
  rcases isAccountRegistered id with e | registered
  · exact ⟨rfl, nofun⟩
  rcases registered with _ | _
  · refine ⟨rfl, fun v h => ?_⟩
    cases h
    exact .none rfl rfl
  rw [wp_bind]
  refine wp_mono (getLatestSafetyInfo_cases ha) (fun r s' hs' => ?_) fun _ h => h.elim
  obtain ⟨rfl, hr⟩ := hs'
  rcases r with e | sd
  · exact ⟨rfl, nofun⟩
  rw [wp_bind]
  refine wp_ofGo.mpr ⟨fun view hview => ⟨rfl, fun v h => ?_⟩, fun _ _ => rfl⟩
  cases h
  rcases hr sd rfl with hlevel | ⟨_, hqc⟩
  · exact hlevel.plain hview
  · exact SafetyData.plain_single hqc hview

theorem viewInfosOf_plain (ps : List Identifier) :
    wp (viewInfosOf K a isAccountRegistered accountLockStatus ps)
      (fun r s' => s' = s ∧ ∀ infos, r = .ok infos → ∀ v ∈ infos, v.Plain) (· = s) s := by
  induction ps with
  | nil =>
    refine ⟨rfl, fun infos h v hv => ?_⟩
    cases h
    cases hv
  | cons id ps ih =>
    refine wp_seq (viewInfoOf_plain ha) fun r s' hs' => ?_
    obtain ⟨rfl, hr⟩ := hs'
    rcases r with e | info
    · exact ⟨rfl, nofun⟩
    refine wp_seq ih fun rs s' hs' => ?_
    obtain ⟨rfl, hrs⟩ := hs'
    rcases rs with e | infos
    · exact ⟨rfl, nofun⟩
    refine ⟨rfl, fun infos' h => ?_⟩
    cases h
    exact forall_mem_cons.mpr ⟨hr info rfl, hrs infos rfl⟩

theorem loadViewInfo_plain {ps : List Identifier} {infos : List GoMoi.ViewInfo}
    (h : loadViewInfo K a isAccountRegistered accountLockStatus ps s = (.ok (.ok infos), s')) :
    ∀ v ∈ infos, v.Plain := by
  obtain ⟨r, _, hr, h⟩ := bind_eq_ok h
  have hspec := wp_of_eq hr (viewInfosOf_plain ha ps)
  rcases r with e | unsorted
  · cases h
  cases h
  intro v hv
  exact hspec.2 unsorted rfl v ((mem_insertionSort _).mp hv)

end

/-! ## 5. Runs -/

/-- A call of `UpdateSafetyInfo` enters a PREVOTE or PRECOMMIT certificate that is not older than
    what is stored for the accounts the tesseract locks; deletions are free. -/
def NotOlder (K : SafetyEnv) (s : SafetyDB) : LockEvent → Prop
  | .update _ p qc => (qc.type = PREVOTE ∨ qc.type = PRECOMMIT) ∧
      ∀ ts, p.tesseract = some ts → Covers K.codec s ts qc
  | .delete _ _ _ => True

theorem admits_level {qc : Qc} (htype : qc.type = PREVOTE ∨ qc.type = PRECOMMIT) (tsHash : Hash) :
    Admits SafetyData.Level (fun sd => ∀ v, sd.lastView = .ok v → v ≤ qc.view) qc tsHash where
  fresh := by
    refine ⟨SafetyData.level_single htype, fun v hv => ?_⟩
    cases hv
    exact UInt64.le_refl _
  update sd sd' hl hview h := by
    refine ⟨hl.updateQc htype hview h, fun v hv => ?_⟩
    cases (SafetyData.lastView_updateQc h).symm.trans hv
    exact UInt64.le_refl _

theorem lastViewOf_dataOf {E : SafetyCodec} {sd : SafetyData} {v : UInt64}
    (hsd : dataOf E s id = some sd) (hv : sd.lastView = .ok v) : lastViewOf E s id = some v := by
  have hview : lastViewOf E s id = (dataOf E s id).bind fun sd => sd.lastView.toOption := by
    unfold lastViewOf dataOf
    rcases s.safetyData.lookup id with _ | raw
    · rfl
    · dsimp only
      cases E.depolorize raw <;> rfl
  rw [hview, hsd, Option.bind_some, hv]
  rfl

theorem LockStep.level (hlaw : K.codec.Lawful) {e : LockEvent}
    (ha : AllStored K.codec SafetyData.Level s) (hok : NotOlder K s e) (h : LockStep K s e s') :
    AllStored K.codec SafetyData.Level s' := by
  cases e with
  | update a p qc =>
    obtain ⟨r, hcall⟩ := h
    have hkeeps : leaves (updateSafetyInfo K a p qc) (AllStored K.codec SafetyData.Level) s := by
      refine updateSafetyInfo_allStored hlaw ha fun ts tsHash hts _ => ?_
      refine ⟨_, admits_level hok.1 tsHash, fun e he hlock sd hsd v hv => ?_⟩
      exact hok.2 ts hts e.1 e.2 (AList.mem_lookup_iff.mpr he) hlock v (lastViewOf_dataOf hsd hv)
    have hspec := wp_state.mp hkeeps
    rwa [hcall] at hspec
  | delete a ts fromSyncer =>
    obtain ⟨r, hcall⟩ := h
    have hspec := wp_state.mp (deleteLockedTSInfo_allStored (a := a) ts fromSyncer ha)
    rwa [hcall] at hspec

/-- A view info that some node reports after a run, from an empty store, whose certificates were
    never older than what they were entered after. -/
def Reported (v : GoMoi.ViewInfo) : Prop :=
  ∃ (K : SafetyEnv) (es : List LockEvent) (s s' : SafetyDB) (a : Answers)
    (isAccountRegistered : Identifier → Except Err Bool) (accountLockStatus : Identifier → LockType)
    (ps : List Identifier) (infos : List GoMoi.ViewInfo),
    K.codec.Lawful ∧ Run (Guarded (NotOlder K) (LockStep K)) ⟨∅, ∅⟩ es s ∧
      loadViewInfo K a isAccountRegistered accountLockStatus ps s = (.ok (.ok infos), s') ∧
      v ∈ infos

theorem Reported.plain {v : GoMoi.ViewInfo} (h : Reported v) : v.Plain := by
  obtain ⟨K, _, s, s', a, _, _, _, _, hlaw, hrun, hload, hv⟩ := h
  have hlevel : AllStored K.codec SafetyData.Level s :=
    hrun.invariant (fun _ h => absurd h (AList.notMem_empty _))
      fun _ s e s' hs hstep => hstep.2.level hlaw hs hstep.1
  exact loadViewInfo_plain hlevel hload v hv

/-- **The infos of an account fold to the maximum, in every order.** They come from nodes that never
    entered a certificate older than what they had stored, and none without certificate is beside
    one with a certificate of the genesis view. -/
theorem foldHighest_max {infos : List GoMoi.ViewInfo} (hne : infos ≠ [])
    (hreported : ∀ v ∈ infos, Reported v) (hsep : Separate infos) :
    ∃ m, (∀ v ∈ infos, v.highest ≤ m) ∧
      ∀ order, order.Perm infos → ∃ r ∈ infos, foldHighest order = .ok (some r) ∧
        r.highest = m := by
  have hplain : ∀ v ∈ infos, v.Plain := fun v hv => (hreported v hv).plain
  obtain ⟨r, hr, _, hmax⟩ := foldHighest_plain infos hplain hsep hne
  refine ⟨r.highest, hmax, fun order horder => ?_⟩
  obtain ⟨r', hr', hfold, hmax'⟩ := foldHighest_plain order
    (fun v hv => hplain v (horder.mem_iff.mp hv))
    (fun v hv hn w hw => hsep v (horder.mem_iff.mp hv) hn w (horder.mem_iff.mp hw))
    fun h => hne (perm_nil.mp (h ▸ horder.symm))
  have hmem := horder.mem_iff.mp hr'
  exact ⟨r', hmem, hfold, le_antisymm (hmax r' hmem) (hmax' r (horder.mem_iff.mpr hr))⟩

/-! ## 6. An older certificate -/

namespace Older

open Orphan

/-- What the entry of the account can be here: one certificate, or an older one behind it. -/
def entry (view : UInt64) : SafetyData := ⟨[some (qcFor 1 view PREVOTE)], [⟨1⟩], ⟨1⟩⟩

def behind : SafetyData := (entry 5).append (qcFor 1 3 PREVOTE)

def env : SafetyEnv := { Orphan.env with codec := tableCodec [entry 3, entry 4, entry 5, behind] }

/-- The state after the certificates of these views have been entered. -/
def entered (views : List UInt64) : SafetyDB :=
  views.foldl (fun s view => (updateSafetyInfo env Pair.answers ⟨none, some (tesseract 1)⟩
    (qcFor 1 view PREVOTE) s).2) empty

/-- What the node then reports for the account. -/
def reports (views : List UInt64) : Except Panic (Except Err (List GoMoi.ViewInfo)) :=
  (loadViewInfo env Pair.answers (fun _ => .ok true) (fun _ => noLock) [account] (entered views)).1

def info (lastView : UInt64) (views : List UInt64) : GoMoi.ViewInfo :=
  ⟨account, lastView, noLock, some (views.map fun view => some (qcFor 1 view PREVOTE))⟩

theorem entered_snoc (views : List UInt64) (view : UInt64) :
    LockStep env (entered views) (enters 1 view PREVOTE) (entered (views ++ [view])) := by
  refine ⟨_, Prod.ext rfl ?_⟩
  rw [entered, entered, foldl_append]
  rfl

/-- A first certificate is not older than anything. -/
theorem reported_single {view : UInt64} (h : reports [view] = .ok (.ok [info view [view]])) :
    Reported (info view [view]) := by
  have hok : NotOlder env empty (enters 1 view PREVOTE) :=
    ⟨.inl rfl, nofun⟩
  exact ⟨env, _, entered [view], _, Pair.answers, _, _, [account], _, tableCodec_lawful (by decide),
    .snoc .start (enters 1 view PREVOTE) ⟨hok, entered_snoc [] view⟩, Prod.ext h rfl,
    mem_singleton_self _⟩

end Older

open Older in
/-- Two nodes at the views 3 and 4: both orders give view 4. -/
theorem single_certificates_fold :
    ∃ m, (∀ v ∈ [info 3 [3], info 4 [4]], v.highest ≤ m) ∧
      ∀ order : List GoMoi.ViewInfo, order.Perm [info 3 [3], info 4 [4]] →
        ∃ r ∈ [info 3 [3], info 4 [4]], foldHighest order = .ok (some r) ∧ r.highest = m := by
  refine foldHighest_max (cons_ne_nil _ _) (fun v hv => ?_) fun v hv hn => ?_
  · rcases mem_pair.mp hv with rfl | rfl <;> exact reported_single (by decide +kernel)
  · rcases mem_pair.mp hv with rfl | rfl <;> cases hn

open Older in
/-- **The highest certificate is overlooked.** One node has entered view 5 and, after it, view 3; it
    reports both certificates and the last view 3. An info of view 4 replaces it, in one order. -/
theorem older_certificate_hides_highest :
    Run (LockStep env) Orphan.empty [Orphan.enters 1 5 PREVOTE, Orphan.enters 1 3 PREVOTE]
        (entered [5, 3]) ∧
      reports [5, 3] = .ok (.ok [info 3 [5, 3]]) ∧
    Run (LockStep env) Orphan.empty [Orphan.enters 1 4 PREVOTE] (entered [4]) ∧
      reports [4] = .ok (.ok [info 4 [4]]) ∧
    foldHighest [info 3 [5, 3], info 4 [4]] = .ok (some (info 4 [4])) ∧
      foldHighest [info 4 [4], info 3 [5, 3]] = .ok (some (info 3 [5, 3])) ∧
      (info 4 [4]).highest < (info 3 [5, 3]).highest := by
  refine ⟨.snoc (.snoc .start _ (entered_snoc [] 5)) _ (entered_snoc [5] 3), by decide +kernel,
    .snoc .start _ (entered_snoc [] 4), by decide +kernel, by decide +kernel, by decide +kernel,
    by decide +kernel⟩

end ConsensusSafety

end GoMoi
