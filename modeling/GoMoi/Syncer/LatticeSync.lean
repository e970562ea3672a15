/-
  File:      GoMoi/Syncer/LatticeSync.lean
  Subject:   The tesseracts a peer sends for a range of heights (`syncLattice` of
             `syncer/forage/syncer.go`).

  * `LatticeCall.Completes` -- the message with which the count of a request is complete;
  * **`delivers_iff`** -- all heights of the range come exactly if the messages up to that one
    repeat no height of the range, or have brought the account to its end.
-/
import GoMoi.Common.Types
import Mathlib.Data.Finset.Card
import Mathlib.Order.Interval.Finset.Nat

namespace GoMoi

open List

/-! ## 1. The call -/

/-- A message: the height it parses to, whether the queue has it, and the height of the account once
    it is handled. -/
structure LatticeReply where
  height : Option UInt64
  isQueued : Bool
  currentHeight : UInt64

/-- What `syncLattice` reads and is answered. -/
structure LatticeCall where
  expectedHeight : UInt64
  currentHeight : UInt64
  nextTS : Option UInt64
  hasAccMetaInfoAt : Bool
  fromGenesis : Bool
  decodedPeerID : Bool
  streamed : Bool
  replies : List LatticeReply

/-- The heights that were pushed or found in the queue, and how the loop ended. -/
structure Collected where
  offered : List UInt64
  currentHeight : UInt64
  isNil : Bool

namespace LatticeCall

/-- The loop; the channel is closed after the last message. -/
def collect (startHeight endHeight : UInt64) : UInt64 → UInt64 → List LatticeReply → Collected
  | required, current, [] => ⟨[], current, required = 0⟩
  | required, current, r :: rest =>
    if required = 0 then ⟨[], current, true⟩
    else match r.height with
      | none => collect startHeight endHeight required r.currentHeight rest
      | some height =>
        let required :=
          if startHeight ≤ height ∧ height ≤ endHeight then required - 1 else required
        if r.isQueued = false ∧ endHeight ≤ r.currentHeight then ⟨[height], r.currentHeight, true⟩
        else
          let c := collect startHeight endHeight required r.currentHeight rest
          { c with offered := height :: c.offered }

variable (c : LatticeCall)

def endHeight : UInt64 := c.nextTS.elim c.expectedHeight (· - 1)

def startHeight : UInt64 := if c.fromGenesis then c.currentHeight else c.currentHeight + 1

def requiredTesseractCount : UInt64 := c.endHeight - c.startHeight + 1

/-- The queue goes on where the account ends, and nothing is requested. -/
def isFollowed : Bool :=
  c.nextTS.any fun height => (c.hasAccMetaInfoAt || decide (height = c.currentHeight)) &&
    decide ((height - (c.currentHeight + 1)).toInt64 ≤ 0)

def isRequested : Bool := !c.isFollowed && c.decodedPeerID

def collected : Collected :=
  collect c.startHeight c.endHeight c.requiredTesseractCount c.currentHeight c.replies

/-- `syncLattice` returns `nil`. -/
def syncLattice : Bool := c.isFollowed || (c.decodedPeerID && c.streamed && c.collected.isNil)

/-! ## 2. The counter -/

/-- The heights the counter has counted. -/
def counted (startHeight endHeight : UInt64) (offered : List UInt64) : List UInt64 :=
  offered.filter fun height => startHeight ≤ height ∧ height ≤ endHeight

variable {startHeight endHeight : UInt64}

/-- The heights of the range in some messages. -/
def received (startHeight endHeight : UInt64) (rs : List LatticeReply) : List UInt64 :=
  counted startHeight endHeight (rs.filterMap (·.height))

/-- The message is pushed, and the account has reached the end. -/
def Ends (endHeight : UInt64) (r : LatticeReply) : Prop :=
  r.height.isSome = true ∧ r.isQueued = false ∧ endHeight ≤ r.currentHeight

/-- The loop goes on over `rs`, and `r` completes the count. -/
structure Completes (startHeight endHeight required : UInt64) (rs : List LatticeReply)
    (r : LatticeReply) : Prop where
  goesOn : ∀ r' ∈ rs, ¬ Ends endHeight r'
  before : (received startHeight endHeight rs).length < required.toNat
  complete : (received startHeight endHeight (rs ++ [r])).length = required.toNat

variable {required current : UInt64} {rs rest : List LatticeReply} {r : LatticeReply}

theorem received_cons (r : LatticeReply) (rs : List LatticeReply) :
    received startHeight endHeight (r :: rs) =
      received startHeight endHeight [r] ++ received startHeight endHeight rs := by
  simp only [received, counted, ← filter_append, ← filterMap_append, singleton_append]

theorem collect_zero : collect startHeight endHeight 0 current rs = ⟨[], current, true⟩ := by
  cases rs <;> rfl

/-- **A round of the loop** that does not end it. -/
theorem collect_cons (hpos : required ≠ 0) (hends : ¬ Ends endHeight r)
    (startHeight current : UInt64) (rest : List LatticeReply) :
    ∃ required' : UInt64,
      (received startHeight endHeight [r]).length + required'.toNat = required.toNat ∧
      collect startHeight endHeight required current (r :: rest) =
        { collect startHeight endHeight required' r.currentHeight rest with
          offered := r.height.toList ++
            (collect startHeight endHeight required' r.currentHeight rest).offered } := by
  conv => enter [1, required', 2, 1]; rw [collect, if_neg hpos]
  rcases hr : r.height with _ | height
  · exact ⟨required, by simp [received, counted, hr], rfl⟩
  have hon : ¬ (r.isQueued = false ∧ endHeight ≤ r.currentHeight) := fun h =>
    hends ⟨hr ▸ rfl, h⟩
  refine ⟨_, ?_, if_neg hon⟩
  by_cases hin : startHeight ≤ height ∧ height ≤ endHeight
  · have h1 : required.toNat ≠ 0 := fun h => hpos (UInt64.toNat_inj.mp h)
    have h2 : (1 : UInt64) ≤ required := UInt64.le_iff_toNat_le.mpr (Nat.pos_of_ne_zero h1)
    have h3 : (received startHeight endHeight [r]).length = 1 := by
      simp [received, counted, hr, hin]
    rw [if_pos hin, h3, UInt64.toNat_sub_of_le _ _ h2]
    exact Nat.add_sub_cancel' (UInt64.le_iff_toNat_le.mp h2)
  · rw [if_neg hin]
    simp [received, counted, hr, hin]

/-- **Where the count is complete**, the loop has taken the messages up to there. -/
theorem collect_of_completes (h : Completes startHeight endHeight required rs r)
    (hlate : ¬ endHeight ≤ r.currentHeight) :
    collect startHeight endHeight required current (rs ++ r :: rest) =
      ⟨(rs ++ [r]).filterMap (·.height), r.currentHeight, true⟩ := by
  have hpos : required ≠ 0 := by
    rintro rfl
    exact Nat.not_lt_zero _ h.before
  induction rs generalizing required current with
  | nil =>
    obtain ⟨required', hlen, heq⟩ :=
      collect_cons hpos (fun he => hlate he.2.2) startHeight current rest
    have hzero : required' = 0 := UInt64.toNat_inj.mp (by
      have := h.complete
      rw [nil_append] at this
      show _ = 0
      omega)
    rw [nil_append, heq, hzero, collect_zero]
    cases hr : r.height <;> simp [hr]
  | cons x rs ih =>
    obtain ⟨required', hlen, heq⟩ := collect_cons hpos (h.goesOn x mem_cons_self) startHeight
      current (rs ++ r :: rest)
    have hbefore := h.before
    have hcomplete := h.complete
    rw [received_cons, length_append] at hbefore
    rw [cons_append, received_cons, length_append] at hcomplete
    have h' : Completes startHeight endHeight required' rs r :=
      ⟨fun r' hr' => h.goesOn r' (mem_cons_of_mem _ hr'), by omega, by omega⟩
    have hpos' : required' ≠ 0 := by
      rintro rfl
      exact Nat.not_lt_zero _ h'.before
    rw [cons_append, heq, ih h' hpos']
    cases hx : x.height <;> simp [hx]

/-- **Where `nil` is returned** before the end is reached, some message has completed the count. -/
theorem completes_of_isNil (h : (collect startHeight endHeight required current rs).isNil = true)
    (hlate : ¬ endHeight ≤ (collect startHeight endHeight required current rs).currentHeight) :
    required = 0 ∨ ∃ rs' r, rs' ++ [r] <+: rs ∧
      Completes startHeight endHeight required rs' r ∧
      r.currentHeight = (collect startHeight endHeight required current rs).currentHeight := by
  induction rs generalizing required current with
  | nil => exact .inl (of_decide_eq_true h)
  | cons x rs ih =>
    by_cases hpos : required = 0
    · exact .inl hpos
    refine .inr ?_
    by_cases hends : Ends endHeight x
    · obtain ⟨height, hx⟩ := Option.isSome_iff_exists.mp hends.1
      have heq : collect startHeight endHeight required current (x :: rs) =
          ⟨[height], x.currentHeight, true⟩ := by
        simp only [collect, if_neg hpos, hx]
        exact if_pos hends.2
      rw [heq] at hlate
      exact absurd hends.2.2 hlate
    obtain ⟨required', hlen, heq⟩ := collect_cons hpos hends startHeight current rs
    rw [heq] at h hlate ⊢
    obtain rfl | ⟨rs', r, hpre, hcomplete, hcurrent⟩ := ih h hlate
    · refine ⟨[], x, ⟨rs, rfl⟩, ⟨by simp, ?_, ?_⟩, by rw [collect_zero]⟩
      · exact Nat.pos_of_ne_zero fun h0 => hpos (UInt64.toNat_inj.mp h0)
      · exact hlen
    · refine ⟨x :: rs', r, (prefix_cons_inj x).mpr hpre, ⟨?_, ?_, ?_⟩, hcurrent⟩
      · exact forall_mem_cons.mpr ⟨hends, hcomplete.goesOn⟩
      · rw [received_cons, length_append]
        have := hcomplete.before
        omega
      · rw [cons_append, received_cons, length_append]
        have := hcomplete.complete
        omega

/-- As many heights of a range as it has are all of them exactly if they are different. -/
theorem covers_iff_nodup {l : List UInt64} (hin : ∀ h ∈ l, startHeight ≤ h ∧ h ≤ endHeight)
    (hlen : l.length = endHeight.toNat + 1 - startHeight.toNat) :
    (∀ h, startHeight ≤ h → h ≤ endHeight → h ∈ l) ↔ l.Nodup := by
  have hsub : (l.map UInt64.toNat).toFinset ⊆ Finset.Icc startHeight.toNat endHeight.toNat := by
    intro n hn
    obtain ⟨h, hh, rfl⟩ := mem_map.mp (mem_toFinset.mp hn)
    exact Finset.mem_Icc.mpr (hin h hh)
  have hcard : (Finset.Icc startHeight.toNat endHeight.toNat).card =
    (l.map UInt64.toNat).length := by
    rw [Nat.card_Icc, length_map, hlen]
  rw [← nodup_map_iff fun _ _ => UInt64.toNat_inj.mp]
  rw [← Multiset.coe_nodup, ← Multiset.toFinset_card_eq_card_iff_nodup]
  constructor
  · intro hall
    refine le_antisymm (Multiset.toFinset_card_le _) (hcard.ge.trans (Finset.card_le_card ?_))
    intro n hn
    obtain ⟨hlo, hhi⟩ := Finset.mem_Icc.mp hn
    have hnat : (UInt64.ofNat n).toNat = n :=
      UInt64.toNat_ofNat_of_lt' (Nat.lt_of_le_of_lt hhi endHeight.toNat_lt)
    rw [← hnat] at hlo hhi
    exact mem_toFinset.mpr (mem_map.mpr ⟨_, hall _ hlo hhi, hnat⟩)
  · intro hfull h hlo hhi
    have heq := Finset.eq_of_subset_of_card_le hsub (hcard.trans hfull.symm).le
    have hmem := heq.ge (Finset.mem_Icc.mpr ⟨hlo, hhi⟩)
    obtain ⟨h', hh', hnat⟩ := mem_map.mp (mem_toFinset.mp hmem)
    rwa [← UInt64.toNat_inj.mp hnat]

/-! ## 3. What a call delivers -/

/-- The range without wrapping around. -/
def lastHeight : Int := c.nextTS.elim c.expectedHeight.toNat (·.toNat - 1)

def firstHeight : Int := c.currentHeight.toNat + if c.fromGenesis then 0 else 1

/-- The range and the count do not wrap around. -/
def Unwrapped : Prop :=
  (c.endHeight.toNat : Int) = c.lastHeight ∧ c.startHeight.toNat = c.firstHeight ∧
    c.requiredTesseractCount.toNat = c.lastHeight - c.firstHeight + 1

/-- The range ends at most one below its start. -/
def Fits : Prop :=
  0 ≤ c.lastHeight ∧ c.firstHeight < 2 ^ 64 ∧ c.firstHeight ≤ c.lastHeight + 1 ∧
    c.lastHeight - c.firstHeight + 1 < 2 ^ 64

theorem unwrapped_iff : c.Unwrapped ↔ c.Fits := by
  have hcurrent := c.currentHeight.toNat_lt
  unfold Unwrapped Fits requiredTesseractCount endHeight startHeight lastHeight firstHeight
  rcases c.nextTS with _ | height
  · cases c.fromGenesis <;> simp [UInt64.toNat_sub] <;> omega
  have hnext := height.toNat_lt
  cases c.fromGenesis <;> simp [UInt64.toNat_sub] <;> omega

/-- `nil` is returned only if all heights of the range came, or the end is reached. -/
def Delivers : Prop :=
  c.Unwrapped ∧ (c.syncLattice = true → c.endHeight ≤ c.collected.currentHeight ∨
    ∀ h, c.startHeight ≤ h → h ≤ c.endHeight → h ∈ c.collected.offered)

/-- The messages that complete the count repeat no height of the range, or the account has reached
    the end with the last of them. -/
def Orderly : Prop :=
  c.Fits ∧ (c.streamed = true → ∀ rs r, rs ++ [r] <+: c.replies →
    Completes c.startHeight c.endHeight c.requiredTesseractCount rs r →
      c.endHeight ≤ r.currentHeight ∨ (received c.startHeight c.endHeight (rs ++ [r])).Nodup)

/-- The heights of the range have come exactly if none of those counted is repeated. -/
theorem offered_iff_nodup (hunwrapped : c.Unwrapped) {rs : List LatticeReply}
    (hlen : (received c.startHeight c.endHeight rs).length = c.requiredTesseractCount.toNat) :
    (∀ h, c.startHeight ≤ h → h ≤ c.endHeight → h ∈ rs.filterMap (·.height)) ↔
      (received c.startHeight c.endHeight rs).Nodup := by
  obtain ⟨hend, hstart, hcount⟩ := hunwrapped
  have hrange : c.requiredTesseractCount.toNat = c.endHeight.toNat + 1 - c.startHeight.toNat := by
    omega
  refine Iff.trans ?_ (covers_iff_nodup (fun h hh => ?_) (hlen.trans hrange))
  · refine forall₃_congr fun h hlo hhi => ?_
    rw [received, counted, mem_filter, and_iff_left (by simp [hlo, hhi])]
  · simpa using (mem_filter.mp hh).2

theorem collected_eq {rs : List LatticeReply} {r : LatticeReply} (hpre : rs ++ [r] <+: c.replies)
    (h : Completes c.startHeight c.endHeight c.requiredTesseractCount rs r)
    (hlate : ¬ c.endHeight ≤ r.currentHeight) :
    c.collected = ⟨(rs ++ [r]).filterMap (·.height), r.currentHeight, true⟩ := by
  obtain ⟨rest, hrest⟩ := hpre
  rw [collected, ← hrest, append_assoc, singleton_append]
  exact collect_of_completes h hlate

/-- **A request delivers exactly if it is orderly.** -/
theorem delivers_iff (c : LatticeCall) :
    (c.isRequested = true → c.Delivers) ↔ (c.isRequested = true → c.Orderly) := by
  refine imp_congr_right fun hreq => ?_
  have hret : c.syncLattice = true ↔ c.streamed = true ∧ c.collected.isNil = true := by
    simp_all [isRequested, syncLattice]
  rw [Delivers, Orderly, ← unwrapped_iff, hret]
  refine and_congr_right fun hunwrapped => ?_
  constructor
  · intro h hstreamed rs r hpre hcomplete
    refine or_iff_not_imp_left.mpr fun hlate => ?_
    rw [c.collected_eq hpre hcomplete hlate] at h
    exact (c.offered_iff_nodup hunwrapped hcomplete.complete).mp
      ((h ⟨hstreamed, rfl⟩).resolve_left hlate)
  · rintro h ⟨hstreamed, hnil⟩
    refine or_iff_not_imp_left.mpr fun hlate => ?_
    obtain hzero | ⟨rs, r, hpre, hcomplete, hcurrent⟩ := completes_of_isNil hnil hlate
    · -- an empty range, of which nothing is required
      obtain ⟨hend, hstart, hcount⟩ := hunwrapped
      intro x hlo hhi
      have h1 := UInt64.le_iff_toNat_le.mp hlo
      have h2 := UInt64.le_iff_toNat_le.mp hhi
      have h3 : c.requiredTesseractCount.toNat = 0 := congrArg UInt64.toNat hzero
      omega
    have hlate' : ¬ c.endHeight ≤ r.currentHeight := hcurrent ▸ hlate
    rw [c.collected_eq hpre hcomplete hlate']
    exact (c.offered_iff_nodup hunwrapped hcomplete.complete).mpr
      ((h hstreamed rs r hpre hcomplete).resolve_left hlate')

/-- Height 1 comes twice and height 2 never. -/
def repeating : LatticeCall :=
  ⟨2, 0, none, true, false, true, true, [⟨some 1, false, 0⟩, ⟨some 1, true, 0⟩]⟩

theorem repeated_height_counted :
    repeating.isRequested = true ∧ repeating.syncLattice = true ∧ ¬ repeating.Delivers := by
  refine ⟨by decide, by decide, fun h => ?_⟩
  obtain hreached | hall := h.2 (by decide)
  · exact absurd hreached (by decide)
  · exact absurd (hall 2 (by decide) (by decide)) (by decide)

end LatticeCall

end GoMoi
