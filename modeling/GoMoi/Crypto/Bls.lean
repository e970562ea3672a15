/-
  File:      GoMoi/Crypto/Bls.lean
  Subject:   What is assumed of BLS aggregation, and that it can be met.

  The curve package is a parameter (`Primitives`). The results on certificates rest on two
  properties of it, each named here and nowhere hidden in a definition:

  * `Primitives.Aggregates` -- points that have passed a verification can be added up;
  * `Primitives.Ideal P signedBy` -- **a point verifies exactly for the signers in it**: `signedBy`
    reads a point as the multiset of (key, message) pairs that were signed and added up to it,
    and a verification compares that multiset with the one it was asked about;
  * `listPrims` -- points as lists of one-byte key holders, which meet both.
-/
import GoMoi.Crypto.Vault

namespace GoMoi

open List

/-! ## 1. The assumptions -/

namespace Primitives

/-- Points that have passed a verification can be aggregated. -/
def Aggregates (P : Primitives) : Prop :=
  ∀ ds, (∀ d ∈ ds, ∃ key message, P.verifyCompressed d key message = true) →
    ∃ a, P.aggregate ds = .ok a

/-- Verification is exact for the multiset of signers of a point. -/
structure Ideal (P : Primitives) (signedBy : Bytes → Multiset (Bytes × Bytes)) : Prop where
  single : ∀ d key message, P.verifyCompressed d key message = true ↔
    signedBy d = {(key, message)}
  aggregate : ∀ ds a, P.aggregate ds = .ok a → signedBy a = (ds.map signedBy).sum
  fast : ∀ a keys message, P.fastAggregateVerify a keys message = true ↔
    signedBy a = ((keys.map fun key => (key, message) : List (Bytes × Bytes)) : Multiset _)

end Primitives

/-! ## 2. Signatures the assumptions speak about -/

namespace Crypto

variable {P : Primitives}

theorem blsVerify_true {sig : Signature} {message key : Bytes}
    (h : blsVerify P sig message key = (true, none)) :
    key.length = blsPublicKeyLength ∧ P.verifyCompressed sig.digest key message = true := by
  unfold blsVerify at h
  split at h
  · cases h
  · rename_i hlen
    exact ⟨not_not.mp hlen, congrArg Prod.fst h⟩

/-- The signature can be parsed, and the point of a BLS signature has passed a verification. -/
def Checked (P : Primitives) (s : Bytes) : Prop :=
  ∃ x, unmarshalSignature s = .ok x ∧ ∀ sig, x = .ok sig → sig.sigPrefix.1 = blsBLST →
    ∃ key message, P.verifyCompressed sig.digest key message = true

theorem verify_checked {raw s key : Bytes} (h : verify P raw s key = .ok (true, none)) :
    Checked P s := by
  rw [verify, Go.bind_eq_ok] at h
  obtain ⟨x, hx, h⟩ := h
  refine ⟨x, hx, ?_⟩
  rintro _ rfl hbls
  simp only [hbls, if_true] at h
  exact ⟨key, raw, (blsVerify_true (Except.ok.inj h)).2⟩

/-- The loop over checked signatures returns, with checked points if it returns any. -/
theorem blsDigests_returns {l : List Bytes} (h : ∀ s ∈ l, Checked P s) :
    ∃ r, blsDigests l = .ok r ∧ ∀ ds, r = .ok ds →
      ∀ d ∈ ds, ∃ key message, P.verifyCompressed d key message = true := by
  induction l with
  | nil =>
    refine ⟨_, rfl, ?_⟩
    rintro ds h d hd
    cases h
    cases hd
  | cons s rest ih =>
    obtain ⟨x, hx, hpoint⟩ := h s mem_cons_self
    obtain ⟨r, hr, hrest⟩ := ih fun s' hs' => h s' (mem_cons_of_mem s hs')
    unfold blsDigests
    simp only [hx, hr, bind, Except.bind]
    rcases x with e | sig
    · exact ⟨_, rfl, nofun⟩
    by_cases hbls : sig.sigPrefix.1 = blsBLST
    · simp only [hbls, ne_eq, not_true_eq_false, if_false]
      rcases r with e | ds
      · exact ⟨_, rfl, nofun⟩
      refine ⟨_, rfl, ?_⟩
      rintro _ h
      cases h
      exact forall_mem_cons.mpr ⟨hpoint sig rfl hbls, hrest ds rfl⟩
    · simp only [ne_eq, hbls, not_false_eq_true, if_true]
      exact ⟨_, rfl, nofun⟩

theorem aggregateSignatures_returns (hagg : P.Aggregates) {l : List Bytes}
    (h : ∀ s ∈ l, Checked P s) : ∃ r, aggregateSignatures P l = .ok r := by
  unfold aggregateSignatures
  split
  · exact ⟨_, rfl⟩
  obtain ⟨r, hr, hpoints⟩ := blsDigests_returns h
  simp only [hr, bind, Except.bind]
  rcases r with e | ds
  · exact ⟨_, rfl⟩
  obtain ⟨a, ha⟩ := hagg ds (hpoints ds rfl)
  simp only [ha]
  exact ⟨_, rfl⟩

/-- A framed BLS signature over a message that verifies under a key. -/
def BlsSigned (P : Primitives) (message s key : Bytes) : Prop :=
  ∃ sig, unmarshalSignature s = .ok (.ok sig) ∧ sig.sigPrefix.1 = blsBLST ∧
    blsVerify P sig message key = (true, none)

theorem BlsSigned.key_length {message s key : Bytes} (h : BlsSigned P message s key) :
    key.length = blsPublicKeyLength := by
  obtain ⟨_, _, _, hverify⟩ := h
  exact (blsVerify_true hverify).1

section

variable {signedBy : Bytes → Multiset (Bytes × Bytes)} {ι : Type} {message : Bytes}
  {sig key : ι → Bytes}

/-- The points of BLS signatures of one message hold their signers. -/
theorem blsDigests_signed (hP : P.Ideal signedBy) {l : List ι}
    (h : ∀ i ∈ l, BlsSigned P message (sig i) (key i)) :
    ∃ ds, blsDigests (l.map sig) = .ok (.ok ds) ∧
      (ds.map signedBy).sum = ((l.map fun i => (key i, message) : List _) : Multiset _) := by
  induction l with
  | nil => exact ⟨[], rfl, rfl⟩
  | cons i l ih =>
    obtain ⟨ds, hds, hsum⟩ := ih fun j hj => h j (mem_cons_of_mem i hj)
    obtain ⟨x, hx, hbls, hverify⟩ := h i mem_cons_self
    refine ⟨x.digest :: ds, ?_, ?_⟩
    · rw [map_cons, blsDigests]
      simp only [hx, hds, hbls, bind, Except.bind, ne_eq, not_true_eq_false, if_false]
      rfl
    · rw [map_cons, sum_cons, hsum,
        (hP.single _ _ _).mp (blsVerify_true hverify).2, map_cons, ← Multiset.cons_coe,
        Multiset.singleton_add]

/-- **An aggregate of BLS signatures of one message holds their signers.** -/
theorem aggregateSignatures_signed (hP : P.Ideal signedBy) {l : List ι} (hne : l ≠ [])
    (h : ∀ i ∈ l, BlsSigned P message (sig i) (key i)) {agg : Bytes} {err : Option Err}
    (hcall : aggregateSignatures P (l.map sig) = .ok (agg, err)) :
    err = none ∧ signedBy agg = ((l.map fun i => (key i, message) : List _) : Multiset _) := by
  obtain ⟨ds, hds, hsum⟩ := blsDigests_signed hP h
  rw [aggregateSignatures, if_neg (by simpa using hne), hds, Go.bind_eq_ok] at hcall
  obtain ⟨r, hr, hcall⟩ := hcall
  cases hr
  rw [Go.bind_eq_ok] at hcall
  obtain ⟨a, ha, hret⟩ := hcall
  cases hret
  exact ⟨rfl, by rw [hP.aggregate ds _ ha, hsum]⟩

end

end Crypto

/-! ## 3. Points that meet the assumptions -/

/-- The key of a one-byte key holder. -/
def listKey (b : UInt8) : Bytes := List.replicate Crypto.blsPublicKeyLength b

/-- A point lists the key holders that signed the one message it is about. -/
def listSignedBy (message d : Bytes) : Multiset (Bytes × Bytes) :=
  ((d.map fun b => (listKey b, message) : List (Bytes × Bytes)) : Multiset _)

/-- Aggregation appends the lists. A 48-byte key is no key of the other schemes. -/
def listPrims (message : Bytes) : Primitives where
  verifyCompressed d key m := listSignedBy message d = {(key, m)}
  aggregate ds := .ok ds.flatten
  fastAggregateVerify a keys m :=
    listSignedBy message a = ((keys.map fun key => (key, m) : List (Bytes × Bytes)) : Multiset _)
  secp256k1Verify _ _ _ := (false, some (.new "malformed public key"))

theorem listPrims_ideal (message : Bytes) : (listPrims message).Ideal (listSignedBy message) where
  single d key m := decide_eq_true_iff
  aggregate ds a h := by
    cases h
    induction ds with
    | nil => rfl
    | cons d ds ih =>
      rw [map_cons, sum_cons, ← ih]
      simp [listSignedBy]
  fast a keys m := decide_eq_true_iff

theorem listPrims_aggregates (message : Bytes) : (listPrims message).Aggregates :=
  fun ds _ => ⟨ds.flatten, rfl⟩

end GoMoi
