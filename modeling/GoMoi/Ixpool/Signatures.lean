/-
  File:      GoMoi/Ixpool/Signatures.lean
  Subject:   The signatures of an interaction and the weights of the keys they were made with
             (`ixpool/ixpool.go`, `verifySignatures`).

  An account may have several keys, each with a weight; a sender or a notary has signed if the keys
  that signed weigh `MinWeight`. The weight is added up over the list of signatures, which names the
  keys: a revoked key counts nothing, a key that is named twice counts twice.

  * `SigEnv.Backed` -- what acceptance stands for: distinct keys with valid signatures whose weights
    reach the minimum as integers;
  * `accepted_backed` -- it holds for an account none of whose keys is named twice, and where one
    is, there are weights with which it does not;
  * two signatures by one key of half the weight.
-/
import GoMoi.Common.Interaction
import GoMoi.State.Object
import Mathlib

namespace GoMoi

open List

/-! ## 1. The functions -/

/-- `MinWeight`. -/
def minWeight : UInt64 := 1000

/-- What the pool asks: the keys of an account in its latest state, the verifier, and the encoding
    that is signed. -/
structure SigEnv where
  accountKeys : Identifier → Except Err AccountKeys
  verifier : Bytes → Bytes → Bytes → Go (Bool × Option Err)
  payloadForSignature : IxData → Except Err Bytes

namespace SigEnv

variable (env : SigEnv)

/-- `GetPublicKey`. -/
def getPublicKey (id : Identifier) (keyID : UInt64) : Except Err Bytes :=
  match env.accountKeys id with
  | .error err => .error err
  | .ok keys =>
    match keys[keyID.toNat]? with
    | none => .error (.sentinel .errInvalidKeyID)
    | some key => .ok key.publicKey

/-- The loop of `verifyParticipantSignatures`: the weight so far, and the weight at its end. -/
def weighSignatures (id : Identifier) (rawPayload : Bytes) (accountKeys : AccountKeys) :
    List IxSignature → UInt64 → Go (Except Err UInt64)
  | [], weight => pure (.ok weight)
  | sig :: signatures, weight =>
    if sig.id ≠ id then weighSignatures id rawPayload accountKeys signatures weight
    else
      match accountKeys[sig.keyID.toNat]? with
      | none => pure (.error (.new "invalid key id in signature"))
      | some key =>
        match env.getPublicKey id sig.keyID with
        | .error err => pure (.error err)
        | .ok pk => do
          if (← env.verifier rawPayload sig.signature pk) = (true, none) then
            weighSignatures id rawPayload accountKeys signatures
              (if key.revoked then weight else weight + key.weight)
          else pure (.error (.sentinel .errInvalidIXSignature))

/-- `verifyParticipantSignatures`. -/
def verifyParticipantSignatures (id : Identifier) (rawPayload : Bytes)
    (signatures : List IxSignature) : Go (Option Err) :=
  match env.accountKeys id with
  | .error err => pure (some err)
  | .ok accountKeys => do
    match ← env.weighSignatures id rawPayload accountKeys signatures 0 with
    | .error err => pure (some err)
    | .ok weight => pure (if weight < minWeight then some (.sentinel .errInvalidWeight) else none)

/-- The loop of `verifySignatures` over the participants. -/
def verifyNotaries (rawPayload : Bytes) (signatures : List IxSignature) :
    List IxParticipant → Go (Option Err)
  | [] => pure none
  | ps :: participants =>
    if ps.notary then do
      match ← env.verifyParticipantSignatures ps.id rawPayload signatures with
      | some err => pure (some (.wrap err "invalid notary participant signature"))
      | none => verifyNotaries rawPayload signatures participants
    else verifyNotaries rawPayload signatures participants

end SigEnv

/-- `hasSenderKeyIDSignature`. -/
def Interaction.hasSenderKeyIDSignature (ix : Interaction) : Bool :=
  ix.signatures.any fun sig => sig.id = ix.senderID && sig.keyID = ix.senderKeyID

/-- `verifySignatures`. -/
def SigEnv.verifySignatures (env : SigEnv) (ix : Interaction) : Go (Option Err) :=
  match env.payloadForSignature ix.inner with
  | .error err => pure (some err)
  | .ok rawPayload =>
    if !ix.hasSenderKeyIDSignature then pure (some (.sentinel .errInvalidSenderSignature))
    else do
      match ← env.verifyParticipantSignatures ix.senderID rawPayload ix.signatures with
      | some err => pure (some (.wrap err "invalid sender's signature"))
      | none => env.verifyNotaries rawPayload ix.signatures ix.inner.participants

/-! ## 2. What is added up -/

/-- The key whose weight a signature adds. -/
def namedKey (keys : AccountKeys) (id : Identifier) (sig : IxSignature) : Option Nat :=
  if sig.id ≠ id then none
  else
    match keys[sig.keyID.toNat]? with
    | none => none
    | some key => if key.revoked then none else some sig.keyID.toNat

def namedKeys (keys : AccountKeys) (id : Identifier) (signatures : List IxSignature) : List Nat :=
  signatures.filterMap (namedKey keys id)

/-- The weight of a key. -/
def AccountKeys.weight (keys : AccountKeys) (k : Nat) : UInt64 :=
  (keys[k]?.map AccountKey.weight).getD 0

theorem namedKey_eq_some {keys : AccountKeys} {id : Identifier} {sig : IxSignature} {k : Nat} :
    namedKey keys id sig = some k ↔
      sig.id = id ∧ sig.keyID.toNat = k ∧ ∃ key, keys[k]? = some key ∧ key.revoked = false := by
  unfold namedKey
  by_cases hid : sig.id = id
  · rw [if_neg (not_not.mpr hid)]
    rcases hk : keys[sig.keyID.toNat]? with _ | key
    · refine ⟨nofun, ?_⟩
      rintro ⟨-, rfl, key, hkey, -⟩
      rw [hk] at hkey
      cases hkey
    cases hr : key.revoked with
    | true =>
      refine ⟨fun h => (by simp [hr] at h), ?_⟩
      rintro ⟨-, rfl, _, hkey, hr'⟩
      obtain rfl := Option.mem_unique hk hkey
      rw [hr] at hr'
      cases hr'
    | false =>
      simp only [hr, Bool.false_eq_true, if_false, Option.some.injEq]
      refine ⟨?_, fun h => h.2.1⟩
      rintro rfl
      exact ⟨hid, rfl, key, hk, hr⟩
  · rw [if_pos hid]
    exact ⟨nofun, fun h => absurd h.1 hid⟩

section

variable {env : SigEnv} {id : Identifier} {raw : Bytes} {keys : AccountKeys}

/-- The signature names a key of the account and verifies. -/
def SigEnv.Verified (env : SigEnv) (raw : Bytes) (keys : AccountKeys) (sig : IxSignature) : Prop :=
  ∃ key, keys[sig.keyID.toNat]? = some key ∧
    env.verifier raw sig.signature key.publicKey = .ok (true, none)

variable {sigs : List IxSignature} {ix : Interaction} {Valid : Bytes → Bytes → Bytes → Prop}

open SigEnv

/-- **The loop**: it ends if all signatures of the account verify, with the weights of the named
    keys added up. -/
theorem weighSignatures_eq_ok (hkeys : env.accountKeys id = .ok keys) {w w' : UInt64} :
    env.weighSignatures id raw keys sigs w = .ok (.ok w') ↔
      (∀ sig ∈ sigs, sig.id = id → env.Verified raw keys sig)
        ∧ w' = w + ((namedKeys keys id sigs).map keys.weight).sum := by
  induction sigs generalizing w with
  | nil => simp [weighSignatures, namedKeys, eq_comm, pure, Except.pure]
  | cons sig sigs ih =>
    unfold weighSignatures
    rw [forall_mem_cons]
    by_cases hid : sig.id = id
    · rw [if_neg (not_not.mpr hid)]
      rcases hk : keys[sig.keyID.toNat]? with _ | key
      · refine ⟨nofun, fun h => ?_⟩
        obtain ⟨key, hkey, -⟩ := h.1.1 hid
        rw [hk] at hkey
        cases hkey
      have hpk : env.getPublicKey id sig.keyID = .ok key.publicKey := by
        simp [getPublicKey, hkeys, hk]
      have hweight : keys.weight sig.keyID.toNat = key.weight := by
        simp [AccountKeys.weight, hk]
      simp only [hpk]
      by_cases hv : env.verifier raw sig.signature key.publicKey = .ok (true, none)
      · rw [hv]
        refine Iff.trans (b := env.weighSignatures id raw keys sigs _ = _) Iff.rfl ?_
        rw [ih]
        have hver : env.Verified raw keys sig := ⟨key, hk, hv⟩
        simp only [hid, hver, true_implies, true_and]
        refine and_congr_right fun _ => ?_
        cases hr : key.revoked with
        | true =>
          have hnone : namedKey keys id sig = none := by simp [namedKey, hid, hk, hr]
          simp [namedKeys, hnone]
        | false =>
          have hsome : namedKey keys id sig = some sig.keyID.toNat :=
            namedKey_eq_some.mpr ⟨hid, rfl, key, hk, hr⟩
          simp [namedKeys, hsome, hweight, UInt64.add_assoc]
      · refine ⟨fun h => ?_, fun h => ?_⟩
        · obtain ⟨r, hr, h⟩ := Go.bind_eq_ok.mp h
          rw [if_neg fun hok => hv (hr.trans (congrArg _ hok))] at h
          cases h
        obtain ⟨_, hkey', hv'⟩ := h.1.1 hid
        obtain rfl := Option.mem_unique hk hkey'
        exact absurd hv' hv
    · have hnone : namedKey keys id sig = none := by simp [namedKey, hid]
      rw [if_pos hid, ih]
      simp [hid, namedKeys, hnone]

/-- **One account** is accepted if its signatures verify and the weights, added in 64 bits, reach
    the minimum. -/
theorem verifyParticipantSignatures_eq_none :
    env.verifyParticipantSignatures id raw sigs = .ok none ↔
      ∃ keys, env.accountKeys id = .ok keys
        ∧ (∀ sig ∈ sigs, sig.id = id → env.Verified raw keys sig)
        ∧ minWeight ≤ ((namedKeys keys id sigs).map keys.weight).sum := by
  unfold verifyParticipantSignatures
  rcases hkeys : env.accountKeys id with err | keys
  · simp [pure, Except.pure]
  simp only [Except.ok.injEq, exists_eq_left']
  constructor
  · intro h
    obtain ⟨r, hr, h⟩ := Go.bind_eq_ok.mp h
    rcases r with err | w
    · cases h
    obtain ⟨hver, rfl⟩ := (weighSignatures_eq_ok hkeys).mp hr
    refine ⟨hver, ?_⟩
    simpa [pure, Except.pure] using h
  · rintro ⟨hver, hmin⟩
    rw [(weighSignatures_eq_ok hkeys (w := 0)).mpr ⟨hver, rfl⟩]
    simpa [bind, Except.bind, pure, Except.pure] using hmin

/-- The accounts that have to sign. -/
def Interaction.signers (ix : Interaction) : List Identifier :=
  ix.senderID :: (ix.inner.participants.filter IxParticipant.notary).map IxParticipant.id

theorem verifyNotaries_eq_none {participants : List IxParticipant} :
    env.verifyNotaries raw sigs participants = .ok none ↔
      ∀ id ∈ (participants.filter IxParticipant.notary).map IxParticipant.id,
        env.verifyParticipantSignatures id raw sigs = .ok none := by
  induction participants with
  | nil => simp [verifyNotaries, pure, Except.pure]
  | cons ps participants ih =>
    unfold verifyNotaries
    rcases hn : ps.notary with _ | _
    · simp [hn, ih]
    rw [if_pos rfl, filter_cons_of_pos hn, map_cons, forall_mem_cons, ← ih]
    rcases env.verifyParticipantSignatures ps.id raw sigs with p | _ | err <;>
      simp [bind, Except.bind, pure, Except.pure]

/-- **The interaction** is accepted if all accounts that have to sign are. -/
theorem verifySignatures_eq_none :
    env.verifySignatures ix = .ok none ↔
      ∃ raw, env.payloadForSignature ix.inner = .ok raw ∧ ix.hasSenderKeyIDSignature
        ∧ ∀ id ∈ ix.signers, env.verifyParticipantSignatures id raw ix.signatures = .ok none := by
  unfold verifySignatures
  rcases hraw : env.payloadForSignature ix.inner with err | raw
  · simp [pure, Except.pure]
  simp only [Except.ok.injEq, exists_eq_left']
  rcases ix.hasSenderKeyIDSignature with _ | _
  · simp [pure, Except.pure]
  rw [Interaction.signers, forall_mem_cons, ← verifyNotaries_eq_none]
  rcases env.verifyParticipantSignatures ix.senderID raw ix.signatures with p | _ | err <;>
    simp [bind, Except.bind, pure, Except.pure]

/-! ## 3. What acceptance stands for -/

/-- Distinct keys of the account that are not revoked, each with a valid signature in the list, and
    with weights that reach the minimum as integers. -/
def SigEnv.Backed (env : SigEnv) (Valid : Bytes → Bytes → Bytes → Prop) (ix : Interaction)
    (id : Identifier) : Prop :=
  ∃ raw keys, env.payloadForSignature ix.inner = .ok raw ∧ env.accountKeys id = .ok keys ∧
    ∃ ks : Finset Nat,
      (∀ k ∈ ks, ∃ key, keys[k]? = some key ∧ key.revoked = false ∧
        ∃ sig ∈ ix.signatures, sig.id = id ∧ sig.keyID.toNat = k
          ∧ Valid raw sig.signature key.publicKey)
      ∧ minWeight.toNat ≤ ∑ k ∈ ks, (keys.weight k).toNat

/-- No key of the account that counts is named by two signatures. -/
def SigEnv.NamedOnce (env : SigEnv) (ix : Interaction) (id : Identifier) : Prop :=
  ∀ keys, env.accountKeys id = .ok keys → (namedKeys keys id ix.signatures).Nodup

theorem toNat_sum_le (f : Nat → UInt64) (l : List Nat) :
    (l.map f).sum.toNat ≤ (l.map fun k => (f k).toNat).sum := by
  induction l with
  | nil => exact Nat.le_refl _
  | cons k l ih =>
    rw [map_cons, map_cons, sum_cons, sum_cons, UInt64.toNat_add]
    omega

/-- Keys that are named once each: the 64-bit sum is at most the sum of the integers. -/
theorem backed_of_namedOnce
    (hsound : ∀ raw sig pk, env.verifier raw sig pk = .ok (true, none) → Valid raw sig pk)
    (hacc : env.verifySignatures ix = .ok none) (hid : id ∈ ix.signers)
      (honce : env.NamedOnce ix id) :
    env.Backed Valid ix id := by
  obtain ⟨raw, hraw, -, hall⟩ := verifySignatures_eq_none.mp hacc
  obtain ⟨keys, hkeys, hver, hmin⟩ := verifyParticipantSignatures_eq_none.mp (hall id hid)
  have hnodup := honce keys hkeys
  refine ⟨raw, keys, hraw, hkeys, (namedKeys keys id ix.signatures).toFinset, ?_, ?_⟩
  · intro k hk
    obtain ⟨sig, hsig, hname⟩ := mem_filterMap.mp (mem_toFinset.mp hk)
    obtain ⟨hsid, rfl, key, hkey, hrev⟩ := namedKey_eq_some.mp hname
    obtain ⟨_, hkey', hv⟩ := hver sig hsig hsid
    obtain rfl := Option.mem_unique hkey hkey'
    exact ⟨key, hkey, hrev, sig, hsig, hsid, rfl, hsound _ _ _ hv⟩
  · rw [sum_toFinset _ hnodup]
    exact Nat.le_trans (UInt64.le_iff_toNat_le.mp hmin) (toNat_sum_le keys.weight _)

/-! ## 4. A key that is named twice -/

/-- The keys with other weights. -/
def AccountKeys.reweigh (keys : AccountKeys) (weights : Nat → UInt64) : AccountKeys :=
  keys.mapIdx fun k key => { key with weight := weights k }

/-- The state in which the keys of one account have other weights. -/
def SigEnv.reweigh (env : SigEnv) (id : Identifier) (weights : Nat → UInt64) : SigEnv :=
  { env with accountKeys := fun id' =>
      if id' = id then (env.accountKeys id').map fun keys => keys.reweigh weights
      else env.accountKeys id' }

variable (weights : Nat → UInt64)

theorem getElem?_reweigh (k : Nat) :
    (keys.reweigh weights)[k]? = keys[k]?.map fun key => { key with weight := weights k } := by
  simp [AccountKeys.reweigh]

theorem namedKeys_reweigh (sigs : List IxSignature) :
    namedKeys (keys.reweigh weights) id sigs = namedKeys keys id sigs := by
  refine filterMap_congr fun sig _ => ?_
  unfold namedKey
  rw [getElem?_reweigh]
  cases keys[sig.keyID.toNat]? <;> rfl

theorem weight_reweigh {weights : Nat → UInt64} {k : Nat} (hk : k ∈ namedKeys keys id sigs) :
    (keys.reweigh weights).weight k = weights k := by
  obtain ⟨_, -, hname⟩ := mem_filterMap.mp hk
  obtain ⟨-, -, _, hkey, -⟩ := namedKey_eq_some.mp hname
  simp [AccountKeys.weight, getElem?_reweigh, hkey]

theorem weight_reweigh_le (k : Nat) :
    ((keys.reweigh weights).weight k).toNat ≤ (weights k).toNat := by
  unfold AccountKeys.weight
  rw [getElem?_reweigh]
  cases keys[k]? with
  | none => exact Nat.zero_le _
  | some key => exact Nat.le_refl _

/-- All the weight on one key. -/
def weightOn (k₀ : Nat) (w : UInt64) (k : Nat) : UInt64 := if k = k₀ then w else 0

theorem toNat_sum_weightOn (k0 : Nat) (w : UInt64) (l : List Nat) :
    (l.map (weightOn k0 w)).sum.toNat = (l.count k0 * w.toNat) % 2 ^ 64 := by
  induction l with
  | nil => simp
  | cons k l ih =>
    rw [map_cons, sum_cons, UInt64.toNat_add, ih, count_cons]
    by_cases hk : k = k0
    · simp only [weightOn, hk, if_true, beq_self_eq_true, Nat.add_mul, Nat.one_mul]
      omega
    · have hbeq : (k == k0) = false := by simpa using hk
      simp [weightOn, hk, hbeq]

/-- A weight below the minimum that reaches it when it is added `m` times. -/
theorem exists_weight {m : Nat} (h2 : 2 ≤ m) (hm : m < 2 ^ 64) :
    ∃ w : UInt64, w.toNat < minWeight.toNat ∧ minWeight.toNat ≤ (m * w.toNat) % 2 ^ 64 := by
  have hmin : minWeight.toNat = 1000 := rfl
  by_cases hsmall : m < 1000
  · refine ⟨500, ?_, ?_⟩
    · exact (by decide : (500 : UInt64).toNat < minWeight.toNat)
    · have hw : (500 : UInt64).toNat = 500 := rfl
      rw [hmin, hw, Nat.mod_eq_of_lt (by omega)]
      omega
  refine ⟨1, ?_, ?_⟩
  · exact (by decide : (1 : UInt64).toNat < minWeight.toNat)
  · have hw : (1 : UInt64).toNat = 1 := rfl
    rw [hmin, hw]
    omega

/-- With the weight on a key that is named twice the list is accepted, though no set of keys reaches
    the minimum. -/
theorem not_backed_of_named_twice (hlen : ix.signatures.length < 2 ^ 64)
    (hacc : env.verifySignatures ix = .ok none) (htwice : ¬ env.NamedOnce ix id) :
    ∃ weights, (env.reweigh id weights).verifySignatures ix = .ok none
      ∧ ¬ (env.reweigh id weights).Backed Valid ix id := by
  obtain ⟨keys, hkeys, hdup⟩ : ∃ keys, env.accountKeys id = .ok keys
      ∧ ¬ (namedKeys keys id ix.signatures).Nodup := by
    simpa [SigEnv.NamedOnce] using htwice
  obtain ⟨k0, hcount⟩ : ∃ k0, 2 ≤ (namedKeys keys id ix.signatures).count k0 := by
    rw [nodup_iff_count_le_one] at hdup
    push Not at hdup
    exact hdup
  have hshort : (namedKeys keys id ix.signatures).count k0 < 2 ^ 64 :=
    Nat.lt_of_le_of_lt (Nat.le_trans count_le_length (length_filterMap_le ..)) hlen
  obtain ⟨w, hlow, hreach⟩ := exists_weight hcount hshort
  have hkeys' : (env.reweigh id (weightOn k0 w)).accountKeys id
      = .ok (keys.reweigh (weightOn k0 w)) := by
    simp [reweigh, hkeys, Except.map]
  refine ⟨weightOn k0 w, ?_, ?_⟩
  · obtain ⟨raw, hraw, hsender, hall⟩ := verifySignatures_eq_none.mp hacc
    refine verifySignatures_eq_none.mpr ⟨raw, hraw, hsender, fun id' hid' => ?_⟩
    have hold := verifyParticipantSignatures_eq_none.mp (hall id' hid')
    refine verifyParticipantSignatures_eq_none.mpr ?_
    by_cases e : id' = id
    · subst e
      obtain ⟨keys1, hkeys1, hver, -⟩ := hold
      obtain rfl : keys = keys1 := Except.ok.inj (hkeys.symm.trans hkeys1)
      refine ⟨_, hkeys', fun sig hsig hsid => ?_, ?_⟩
      · obtain ⟨key, hkey, hv⟩ := hver sig hsig hsid
        exact ⟨{ key with weight := weightOn k0 w sig.keyID.toNat },
          by rw [getElem?_reweigh, hkey]; rfl, hv⟩
      have hmap : (namedKeys keys id' ix.signatures).map (keys.reweigh (weightOn k0 w)).weight
          = (namedKeys keys id' ix.signatures).map (weightOn k0 w) :=
        map_congr_left fun k hk => weight_reweigh hk
      rw [namedKeys_reweigh, hmap, UInt64.le_iff_toNat_le, toNat_sum_weightOn]
      exact hreach
    · obtain ⟨keys1, hkeys1, hver, hmin⟩ := hold
      refine ⟨keys1, ?_, hver, hmin⟩
      simp [reweigh, e, hkeys1]
  · rintro ⟨raw, keys1, -, hkeys1, ks, -, hmin⟩
    obtain rfl := Except.ok.inj (hkeys'.symm.trans hkeys1)
    have hle : ∑ k ∈ ks, ((keys.reweigh (weightOn k0 w)).weight k).toNat
        ≤ ∑ k ∈ ks, if k = k0 then w.toNat else 0 := by
      refine Finset.sum_le_sum fun k _ => ?_
      refine Nat.le_trans (weight_reweigh_le _ k) ?_
      unfold weightOn
      split
      case isTrue => exact Nat.le_refl _
      case isFalse => exact Nat.le_refl _
    rw [Finset.sum_ite_eq'] at hle
    split at hle
    case isTrue => omega
    case isFalse => omega

/-- **Acceptance.** For every account that has to sign an accepted interaction: if none of its keys
    is named by two signatures, there are distinct keys with valid signatures and weight enough; and
    if one is, the same signatures are accepted with weights of its keys for which there are
    none. -/
theorem accepted_backed {Valid : Bytes → Bytes → Bytes → Prop} {ix : Interaction}
    (hsound : ∀ raw sig pk, env.verifier raw sig pk = .ok (true, none) → Valid raw sig pk)
    (hlen : ix.signatures.length < 2 ^ 64) (hacc : env.verifySignatures ix = .ok none) :
    ∀ id ∈ ix.signers,
      (env.NamedOnce ix id → env.Backed Valid ix id)
        ∧ (¬ env.NamedOnce ix id →
            ∃ weights, (env.reweigh id weights).verifySignatures ix = .ok none
              ∧ ¬ (env.reweigh id weights).Backed Valid ix id) :=
  fun _ hid => ⟨backed_of_namedOnce hsound hacc hid, not_backed_of_named_twice hlen hacc⟩

end

/-! ## 5. Signatures that back an interaction, and signatures that do not -/

namespace SignatureSample

def account : Identifier := ⟨1⟩

/-- Two keys of half the weight. -/
def keys : AccountKeys := [⟨0, [7], 500, 0, false, 0⟩, ⟨1, [8], 500, 0, false, 0⟩]

/-- A signature is the key it was made with. -/
def env : SigEnv where
  accountKeys _ := .ok keys
  verifier _ sig pk := .ok (decide (sig = pk), none)
  payloadForSignature _ := .ok []

def ix (signatures : List IxSignature) : Interaction where
  inner := { sender := ⟨account, 0, 0⟩, payer := nilIdentifier, fuelPrice := none, fuelLimit := 0
             ixOps := [], participants := [] }
  ops := []
  ps := ∅
  leaderCandidateAcc := account
  hash := nilHash
  size := 0
  signatures := signatures

/-- Both keys sign. -/
def both : List IxSignature := [⟨account, 0, [7]⟩, ⟨account, 1, [8]⟩]

/-- One key signs twice. -/
def again : List IxSignature := [⟨account, 0, [7]⟩, ⟨account, 0, [7]⟩]

theorem both_backed :
    env.verifySignatures (ix both) = .ok none
      ∧ env.Backed (fun _ sig pk => sig = pk) (ix both) account := by
  have hacc : env.verifySignatures (ix both) = .ok none := by decide
  refine ⟨hacc, (accepted_backed (fun _ sig pk h => ?_) (by decide) hacc account (by decide)).1 ?_⟩
  · simpa [env] using h
  · intro keys' hkeys
    obtain rfl := Except.ok.inj hkeys
    decide

/-- The list is accepted, but a set of keys that have signed holds the first key alone. -/
theorem again_not_backed :
    env.verifySignatures (ix again) = .ok none
      ∧ ¬ env.Backed (fun _ sig pk => sig = pk) (ix again) account := by
  refine ⟨by decide, ?_⟩
  rintro ⟨_, _, -, hkeys, ks, hks, hmin⟩
  obtain rfl := Except.ok.inj hkeys
  have hsub : ks ⊆ {0} := by
    intro k hk
    obtain ⟨-, -, -, _, hsig, -, rfl, -⟩ := hks k hk
    simp only [ix, again, mem_cons, not_mem_nil, or_false, or_self] at hsig
    subst hsig
    exact Finset.mem_singleton_self _
  have hle := Finset.sum_le_sum_of_subset (f := fun k => (keys.weight k).toNat) hsub
  exact absurd (Nat.le_trans hmin hle) (by decide)

end SignatureSample

end GoMoi
