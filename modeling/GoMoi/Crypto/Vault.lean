/-
  File:      GoMoi/Crypto/Vault.lean
  Subject:   The signature functions of `crypto/vault.go` and `crypto/signature/bls`.

  The curve arithmetic is a package of its own (`blst`, `btcec`) and a parameter here
  (`Primitives`); what is modelled is everything around it: the multihash framing of a signature,
  the choice of the scheme, the length checks, and the convention for "invalid". That convention
  is the point: a signature that does not verify is `(false, nil)`, and only a malformed argument
  is an error.

  * `unmarshalSignature` -- the framing `<algo> <length> <digest> <extra>`. The end of the digest
    is computed in a byte, so a length of 254 or 255 panics;
  * **`verifyAggregateSignature_eq`** -- with keys of the right length the verdict is the
    pairing's, and the error is `nil` whichever it is.

  An aggregate is made of framed BLS signatures, but is itself the bare point.
-/
import GoMoi.Common.Types

namespace GoMoi

/-- `type Signature struct`. -/
structure Signature where
  sigPrefix : UInt8 × UInt8
  digest : Bytes
  extra : Bytes
  deriving DecidableEq, Repr

/-- The curve packages. -/
structure Primitives where
  /-- `P2Affine.VerifyCompressed`, on digest, key and message -/
  verifyCompressed : Bytes → Bytes → Bytes → Bool
  /-- `Uncompress` each digest, `P2Aggregate.Aggregate`, `ToAffine().Compress()` -/
  aggregate : List Bytes → Go Bytes
  /-- `P2Affine.FastAggregateVerify`, on signature, keys and message -/
  fastAggregateVerify : Bytes → List Bytes → Bytes → Bool
  /-- `Verify` of the ECDSA and Schnorr signatures, on signature, message and key -/
  secp256k1Verify : Signature → Bytes → Bytes → Bool × Option Err

namespace Crypto

/-! ## 1. Framing -/

def ecdsaSecp256k1 : UInt8 := 0x01
def schnorrSecp256k1 : UInt8 := 0x02
def blsBLST : UInt8 := 0x04

/-- `BLSPublicKeyLength`. -/
def blsPublicKeyLength : Nat := 48

/-- `CanUnmarshalSignature` and `UnmarshalSignature`. -/
def unmarshalSignature : Bytes → Go (Except Err Signature)
  | a :: n :: rest =>
    if rest.length < n.toNat then pure (.error (.sentinel .errInsufficientSigLength))
    -- `hexBytes[2 : hexBytes[1]+2]` with the sum in a byte
    else if (n + 2).toNat < 2 then .error .sliceBounds
    else pure (.ok ⟨(a, n), rest.take n.toNat, rest.drop n.toNat⟩)
  | _ => pure (.error (.sentinel .errInsufficientSigLength))

/-! ## 2. Single signatures -/

section

variable (P : Primitives)

/-- `BlsWithBlstSignature.Verify`. -/
def blsVerify (sig : Signature) (message nodeBLSPublicKey : Bytes) : Bool × Option Err :=
  if nodeBLSPublicKey.length ≠ blsPublicKeyLength then
    (false, some (.sentinel .errInvalidBLSPublicKeyLength))
  else (P.verifyCompressed sig.digest nodeBLSPublicKey message, none)

/-- `Verify`. -/
def verify (data signature pubBytes : Bytes) : Go (Bool × Option Err) := do
  match ← unmarshalSignature signature with
  | .error e => pure (false, some e)
  | .ok sig =>
    if sig.sigPrefix.1 = blsBLST then pure (blsVerify P sig data pubBytes)
    else if sig.sigPrefix.1 = ecdsaSecp256k1 ∨ sig.sigPrefix.1 = schnorrSecp256k1 then
      pure (P.secp256k1Verify sig data pubBytes)
    else pure (false, some (.sentinel .errUnsupportedSigType))

/-! ## 3. Aggregates -/

/-- The loop of `AggregateSignatures`: the digests, if all are BLS signatures. -/
def blsDigests : List Bytes → Go (Except Err (List Bytes))
  | [] => pure (.ok [])
  | s :: rest => do
    match ← unmarshalSignature s with
    | .error e => pure (.error e)
    | .ok sig =>
      if sig.sigPrefix.1 ≠ blsBLST then
        pure (.error (.sentinel .errUnsupportedAggSignature))
      else do
        match ← blsDigests rest with
        | .error e => pure (.error e)
        | .ok ds => pure (.ok (sig.digest :: ds))

/-- `AggregateSignatures`. -/
def aggregateSignatures (multipleSignatures : List Bytes) : Go (Bytes × Option Err) :=
  if multipleSignatures = [] then pure ([], some (.sentinel .errEmpty))
  else do
    match ← blsDigests multipleSignatures with
    | .error e => pure ([], some e)
    | .ok ds => do
      let agg ← P.aggregate ds
      pure (agg, none)

/-- `VerifyAggregateSignature`; the checks of the vault and of the BLS package are the same. -/
def verifyAggregateSignature (data aggSignature : Bytes) (multiplePubKeys : List Bytes) :
    Bool × Option Err :=
  if multiplePubKeys = [] then (false, some (.sentinel .errEmpty))
  else if multiplePubKeys.any (·.length ≠ blsPublicKeyLength) then
    (false, some (.sentinel .errInvalidBLSPublicKeyLength))
  else (P.fastAggregateVerify aggSignature multiplePubKeys data, none)

variable {data sig : Bytes} {keys : List Bytes}

/-- **An aggregate that does not verify is `(false, nil)`**: for keys of the right length the
    error is `nil` whatever the verdict. -/
theorem verifyAggregateSignature_eq (hne : keys ≠ [])
    (hlen : ∀ k ∈ keys, k.length = blsPublicKeyLength) :
    verifyAggregateSignature P data sig keys = (P.fastAggregateVerify sig keys data, none) := by
  have hany : keys.any (·.length ≠ blsPublicKeyLength) = false := by
    rw [List.any_eq_false]
    intro k hk
    simpa using hlen k hk
  rw [verifyAggregateSignature, if_neg hne, hany]
  rfl

/-- The verdict `true` comes from the pairing, and never with an error. -/
theorem verifyAggregateSignature_true (h : (verifyAggregateSignature P data sig keys).1 = true) :
    P.fastAggregateVerify sig keys data = true ∧
      (verifyAggregateSignature P data sig keys).2 = none := by
  unfold verifyAggregateSignature at h ⊢
  split at h
  · cases h
  split at h
  · cases h
  · rename_i hne hany
    rw [if_neg hne, if_neg hany]
    exact ⟨h, rfl⟩

/-- ... and only for keys of the right length. -/
theorem verifyAggregateSignature_length
    (h : verifyAggregateSignature P data sig keys = (true, none)) :
    ∀ k ∈ keys, k.length = blsPublicKeyLength := by
  unfold verifyAggregateSignature at h
  split at h
  · cases h
  split at h
  · cases h
  rename_i hany
  intro k hk
  by_contra hlen
  exact hany (List.any_eq_true.mpr ⟨k, hk, by simpa using hlen⟩)

end

end Crypto

end GoMoi
