/-
  File:      GoMoi/Storage/Keys.lean
  Subject:   The keys of the database (`storage/key.go`, `storage/prefix.go`, `storage/bucket.go`).

  All records of a node live in one key space. A key of an account starts with its identifier, any
  other one with `nonacc_`; a tag follows that names the kind of the record, and then the rest. One
  kind has no tag at all: the tesseract of an interaction is looked up under the hash of the
  interaction as it is.

  Nothing forbids an identifier that begins like `nonacc_`, so that two kinds are told apart by the
  length of their keys here and by the tag among the keys of accounts:

      interaction hash 32        tesseract, interactions, receipts, commit info 40
      tesseract height 41        account meta information 48
      state of an account 65     number of accounts in a bucket 16

  * `PrefixTag`, `dbKey` and the keys made with it;
  * `keys_apart` -- with valid identifiers all of them are told apart.
-/
import GoMoi.Lib.BigEndian
import GoMoi.State.HashTree

namespace GoMoi

open Identifier

/-! ## 1. Bytes of hashes and identifiers -/

/-- `Identifier.Bytes`: big-endian. -/
def Identifier.bytes (id : Identifier) : Bytes := bigEndian 32 id.bits.toNat

@[simp] theorem Hash.bytes_length (h : Hash) : h.bytes.length = 32 := bigEndian_length 32 _

variable (tsHash : Hash) (id : Identifier)

@[simp] theorem Identifier.bytes_length : id.bytes.length = 32 :=
  bigEndian_length 32 _

theorem Hash.bytes_injective {h h' : Hash} (heq : h.bytes = h'.bytes) : h = h' := by
  have hbits := bigEndian_injective (n := 32) h.bits.isLt h'.bits.isLt heq
  cases h
  cases h'
  exact congrArg Hash.mk (BitVec.eq_of_toNat_eq hbits)

theorem Identifier.bytes_injective {id id' : Identifier} (heq : id.bytes = id'.bytes) :
    id = id' := by
  have hbits := bigEndian_injective (n := 32) id.bits.isLt id'.bits.isLt heq
  cases id
  cases id'
  exact congrArg mk (BitVec.eq_of_toNat_eq hbits)

/-! ## 2. Tags -/

/-- `type PrefixTag byte`: the constants of the package. -/
inductive PrefixTag where
  | account
  | context
  | asset
  | logic
  | file
  | accountKeys
  | storage
  | deeds
  | preImage
  | tesseractHeight
  | logicManifest
  | interaction
  | senatus
  | senatusPeerCount
  | tesseract
  | tesseractCommitInfo
  | receipt
  | accountSyncJob
  | accountSyncStatus
  | principalSyncStatus
  | bucket
  | bucketCount
  | consensusProposals
  | consensusSafetyInfo
  deriving DecidableEq, Repr

namespace PrefixTag

/-- `Byte`. -/
def byte : PrefixTag → UInt8
  | account => 0x00
  | context => 0x01
  | asset => 0x02
  | logic => 0x03
  | file => 0x04
  | accountKeys => 0x05
  | storage => 0x06
  | deeds => 0x07
  | preImage => 0x08
  | tesseractHeight => 0x09
  | logicManifest => 0x0A
  | interaction => 0x80
  | senatus => 0x81
  | senatusPeerCount => 0x82
  | tesseract => 0x83
  | tesseractCommitInfo => 0x84
  | receipt => 0x85
  | accountSyncJob => 0x86
  | accountSyncStatus => 0x87
  | principalSyncStatus => 0x88
  | bucket => 0x89
  | bucketCount => 0x8A
  | consensusProposals => 0x8B
  | consensusSafetyInfo => 0x8C

/-- `IsAccountBasedKey`: the highest bit is not set. -/
def isAccountBasedKey (p : PrefixTag) : Bool := !(p.byte &&& 0x80 == 0x80)

theorem byte_injective {p q : PrefixTag} (h : p.byte = q.byte) : p = q := by
  revert h
  cases p <;> cases q <;> decide

/-- The kinds of trees. -/
def isTree : PrefixTag → Bool
  | asset | logic | storage => true
  | _ => false

theorem isAccountBasedKey_of_isTree {p : PrefixTag} (h : p.isTree = true) :
    p.isAccountBasedKey = true := by
  cases p <;> first | rfl | cases h

end PrefixTag

/-! ## 3. Keys -/

/-- `NonAccountPrefix`: the bytes of `nonacc_`. -/
def nonAccountPrefix : Bytes := [0x6e, 0x6f, 0x6e, 0x61, 0x63, 0x63, 0x5f]

/-- `dbKey`. -/
def dbKey (id : Identifier) (tag : PrefixTag) (key : Bytes) : Bytes :=
  if !tag.isAccountBasedKey then nonAccountPrefix ++ tag.byte :: key
  else id.bytes ++ tag.byte :: key

/-- `AccountKey`. -/
def accountKey (id : Identifier) (stateHash : Hash) : Bytes := dbKey id .account stateHash.bytes

/-- `ContextObjectKey`. -/
def contextObjectKey (id : Identifier) (contextHash : Hash) : Bytes :=
  dbKey id .context contextHash.bytes

/-- `DeedsKey`. -/
def deedsKey (id : Identifier) (registryHash : Hash) : Bytes := dbKey id .deeds registryHash.bytes

/-- `LogicManifestKey`. -/
def logicManifestKey (id : Identifier) (manifestHash : Hash) : Bytes :=
  dbKey id .logicManifest manifestHash.bytes

/-- `KeyObjectKey`. -/
def keyObjectKey (id : Identifier) (accountKeysHash : Hash) : Bytes :=
  dbKey id .accountKeys accountKeysHash.bytes

/-- `PreImageKey`. -/
def preImageKey (id : Identifier) (hash : Hash) : Bytes := dbKey id .preImage hash.bytes

/-- `InteractionsKey`. -/
def interactionsKey (tsHash : Hash) : Bytes := dbKey nilIdentifier .interaction tsHash.bytes

/-- `ReceiptsKey`. -/
def receiptsKey (tsHash : Hash) : Bytes := dbKey nilIdentifier .receipt tsHash.bytes

/-- `TesseractKey`. -/
def tesseractKey (tsHash : Hash) : Bytes := dbKey nilIdentifier .tesseract tsHash.bytes

/-- `TesseractCommitInfoKey`. -/
def tesseractCommitInfoKey (tsHash : Hash) : Bytes :=
  dbKey nilIdentifier .tesseractCommitInfo tsHash.bytes

/-- `tesseractHeightKey`: the height as eight bytes, the least significant one first. -/
def tesseractHeightKey (id : Identifier) (height : UInt64) : Bytes :=
  dbKey id .tesseractHeight (bigEndian 8 height.toNat).reverse

/-- `MaxBucketCount`. -/
def maxBucketCount : Nat := 1024

/-- `bucketPrefix`. -/
def bucketPrefix (bucket : Nat) : Bytes := dbKey nilIdentifier .bucket (bigEndian 8 bucket)

/-- `bucketCountKey`. -/
def bucketCountKey (count : Nat) : Bytes := dbKey nilIdentifier .bucketCount (bigEndian 8 count)

/-- The bucket of an account. -/
def bucketOf (id : Identifier) : Nat := ofBigEndian id.bytes % maxBucketCount

/-- `BucketKeyAndID`, the key: that of the meta information of an account. -/
def bucketKey (id : Identifier) : Bytes := bucketPrefix (bucketOf id) ++ id.bytes

/-! ## 4. What tells keys apart -/

section

variable {id : Identifier} {tag : PrefixTag} {key : Bytes}

theorem dbKey_account (h : tag.isAccountBasedKey = true) :
    dbKey id tag key = id.bytes ++ tag.byte :: key := by
  rw [dbKey, h]
  rfl

theorem dbKey_account_length (h : tag.isAccountBasedKey = true) :
    (dbKey id tag key).length = 33 + key.length := by
  rw [dbKey_account h, List.length_append, bytes_length, List.length_cons]
  omega

theorem dbKey_other_length (h : tag.isAccountBasedKey = false) :
    (dbKey id tag key).length = 8 + key.length := by
  have hlen : nonAccountPrefix.length = 7 := rfl
  simp [dbKey, h, hlen]
  omega

end

/-! The lengths of the keys in use. -/

/-- A record of an account under a hash. -/
theorem dbKey_hash_length {tag : PrefixTag} (h : tag.isAccountBasedKey = true) (id : Identifier)
    (hash : Hash) : (dbKey id tag hash.bytes).length = 65 := by
  rw [dbKey_account_length h, Hash.bytes_length]

/-- A record of a tesseract. -/
theorem dbKey_tesseract_length {tag : PrefixTag} (h : tag.isAccountBasedKey = false)
    (id : Identifier) (hash : Hash) : (dbKey id tag hash.bytes).length = 40 := by
  rw [dbKey_other_length h, Hash.bytes_length]

theorem tesseractKey_length : (tesseractKey tsHash).length = 40 :=
  dbKey_tesseract_length (by rfl) _ _

theorem interactionsKey_length : (interactionsKey tsHash).length = 40 :=
  dbKey_tesseract_length (by rfl) _ _

theorem receiptsKey_length : (receiptsKey tsHash).length = 40 :=
  dbKey_tesseract_length (by rfl) _ _

theorem tesseractCommitInfoKey_length : (tesseractCommitInfoKey tsHash).length = 40 :=
  dbKey_tesseract_length (by rfl) _ _

@[simp] theorem tesseractHeightKey_length (height : UInt64) :
    (tesseractHeightKey id height).length = 41 := by
  rw [tesseractHeightKey, dbKey_account_length rfl, List.length_reverse, bigEndian_length]

@[simp] theorem bucketCountKey_length (count : Nat) : (bucketCountKey count).length = 16 := by
  rw [bucketCountKey, dbKey_other_length rfl, bigEndian_length]

@[simp] theorem bucketKey_length : (bucketKey id).length = 48 := by
  rw [bucketKey, List.length_append, bucketPrefix, dbKey_other_length rfl, bigEndian_length,
    bytes_length]

theorem bucketKey_inj {id id' : Identifier} (h : bucketKey id = bucketKey id') : id = id' :=
  bytes_injective (List.append_inj_right' h (by simp))

/-! ## 5. All keys -/

/-- `IdentifierTag.Validate`, of the first byte: the kind is one of the three, and the version is
    0. -/
def Identifier.validTag (id : Identifier) : Bool :=
  id.bytes.head?.any fun tag : UInt8 => tag >>> 4 ≤ 2 && tag &&& 0x0F == 0

abbrev ValidIdentifier : Type := { id : Identifier // id.validTag = true }

namespace PrefixTag

/-- What the keys with a tag are made of. -/
def Args : PrefixTag → Type
  | account | context | deeds | logicManifest | accountKeys | preImage => ValidIdentifier × Hash
  | asset | logic | file | storage => ValidIdentifier × Bytes
  | tesseractHeight => ValidIdentifier × UInt64
  | interaction | receipt | tesseract | tesseractCommitInfo | consensusProposals => Hash
  | accountSyncJob | accountSyncStatus | consensusSafetyInfo | bucket => Identifier
  | bucketCount => UInt64
  | senatus => Bytes
  | senatusPeerCount | principalSyncStatus => Unit

/-- The key. -/
def key : (tag : PrefixTag) → tag.Args → Bytes
  | account, (id, hash) => accountKey id hash
  | context, (id, hash) => contextObjectKey id hash
  | deeds, (id, hash) => deedsKey id hash
  | logicManifest, (id, hash) => logicManifestKey id hash
  | accountKeys, (id, hash) => keyObjectKey id hash
  | preImage, (id, hash) => preImageKey id hash
  | asset, (id, key) => dbKey id asset key
  | logic, (id, key) => dbKey id logic key
  | file, (id, key) => dbKey id file key
  | storage, (id, key) => dbKey id storage key
  | tesseractHeight, (id, height) => tesseractHeightKey id height
  | interaction, tsHash => interactionsKey tsHash
  | receipt, tsHash => receiptsKey tsHash
  | tesseract, tsHash => tesseractKey tsHash
  | tesseractCommitInfo, tsHash => tesseractCommitInfoKey tsHash
  | bucket, id => bucketKey id
  | bucketCount, count => bucketCountKey (UInt64.toNat count)
  -- `ConsensusProposalKey`, `AccSyncStatusKey`, `AccountSafetyInfoKey`, `SenatusDBKey`, …
  | consensusProposals, tsHash => dbKey nilIdentifier consensusProposals (Hash.bytes tsHash)
  | accountSyncStatus, id => dbKey nilIdentifier accountSyncStatus (Identifier.bytes id)
  | consensusSafetyInfo, id => dbKey nilIdentifier consensusSafetyInfo (Identifier.bytes id)
  | accountSyncJob, id => dbKey nilIdentifier accountSyncJob (Identifier.bytes id)
  | senatus, peerID => dbKey nilIdentifier senatus peerID
  | senatusPeerCount, () => dbKey nilIdentifier senatusPeerCount []
  | principalSyncStatus, () => dbKey nilIdentifier principalSyncStatus []

/-- The account of an account-based entry. -/
def owner : (tag : PrefixTag) → tag.Args → Option ValidIdentifier
  | account, a | context, a | deeds, a | logicManifest, a | accountKeys, a | preImage, a
  | asset, a | logic, a | file, a | storage, a | tesseractHeight, a => some (Prod.fst a)
  | _, _ => none

/-- What stands before the tag. -/
def front (o : Option ValidIdentifier) : Bytes := o.elim nonAccountPrefix (·.1.bytes)

/-- No valid identifier begins with the first byte of `nonacc_`. -/
theorem front_some_ne (id : ValidIdentifier) (x y : Bytes) :
    front (some id) ++ x ≠ front none ++ y := by
  intro h
  have hhead : id.1.bytes.head? = some 0x6e := congrArg some (List.cons.inj h).1
  have hvalid := id.2
  rw [validTag, hhead] at hvalid
  exact absurd hvalid (by decide)

theorem front_inj {o p : Option ValidIdentifier} {x y : Bytes}
    (h : front o ++ x = front p ++ y) : o = p ∧ x = y := by
  rcases o with _ | id <;> rcases p with _ | id'
  · exact ⟨rfl, List.append_cancel_left h⟩
  · exact (front_some_ne _ _ _ h.symm).elim
  · exact (front_some_ne _ _ _ h).elim
  · obtain ⟨hid, hx⟩ := List.append_inj h (by simp [front])
    exact ⟨congrArg some (Subtype.ext (bytes_injective hid)), hx⟩

theorem key_eq (tag : PrefixTag) (a : tag.Args) :
    ∃ rest, tag.key a = front (tag.owner a) ++ tag.byte :: rest := by
  cases tag <;> exact ⟨_, rfl⟩

theorem key_inj {tag : PrefixTag} {a a' : tag.Args} (h : tag.key a = tag.key a') : a = a' := by
  have hword {n m : UInt64} (h : bigEndian 8 n.toNat = bigEndian 8 m.toNat) : n = m :=
    UInt64.toNat_inj.mp (bigEndian_injective n.toNat_lt m.toNat_lt h)
  cases tag
  case bucket => exact bucketKey_inj h
  case senatusPeerCount | principalSyncStatus => rfl
  all_goals
    obtain ⟨howner, htail⟩ := front_inj (o := owner _ a) (p := owner _ a') h
    have hrest := (List.cons.inj htail).2
  case tesseractHeight =>
    exact Prod.ext (Option.some.inj howner) (hword (List.reverse_inj.mp hrest))
  all_goals first
    | exact hrest
    | exact hword hrest
    | exact Hash.bytes_injective hrest
    | exact bytes_injective hrest
    | exact Prod.ext (Option.some.inj howner) hrest
    | exact Prod.ext (Option.some.inj howner) (Hash.bytes_injective hrest)

/-- **Keys.** Two keys that are equal have one tag and were made of the same; and an account's
    prefix is a prefix of the keys of its own entries alone. -/
theorem keys_apart : (Function.Injective fun r : Σ tag : PrefixTag, tag.Args => r.1.key r.2) ∧
    ∀ (id : ValidIdentifier) (tag : PrefixTag) (a : tag.Args),
      id.1.bytes <+: tag.key a ↔ tag.owner a = some id := by
  refine ⟨fun ⟨tag, a⟩ ⟨tag', a'⟩ h => ?_, fun id tag a => ?_⟩
  · obtain ⟨_, hrest⟩ := tag.key_eq a
    obtain ⟨_, hrest'⟩ := tag'.key_eq a'
    have htail := (front_inj (hrest.symm.trans (h.trans hrest'))).2
    obtain rfl := byte_injective (List.cons.inj htail).1
    exact congrArg _ (key_inj h)
  · obtain ⟨rest, hrest⟩ := tag.key_eq a
    rw [hrest]
    constructor
    · rintro ⟨t, h⟩
      exact (front_inj (o := some id) h).1.symm
    · intro h
      rw [h]
      exact List.prefix_append _ _

end PrefixTag
end GoMoi
