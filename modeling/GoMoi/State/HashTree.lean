/-
  File:      GoMoi/State/HashTree.lean
  Subject:   The hash tree of an account (`state/tree/krama_smt.go`) and its replay on another node
             (`syncTree` in `state/manager.go`).

  A hash tree is a sparse Merkle tree with a root node that holds the Merkle root and a table of the
  entries set since the tree was opened. The table is what travels: a node that has the tree at an
  old root sets the entries of the table in the order of its own map iteration, commits, and
  compares the hash of its root node with the one it was given. The table is emptied by the first
  `Set` on a tree that is not dirty, and an entry that is set again overwrites the old one.

  * `Smt` -- the tree package, the encoding and the hashes, and `Smt.Lawful`, what is assumed of
    them. That the Merkle root depends on the map of hashed keys alone is in the type of `rootOf`.
    Hashes are 256 bits, so no hash is injective: `NoCollision` speaks of the keys that are set;
  * `syncTree_reproduces` -- whatever was set and in whatever order the table is iterated, the
    replay succeeds and gives the same root hash.

  Reading the database and encoding a root node do not fail here: the nodes of an opened tree are
  there, and a root node is a hash and a map of byte strings.
-/
import GoMoi.Common.Types

namespace GoMoi

open AList List

/-! ## 1. Hexadecimal keys -/

def hexDigits : List Char :=
  ['0', '1', '2', '3', '4', '5', '6', '7', '8', '9', 'a', 'b', 'c', 'd', 'e', 'f']

def hexDigit (n : Nat) : Char := hexDigits.getD n '0'

/-- `hex.EncodeToString`. -/
def encodeToString : Bytes → List Char
  | [] => []
  | b :: bs => hexDigit (b.toNat / 16) :: hexDigit (b.toNat % 16) :: encodeToString bs

/-- `fromHexChar`: small and capital letters. -/
def fromHexChar (c : Char) : Option Nat :=
  if '0' ≤ c ∧ c ≤ '9' then some (c.toNat - '0'.toNat)
  else if 'a' ≤ c ∧ c ≤ 'f' then some (c.toNat - 'a'.toNat + 10)
  else if 'A' ≤ c ∧ c ≤ 'F' then some (c.toNat - 'A'.toNat + 10)
  else none

/-- `hex.DecodeString`. -/
def decodeString : List Char → Except Err Bytes
  | [] => .ok []
  | [_] => .error (.new "encoding/hex: odd length hex string")
  | a :: b :: rest =>
    match fromHexChar a, fromHexChar b with
    | some hi, some lo =>
      match decodeString rest with
      | .error e => .error e
      | .ok bs => .ok (UInt8.ofNat (hi * 16 + lo) :: bs)
    | _, _ => .error (.new "encoding/hex: invalid byte")

theorem fromHexChar_hexDigit : ∀ n : Fin 16, fromHexChar (hexDigit n) = some n.val := by decide

/-- **Decoding gives the key back.** -/
theorem decodeString_encode (bs : Bytes) : decodeString (encodeToString bs) = .ok bs := by
  induction bs with
  | nil => rfl
  | cons b bs ih =>
    have hlt : b.toNat < 256 := b.toNat_lt
    have hhi := fromHexChar_hexDigit ⟨b.toNat / 16, by omega⟩
    have hlo := fromHexChar_hexDigit ⟨b.toNat % 16, by omega⟩
    have hsum : b.toNat / 16 * 16 + b.toNat % 16 = b.toNat := Nat.div_add_mod' _ _
    simp [encodeToString, decodeString, hhi, hlo, ih, hsum]

theorem encodeToString_injective {bs bs' : Bytes} (h : encodeToString bs = encodeToString bs') :
    bs = bs' := by
  have hd := congrArg decodeString h
  rw [decodeString_encode, decodeString_encode] at hd
  exact Except.ok.inj hd

/-! ## 2. The tree -/

/-- `type RootNode struct`; the keys of the table are hexadecimal. -/
structure RootNode where
  merkleRoot : Hash
  hashTable : GoMap (List Char) Bytes

/-- The same root and the same table, in any order of its entries. -/
def RootNode.Same (r r' : RootNode) : Prop :=
  r.merkleRoot = r'.merkleRoot ∧ ∀ k, r.hashTable.lookup k = r'.hashTable.lookup k

/-- `Hash.Bytes`: big-endian. -/
def Hash.bytes (h : Hash) : Bytes :=
  (List.range 32).map fun i => UInt8.ofNat (h.bits.toNat / 256 ^ (31 - i))

/-- The package of sparse Merkle trees, the encoding and the hashes. `store` is what `Update` makes
    of the nodes that are not flushed yet. -/
structure Smt where
  rootOf : (Hash → Option Bytes) → Hash
  store : (Hash → Option Bytes) → Hash → Bytes → GoMap Bytes Bytes → GoMap Bytes Bytes
  hashKey : Bytes → Hash
  polorize : RootNode → Bytes
  getHash : Bytes → Hash

/-- What is assumed of the package and the encoding. -/
structure Smt.Lawful (S : Smt) : Prop where
  /-- `Update` stores the leaf, also when the value is the old one -/
  stored : ∀ contents key value dirty, (S.store contents key value dirty).keys ≠ []
  /-- the nil hash stands for the empty tree only -/
  rootOf_ne_nil : ∀ contents key value, contents key = some value → S.rootOf contents ≠ nilHash
  /-- a map is encoded in the order of its keys -/
  polorize_same : ∀ r r', RootNode.Same r r' → S.polorize r = S.polorize r'

/-- `RootNode.Hash`. -/
def RootNode.hash (S : Smt) (r : RootNode) : Hash := S.getHash (S.polorize r)

/-- Different keys of `K` have different hashes. -/
def NoCollision (S : Smt) (K : Bytes → Prop) : Prop :=
  ∀ k k', K k → K k' → S.hashKey k = S.hashKey k' → k = k'

/-- `type KramaHashTree struct`, with what the tree holds and the dirty nodes of its database. -/
structure KramaHashTree where
  root : RootNode
  contents : Hash → Option Bytes
  preImages : GoMap Hash Bytes
  dirty : GoMap Bytes Bytes

namespace KramaHashTree

/-- `IsDirty`. -/
def isDirty (t : KramaHashTree) : Bool := decide (0 < t.dirty.keys.length)

/-- The table that `Set` goes on with: a tree that is not dirty starts a new one. -/
def openTable (t : KramaHashTree) : GoMap (List Char) Bytes :=
  if t.isDirty = false ∧ 0 < t.root.hashTable.keys.length then ∅ else t.root.hashTable

variable (S : Smt)

/-- `RootHash`. -/
def rootHash (t : KramaHashTree) : Hash :=
  if t.root.merkleRoot = nilHash ∧ t.isDirty = false then nilHash else t.root.hash S

/-- `Set`. -/
def set (key value : Bytes) (t : KramaHashTree) : Option Err × KramaHashTree :=
  if key.length = 0 then (some (.sentinel .errInvalidKey), t)
  else if value.length = 0 then (some (.sentinel .errInvalidValue), t)
  else
    (none,
      { root := { t.root with hashTable := t.openTable.insert (encodeToString key) value }
        contents := fun h => if h = S.hashKey key then some value else t.contents h
        preImages := t.preImages.insert (S.hashKey key) key
        dirty := S.store t.contents (S.hashKey key) value t.dirty })

/-- `Commit`: the new root node is stored as well. -/
def commit (t : KramaHashTree) : KramaHashTree :=
  if t.isDirty then
    let root := { t.root with merkleRoot := S.rootOf t.contents }
    { t with root := root, dirty := t.dirty.insert (root.hash S).bytes (S.polorize root) }
  else t

/-- `Flush`: the nodes go to the database. -/
def flush (t : KramaHashTree) : KramaHashTree := if t.isDirty then { t with dirty := ∅ } else t

/-- `doesRootMatch`. -/
def doesRootMatch (root1 root2 : RootNode) : Bool := decide (root1.hash S = root2.hash S)

/-- The loop of `syncTree`. -/
def setEntries : List (Σ _ : List Char, Bytes) → KramaHashTree → Option Err × KramaHashTree
  | [], t => (none, t)
  | ⟨key, value⟩ :: rest, t =>
    match decodeString key with
    | .error e => (some e, t)
    | .ok rawKey =>
      match t.set S rawKey value with
      | (some e, t') => (some (.wrap e "failed to set entry"), t')
      | (none, t') => setEntries rest t'

/-- `syncTree`; the order of `newRoot.hashTable.entries` is that of the iteration. -/
def syncTree (newRoot : RootNode) (t : KramaHashTree) : Option Err × KramaHashTree :=
  if doesRootMatch S t.root newRoot then (none, t)
  else
    match setEntries S newRoot.hashTable.entries t with
    | (some e, t') => (some e, t')
    | (none, t') =>
      if doesRootMatch S (t'.commit S).root newRoot then (none, (t'.commit S).flush)
      else (some (.new "updated root doesn't match"), t'.commit S)

/-- `Set` calls one after the other, whether or not they are refused. -/
def setAll (entries : List (Bytes × Bytes)) (t : KramaHashTree) : KramaHashTree :=
  entries.foldl (fun t e => (t.set S e.1 e.2).2) t

/-! ## 3. One `Set` -/

variable {S : Smt}

theorem set_cases (key value : Bytes) (t : KramaHashTree) :
    ((key = [] ∨ value = []) ∧ (t.set S key value).2 = t) ∨
      (key ≠ [] ∧ value ≠ [] ∧ (t.set S key value).1 = none) := by
  by_cases hk : key = []
  · exact .inl ⟨.inl hk, by simp [set, hk]⟩
  · by_cases hv : value = []
    · exact .inl ⟨.inr hv, by simp [set, hk, hv]⟩
    · exact .inr ⟨hk, hv, by simp [set, hk, hv]⟩

section Valid

variable {key value : Bytes} (hk : key ≠ []) (hv : value ≠ [])
include hk hv

theorem set_contents (t : KramaHashTree) (h : Hash) :
    (t.set S key value).2.contents h = if h = S.hashKey key then some value else t.contents h := by
  simp [set, hk, hv]

theorem set_isDirty (hS : S.Lawful) (t : KramaHashTree) : (t.set S key value).2.isDirty = true := by
  have hne := hS.stored t.contents (S.hashKey key) value t.dirty
  simpa [set, hk, hv, isDirty] using length_pos_of_ne_nil hne

end Valid

theorem openTable_of_dirty {t : KramaHashTree} (h : t.isDirty = true) :
    t.openTable = t.root.hashTable := by
  simp [openTable, h]

/-- A tree that is not dirty starts with an empty table. -/
theorem openTable_of_clean {t : KramaHashTree} (h : t.isDirty = false) (k : List Char) :
    t.openTable.lookup k = none := by
  by_cases hlen : 0 < t.root.hashTable.keys.length
  · simp [openTable, h, hlen]
  have hkeys : t.root.hashTable.keys = [] := eq_nil_of_length_eq_zero (by omega)
  rw [openTable, if_neg (fun hc => hlen hc.2), lookup_eq_none]
  show k ∉ t.root.hashTable.keys
  simp [hkeys]

theorem set_openTable (hS : S.Lawful) {key value : Bytes} (hk : key ≠ []) (hv : value ≠ [])
    (t : KramaHashTree) :
    (t.set S key value).2.openTable = t.openTable.insert (encodeToString key) value := by
  rw [openTable_of_dirty (set_isDirty hk hv hS t)]
  simp [set, hk, hv]

/-! ## 4. The tree is the old one with the table over it -/

/-- The tree holds the entries of its table over `base`; all keys of the table are in `K`. -/
structure Tracks (S : Smt) (K : Bytes → Prop) (base : Hash → Option Bytes) (t : KramaHashTree) :
    Prop where
  laid : ∀ k, K k →
    t.contents (S.hashKey k) = (t.openTable.lookup (encodeToString k)).or (base (S.hashKey k))
  other : ∀ h, (∀ k, K k → h ≠ S.hashKey k) → t.contents h = base h
  entry : ∀ key value, t.openTable.lookup key = some value →
    value ≠ [] ∧ ∃ k, K k ∧ k ≠ [] ∧ key = encodeToString k
  filled : t.isDirty = true → ∃ key value, t.openTable.lookup key = some value

variable {K : Bytes → Prop} {base : Hash → Option Bytes} {t : KramaHashTree}

theorem Tracks.of_clean (h : t.isDirty = false) (hbase : t.contents = base) :
    Tracks S K base t := by
  refine ⟨fun k _ => ?_, fun k _ => by rw [hbase], fun key value hl => ?_, fun hd => ?_⟩
  · rw [openTable_of_clean h, hbase]
    rfl
  · rw [openTable_of_clean h] at hl
    cases hl
  · rw [h] at hd
    cases hd

/-- **A `Set` of a key in `K` keeps it**, refused or not. -/
theorem Tracks.set (ht : Tracks S K base t) (hS : S.Lawful) (hK : NoCollision S K) {key : Bytes}
    (hkey : K key) (value : Bytes) : Tracks S K base (t.set S key value).2 := by
  obtain ⟨_, hsame⟩ | ⟨hk, hv, _⟩ := set_cases (S := S) key value t
  · rw [hsame]
    exact ht
  have htable := set_openTable hS hk hv t
  have hcontents := set_contents (S := S) hk hv t
  refine ⟨fun k hk' => ?_, fun h hne => ?_, fun key' value' hl => ?_, fun _ => ?_⟩
  · rw [htable, hcontents]
    by_cases heq : k = key
    · subst heq
      rw [if_pos rfl, lookup_insert]
      rfl
    have hhash : S.hashKey k ≠ S.hashKey key := fun h => heq (hK k key hk' hkey h)
    have henc : encodeToString k ≠ encodeToString key :=
      fun h => heq (encodeToString_injective h)
    rw [if_neg hhash, lookup_insert_ne henc]
    exact ht.laid k hk'
  · rw [hcontents, if_neg (hne key hkey)]
    exact ht.other h hne
  · rw [htable] at hl
    obtain ⟨rfl, rfl⟩ | hold := GoMap.of_lookup_insert hl
    · exact ⟨hv, key, hkey, hk, rfl⟩
    · exact ht.entry key' value' hold
  · exact ⟨encodeToString key, value, by rw [htable, lookup_insert]⟩

/-- Trees over the same entries with the same table hold the same. -/
theorem Tracks.contents_eq {t' : KramaHashTree} (ht : Tracks S K base t)
    (ht' : Tracks S K base t') (h : ∀ k, t.openTable.lookup k = t'.openTable.lookup k) :
    t.contents = t'.contents := by
  funext x
  by_cases hx : ∃ k, K k ∧ x = S.hashKey k
  · obtain ⟨k, hk, rfl⟩ := hx
    rw [ht.laid k hk, ht'.laid k hk, h]
  · have hne : ∀ k, K k → x ≠ S.hashKey k := fun k hk heq => hx ⟨k, hk, heq⟩
    rw [ht.other x hne, ht'.other x hne]

/-- A dirty tree is not empty, so its root is not nil. -/
theorem Tracks.rootOf_ne_nil (ht : Tracks S K base t) (hS : S.Lawful) (hd : t.isDirty = true) :
    S.rootOf t.contents ≠ nilHash := by
  obtain ⟨key, value, hl⟩ := ht.filled hd
  obtain ⟨_, k, hk, _, rfl⟩ := ht.entry key value hl
  refine hS.rootOf_ne_nil t.contents (S.hashKey k) value ?_
  rw [ht.laid k hk, hl]
  rfl

/-! ## 5. Many `Set` calls -/

/-- What the calls of the first replica leave: induction over the calls, `Tracks.set` at each. -/
theorem Tracks.setAll (hS : S.Lawful) (hK : NoCollision S K) (entries : List (Bytes × Bytes))
    (hkeys : ∀ e ∈ entries, K e.1) (ht : Tracks S K base t) :
    Tracks S K base (setAll S entries t) := by
  induction entries generalizing t with
  | nil => exact ht
  | cons e rest ih =>
    have hstep := ht.set hS hK (hkeys e mem_cons_self) e.2
    exact ih (fun e' he' => hkeys e' (mem_cons_of_mem e he')) hstep

theorem setAll_dirty (hS : S.Lawful) (entries : List (Bytes × Bytes)) (h : t.isDirty = true) :
    (setAll S entries t).isDirty = true := by
  induction entries generalizing t with
  | nil => exact h
  | cons e rest ih =>
    refine ih ?_
    show (t.set S e.1 e.2).2.isDirty = true
    obtain ⟨_, hsame⟩ | ⟨hk, hv, _⟩ := set_cases (S := S) e.1 e.2 t
    · rw [hsame]
      exact h
    · exact set_isDirty hk hv hS t

/-- If the tree is not dirty afterwards, every call was refused. -/
theorem setAll_clean (hS : S.Lawful) (entries : List (Bytes × Bytes))
    (h : (setAll S entries t).isDirty = false) : setAll S entries t = t := by
  induction entries generalizing t with
  | nil => rfl
  | cons e rest ih =>
    have hrest : setAll S (e :: rest) t = setAll S rest (t.set S e.1 e.2).2 := rfl
    rw [hrest] at h ⊢
    obtain ⟨_, hsame⟩ | ⟨hk, hv, _⟩ := set_cases (S := S) e.1 e.2 t
    · rw [hsame] at h ⊢
      exact ih h
    · rw [setAll_dirty hS rest (set_isDirty hk hv hS t)] at h
      cases h

/-- What the loop of `syncTree` leaves: no entry is refused, and the table is that of the entries
    over the old one. -/
theorem setEntries_spec (hS : S.Lawful) (hK : NoCollision S K)
    (entries : List (Σ _ : List Char, Bytes)) (hnd : entries.NodupKeys)
    (hgood : ∀ e ∈ entries, e.2 ≠ [] ∧ ∃ k, K k ∧ k ≠ [] ∧ e.1 = encodeToString k)
    (ht : Tracks S K base t) :
    ∃ t', setEntries S entries t = (none, t') ∧ Tracks S K base t' ∧
      (∀ k, t'.openTable.lookup k = (entries.dlookup k).or (t.openTable.lookup k)) ∧
      (entries ≠ [] → t'.isDirty = true) := by
  induction entries generalizing t with
  | nil => exact ⟨t, rfl, ht, fun k => rfl, fun h => absurd rfl h⟩
  | cons e rest ih =>
    obtain ⟨key, value⟩ := e
    obtain ⟨hv, k0, hk0, hne, rfl⟩ : value ≠ [] ∧ ∃ k, K k ∧ k ≠ [] ∧ key = encodeToString k :=
      hgood ⟨key, value⟩ mem_cons_self
    obtain ⟨hnotin, hrest⟩ := nodupKeys_cons.mp hnd
    obtain ⟨t', heq, htracks, htable, hdirty⟩ := ih hrest
      (fun e' he' => hgood e' (mem_cons_of_mem _ he')) (ht.set hS hK hk0 value)
    refine ⟨t', ?_, htracks, fun k => ?_, fun _ => ?_⟩
    · rw [← heq]
      simp [setEntries, decodeString_encode, set, hne, hv]
    · rw [htable, set_openTable hS hne hv]
      by_cases hk : k = encodeToString k0
      · -- the key is not among the rest, so this value stays
        subst hk
        rw [dlookup_eq_none.mpr hnotin, lookup_insert, dlookup_cons_eq]
        rfl
      · rw [lookup_insert_ne hk, dlookup_cons_ne _ _ hk]
    · by_cases hnil : rest = []
      · subst hnil
        obtain rfl := (Prod.mk.inj heq).2
        exact set_isDirty hne hv hS t
      · exact hdirty hnil

/-! ## 6. The replay -/

theorem commit_of_clean (h : t.isDirty = false) : t.commit S = t := by
  simp [commit, h]

theorem commit_root (h : t.isDirty = true) :
    (t.commit S).root = ⟨S.rootOf t.contents, t.root.hashTable⟩ := by
  simp [commit, h]

theorem flush_root : t.flush.root = t.root := by
  unfold flush
  split <;> rfl

theorem rootHash_of_ne_nil (h : t.root.merkleRoot ≠ nilHash) : t.rootHash S = t.root.hash S := by
  simp [rootHash, h]

theorem hash_same (hS : S.Lawful) {r r' : RootNode} (h : r.Same r') : r.hash S = r'.hash S :=
  congrArg S.getHash (hS.polorize_same r r' h)

/-- Two trees opened at one root: neither is dirty, and they hold the same. -/
structure OpenedAlike (t₁ t₂ : KramaHashTree) : Prop where
  clean₁ : t₁.isDirty = false
  clean₂ : t₂.isDirty = false
  root : t₁.root.Same t₂.root
  contents : t₁.contents = t₂.contents

theorem syncTree_of_match {newRoot : RootNode} (h : t.root.hash S = newRoot.hash S) :
    syncTree S newRoot t = (none, t) := by
  simp [syncTree, doesRootMatch, h]

/-- Replaying the table of a dirty tree gives its root node, in whatever order. -/
theorem replay_root (hS : S.Lawful) (hK : NoCollision S K) {t1 t2 : KramaHashTree}
    (ht1 : Tracks S K base t1) (hd : t1.isDirty = true) (ht2 : Tracks S K base t2)
    (hclean : t2.isDirty = false) (newRoot : RootNode)
    (hnew : ∀ k, newRoot.hashTable.lookup k = t1.root.hashTable.lookup k) :
    ∃ t', setEntries S newRoot.hashTable.entries t2 = (none, t') ∧
      (t'.commit S).root.Same (t1.commit S).root := by
  have hopen : ∀ k, newRoot.hashTable.lookup k = t1.openTable.lookup k := fun k => by
    rw [openTable_of_dirty hd, hnew]
  have hgood : ∀ e ∈ newRoot.hashTable.entries,
      e.2 ≠ [] ∧ ∃ k, K k ∧ k ≠ [] ∧ e.1 = encodeToString k := fun e he =>
    ht1.entry e.1 e.2 ((hopen e.1).symm.trans (mem_lookup_iff.mpr he))
  obtain ⟨t', hset, htracks, htable, hdirty⟩ :=
    setEntries_spec hS hK _ newRoot.hashTable.nodupKeys hgood ht2
  have hne : newRoot.hashTable.entries ≠ [] := fun hnil => by
    obtain ⟨key, value, hl⟩ := ht1.filled hd
    have hmem := mem_lookup_iff.mp ((hopen key).trans hl)
    rw [hnil] at hmem
    cases hmem
  have hd' := hdirty hne
  have hsame : ∀ k, t'.openTable.lookup k = t1.openTable.lookup k := fun k => by
    rw [htable, openTable_of_clean hclean, Option.or_none]
    exact hopen k
  refine ⟨t', hset, ?_⟩
  rw [commit_root hd', commit_root hd, htracks.contents_eq ht1 hsame]
  refine ⟨rfl, fun k => ?_⟩
  have := hsame k
  rwa [openTable_of_dirty hd', openTable_of_dirty hd] at this

/-- **The replay reproduces the root.** For trees opened at one root, any `Set` calls and a `Commit`
    on the first, and any order of the entries of the root node that results: `syncTree` on the
    second succeeds and leaves the root hash of the first. -/
theorem syncTree_reproduces (hS : S.Lawful) {t₁ t₂ : KramaHashTree} (halike : OpenedAlike t₁ t₂)
    (entries : List (Bytes × Bytes)) (hK : NoCollision S fun k => ∃ e ∈ entries, e.1 = k)
    (newRoot : RootNode) (hnew : newRoot.Same ((setAll S entries t₁).commit S).root)
    (hnode : t₂.root.hash S = newRoot.hash S → t₂.root.Same newRoot) :
    (syncTree S newRoot t₂).1 = none ∧
      (syncTree S newRoot t₂).2.rootHash S = ((setAll S entries t₁).commit S).rootHash S := by
  have hhash := hash_same hS hnew
  rcases hd : (setAll S entries t₁).isDirty with _ | _
  · -- every call was refused: the second tree is at the new root already
    rw [commit_of_clean hd, setAll_clean hS entries hd] at hnew hhash ⊢
    have hroots := hash_same hS halike.root
    rw [syncTree_of_match (hroots.symm.trans hhash.symm)]
    refine ⟨rfl, ?_⟩
    simp [rootHash, halike.clean₁, halike.clean₂, halike.root.1, hroots]
  have ht1 : Tracks S _ t₁.contents (setAll S entries t₁) :=
    .setAll hS hK entries (fun e he => ⟨e, he, rfl⟩) (.of_clean halike.clean₁ rfl)
  have hnil : ((setAll S entries t₁).commit S).root.merkleRoot ≠ nilHash := by
    rw [commit_root hd]
    exact ht1.rootOf_ne_nil hS hd
  by_cases hmatch : t₂.root.hash S = newRoot.hash S
  · rw [syncTree_of_match hmatch, rootHash_of_ne_nil hnil, rootHash_of_ne_nil, hmatch, hhash]
    · exact ⟨rfl, rfl⟩
    · rw [(hnode hmatch).1, hnew.1]
      exact hnil
  obtain ⟨t', hset, hsame⟩ := replay_root hS hK ht1 hd
    (.of_clean halike.clean₂ halike.contents.symm) halike.clean₂ newRoot
    (fun k => by rw [hnew.2 k, commit_root hd])
  have hroot := hash_same hS hsame
  have hsync : syncTree S newRoot t₂ = (none, (t'.commit S).flush) := by
    simp [syncTree, doesRootMatch, hmatch, hset, hroot.trans hhash.symm]
  rw [hsync]
  refine ⟨rfl, ?_⟩
  rw [rootHash_of_ne_nil hnil, rootHash_of_ne_nil, flush_root, hroot]
  rw [flush_root, hsame.1]
  exact hnil

end KramaHashTree

namespace HashTreeSample

open KramaHashTree

/-- A small package: keys are read as numbers, and the root shows the value at key 7. -/
def smt : Smt where
  rootOf contents := ⟨BitVec.ofNat 256 (1 + (((contents ⟨7⟩).getD []).headD 0).toNat)⟩
  store _ key value dirty := dirty.insert key.bytes value
  hashKey key := ⟨BitVec.ofNat 256 (key.foldl (fun n b => n * 256 + b.toNat) 0)⟩
  polorize r := r.merkleRoot.bytes ++ (r.hashTable.lookup (encodeToString [8])).getD []
  getHash bytes := ⟨BitVec.ofNat 256 (bytes.foldl (fun n b => n * 256 + b.toNat) 1)⟩

theorem smt_lawful : smt.Lawful where
  stored contents key value dirty := ne_nil_of_mem
    (mem_keys.mp ((mem_insert dirty).mpr (.inl rfl)) : key.bytes ∈ _)
  rootOf_ne_nil contents key value _ h := by
    have hlt := (((contents ⟨7⟩).getD []).headD 0).toNat_lt
    have hnat := congrArg (fun x : Hash => x.bits.toNat) h
    have hzero : (0 : BitVec 256).toNat = 0 := rfl
    simp only [smt, nilHash, BitVec.toNat_ofNat, hzero] at hnat
    omega
  polorize_same r r' h := by
    show r.merkleRoot.bytes ++ _ = r'.merkleRoot.bytes ++ _
    rw [h.1, h.2]

/-- A tree opened at a root whose table still holds the entries of its last change. -/
def start : KramaHashTree where
  root := ⟨⟨1⟩, (∅ : GoMap (List Char) Bytes).insert (encodeToString [9]) [1]⟩
  contents h := if h = ⟨9⟩ then some [1] else none
  preImages := ∅
  dirty := ∅

/-- Key 7 twice, and one call that is refused. -/
def calls : List (Bytes × Bytes) := [([7], [5]), ([], [1]), ([8], [2]), ([7], [6])]

/-- The root node that results, with its table in the other order. -/
def received : RootNode where
  merkleRoot := ⟨7⟩
  hashTable := ((∅ : GoMap (List Char) Bytes).insert (encodeToString [7]) [6]).insert
    (encodeToString [8]) [2]

theorem calls_noCollision : NoCollision smt fun k => ∃ e ∈ calls, e.1 = k := by
  have hall : ∀ e ∈ calls, ∀ e' ∈ calls, smt.hashKey e.1 = smt.hashKey e'.1 → e.1 = e'.1 := by
    decide
  intro k k' hk hk' h
  obtain ⟨e, he, rfl⟩ := hk
  obtain ⟨e', he', rfl⟩ := hk'
  exact hall e he e' he' h

theorem received_reproduces :
    start.root.hash smt ≠ received.hash smt ∧ (syncTree smt received start).1 = none ∧
      (syncTree smt received start).2.rootHash smt =
        ((setAll smt calls start).commit smt).rootHash smt := by
  have hne : start.root.hash smt ≠ received.hash smt := by decide
  exact ⟨hne, syncTree_reproduces smt_lawful
    ⟨by decide, by decide, ⟨rfl, fun _ => rfl⟩, rfl⟩ calls calls_noCollision received
    ⟨by decide, fun _ => perm_lookup (by decide)⟩ fun h => absurd h hne⟩

end HashTreeSample

end GoMoi
