/-
  File:      GoMoi/State/TreeCopy.lean
  Subject:   `KramaHashTree.Copy` (`state/tree/krama_smt.go`): does the copy stand in for the tree?

  `Copy` takes over the root node, the table, the pre-images and the dirty nodes, and opens a new
  sparse Merkle tree at `root.MerkleRoot`. That root is set by `Commit` only, so what was set or
  deleted since is in the table of the copy and in its dirty nodes, but not in its tree.

  * `OpenTree` -- a tree with the map stored under its Merkle root, which is what a tree opened at
    that root holds; `OpenTree.copy`, `OpenTree.call`;
  * `both` -- calls on two trees in any interleaving. `Copy` makes every map anew, and the database
    that the two share holds nodes under their hashes;
  * `standsIn_iff` -- after any calls on a new tree the copy answers as the tree would iff
    the tree holds what is stored under its Merkle root.
-/
import GoMoi.State.HashTree

namespace GoMoi

open KramaHashTree

/-! ## 1. Reading and deleting -/

/-- The package with `Delete`, and what that makes of the nodes that are not flushed yet. -/
structure DeletingSmt extends Smt where
  remove : (Hash → Option Bytes) → Hash → GoMap Bytes Bytes → GoMap Bytes Bytes

namespace KramaHashTree

/-- `Get`. -/
def get (S : Smt) (key : Bytes) (t : KramaHashTree) : Except Err Bytes :=
  let value := (t.contents (S.hashKey key)).getD []
  if value.length = 0 then .error (.sentinel .errKeyNotFound) else .ok value

/-- `Delete`. -/
def delete (S : DeletingSmt) (key : Bytes) (t : KramaHashTree) : KramaHashTree where
  root := { t.root with hashTable := t.root.hashTable.erase (encodeToString key) }
  contents := fun h => if h = S.hashKey key then none else t.contents h
  preImages := t.preImages.erase (S.hashKey key)
  dirty := S.remove t.contents (S.hashKey key) t.dirty

/-- An empty value is read as a missing one, any other value as itself. -/
theorem get_inj {S : Smt} {key : Bytes} {t t' : KramaHashTree}
    (ht : ∀ h, t.contents h ≠ some []) (ht' : ∀ h, t'.contents h ≠ some [])
    (hget : t.get S key = t'.get S key) :
    t.contents (S.hashKey key) = t'.contents (S.hashKey key) := by
  have hne := ht (S.hashKey key)
  have hne' := ht' (S.hashKey key)
  unfold get at hget
  cases hc : t.contents (S.hashKey key) <;> cases hc' : t'.contents (S.hashKey key) <;>
    simp_all

end KramaHashTree

/-! ## 2. A tree and its copy -/

/-- A tree, and the map that is stored under its Merkle root. -/
structure OpenTree extends KramaHashTree where
  stored : Hash → Option Bytes

/-- What is asked of a tree. -/
inductive TreeCall where
  | get (key : Bytes)
  | set (key value : Bytes)
  | delete (key : Bytes)
  | commit
  | flush
  | rootHash

/-- What it answers. -/
inductive TreeAnswer where
  | value (r : Except Err Bytes)
  | status (err : Option Err)
  | hash (h : Hash)

namespace OpenTree

/-- `Copy`: the tree is opened at the Merkle root. -/
def copy (t : OpenTree) : OpenTree := { t with contents := t.stored }

variable (S : DeletingSmt)

def call (t : OpenTree) : TreeCall → TreeAnswer × OpenTree
  | .get key => (.value (t.get S.toSmt key), t)
  | .set key value => (.status (t.toKramaHashTree.set S.toSmt key value).1,
      ⟨(t.toKramaHashTree.set S.toSmt key value).2, t.stored⟩)
  | .delete key => (.status none, ⟨t.toKramaHashTree.delete S key, t.stored⟩)
  | .commit => (.status none,
      ⟨t.toKramaHashTree.commit S.toSmt, if t.isDirty then t.contents else t.stored⟩)
  | .flush => (.status none, ⟨t.toKramaHashTree.flush, t.stored⟩)
  | .rootHash => (.hash (t.rootHash S.toSmt), t)

/-- The tree after some calls. -/
def after (cs : List TreeCall) (t : OpenTree) : OpenTree := cs.foldl (fun t c => (t.call S c).2) t

/-- The answers of one tree. -/
def answers : List TreeCall → OpenTree → List TreeAnswer
  | [], _ => []
  | c :: cs, t => (t.call S c).1 :: answers cs (t.call S c).2

/-- The answers of two trees whose calls are interleaved. -/
def both : List (TreeCall ⊕ TreeCall) → OpenTree → OpenTree → List (TreeAnswer ⊕ TreeAnswer)
  | [], _, _ => []
  | .inl c :: cs, t, u => .inl (t.call S c).1 :: both cs (t.call S c).2 u
  | .inr c :: cs, t, u => .inr (u.call S c).1 :: both cs t (u.call S c).2

/-- **The copy stands in for the tree**: in every interleaving each of the two answers as the tree
    alone would. -/
def StandsIn (t : OpenTree) : Prop :=
  ∀ cs, (both S cs t t.copy).filterMap Sum.getLeft? = answers S (cs.filterMap Sum.getLeft?) t ∧
    (both S cs t t.copy).filterMap Sum.getRight? = answers S (cs.filterMap Sum.getRight?) t

variable {S}

/-- Calls on the one do not reach the other. -/
theorem both_apart (cs : List (TreeCall ⊕ TreeCall)) (t u : OpenTree) :
    (both S cs t u).filterMap Sum.getLeft? = answers S (cs.filterMap Sum.getLeft?) t ∧
      (both S cs t u).filterMap Sum.getRight? = answers S (cs.filterMap Sum.getRight?) u := by
  induction cs generalizing t u with
  | nil => exact ⟨rfl, rfl⟩
  | cons c cs ih =>
    rcases c with c | c
    · obtain ⟨hl, hr⟩ := ih (t.call S c).2 u
      exact ⟨congrArg ((t.call S c).1 :: ·) hl, hr⟩
    obtain ⟨hl, hr⟩ := ih t (u.call S c).2
    exact ⟨hl, congrArg ((u.call S c).1 :: ·) hr⟩

/-! ## 3. What calls can change -/

/-- No value is empty, and what the tree holds differs from what is stored at hashes of keys
    only. -/
structure Known (S : DeletingSmt) (t : OpenTree) : Prop where
  contents : ∀ h, t.contents h ≠ some []
  stored : ∀ h, t.stored h ≠ some []
  keys : ∀ h, t.contents h = t.stored h ∨ ∃ key, h = S.hashKey key

variable {t : OpenTree}

/-- A write of a value that is not empty, or of none, at a key. -/
theorem Known.write (ht : t.Known S) (u : KramaHashTree) (key : Bytes) (v : Option Bytes)
    (hv : v ≠ some []) (hu : ∀ h, u.contents h = if h = S.hashKey key then v else t.contents h) :
    Known S ⟨u, t.stored⟩ := by
  refine ⟨fun h => ?_, ht.stored, fun h => ?_⟩
  · rw [hu]
    by_cases heq : h = S.hashKey key
    · rwa [if_pos heq]
    · rw [if_neg heq]
      exact ht.contents h
  · by_cases heq : h = S.hashKey key
    · exact .inr ⟨key, heq⟩
    · rw [hu, if_neg heq]
      exact ht.keys h

/-- **One call.** -/
theorem Known.call (ht : t.Known S) (c : TreeCall) : (t.call S c).2.Known S := by
  cases c with
  | get key => exact ht
  | rootHash => exact ht
  | set key value =>
    obtain ⟨-, hsame⟩ | ⟨hk, hv, -⟩ := set_cases (S := S.toSmt) key value t.1
    · have hcall : (t.call S (.set key value)).2 = t := congrArg (OpenTree.mk · t.stored) hsame
      rwa [hcall]
    · exact ht.write _ key (some value) (fun h => hv (Option.some.inj h))
        (set_contents hk hv t.1)
  | delete key => exact ht.write _ key none nofun fun _ => rfl
  | commit =>
    have hcontents : (t.toKramaHashTree.commit S.toSmt).contents = t.contents := by
      unfold commit
      split <;> rfl
    show Known S ⟨_, if t.isDirty then t.contents else t.stored⟩
    cases hd : t.isDirty with
    | false => exact ⟨hcontents ▸ ht.contents, ht.stored, hcontents ▸ ht.keys⟩
    | true => exact ⟨hcontents ▸ ht.contents, ht.contents, fun h => .inl (congrFun hcontents h)⟩
  | flush =>
    have hcontents : t.toKramaHashTree.flush.contents = t.contents := by
      unfold flush
      split <;> rfl
    exact ⟨hcontents ▸ ht.contents, ht.stored, hcontents ▸ ht.keys⟩

theorem Known.after (ht : t.Known S) (cs : List TreeCall) : (t.after S cs).Known S := by
  induction cs generalizing t with
  | nil => exact ht
  | cons c cs ih => exact ih (ht.call c)

end OpenTree

/-! ## 4. The copy -/

/-- What `NewKramaHashTree` opens: a root node, and the map under its root, without empty values. -/
structure TreeAtRoot where
  root : RootNode
  stored : Hash → Option Bytes
  filled : ∀ h, stored h ≠ some []

/-- `NewKramaHashTree`. -/
def newKramaHashTree (r : TreeAtRoot) : OpenTree where
  root := r.root
  contents := r.stored
  preImages := ∅
  dirty := ∅
  stored := r.stored

namespace OpenTree

/-- **When the copy stands in**: for every tree that is reached, the copy answers as the tree would
    and neither disturbs the other iff nothing was set or deleted since the last `Commit`. -/
theorem standsIn_iff (S : DeletingSmt) (r : TreeAtRoot) (cs : List TreeCall) :
    StandsIn S ((newKramaHashTree r).after S cs) ↔
      ((newKramaHashTree r).after S cs).contents = ((newKramaHashTree r).after S cs).stored := by
  have hknown : ((newKramaHashTree r).after S cs).Known S :=
    .after ⟨r.filled, r.filled, fun _ => .inl rfl⟩ cs
  generalize (newKramaHashTree r).after S cs = t at hknown
  constructor
  · intro hstands
    funext h
    obtain heq | ⟨key, rfl⟩ := hknown.keys h
    · exact heq
    -- the copy is asked for the key
    have hget := (hstands [.inr (.get key)]).2
    have hsame : t.get S.toSmt key = t.copy.get S.toSmt key :=
      (TreeAnswer.value.inj (List.cons.inj hget).1).symm
    exact get_inj hknown.contents hknown.stored hsame
  · intro heq
    have hcopy : t.copy = t := congrArg (fun c => { t with contents := c }) heq.symm
    intro later
    rw [hcopy]
    exact both_apart later t t

end OpenTree

namespace HashTreeSample

/-- The small package; a deletion leaves the nodes of the other keys. -/
def deletingSmt : DeletingSmt := { smt with remove := fun _ key dirty => dirty.erase key.bytes }

/-- The tree that holds one entry, as it is opened. -/
def atRoot : TreeAtRoot where
  root := start.root
  stored := start.contents
  filled h := by
    show (if h = ⟨9⟩ then some [1] else none) ≠ some []
    split <;> simp

/-- A key is set, the tree is copied, and the copy does not know the key. -/
theorem copy_misses_set :
    ¬ OpenTree.StandsIn deletingSmt ((newKramaHashTree atRoot).after deletingSmt
      [.set [7] [5]]) := by
  intro h
  have hget := (h [.inr (.get [7])]).2
  exact absurd (List.cons.inj hget).1 (by simp [OpenTree.call, OpenTree.copy, OpenTree.after,
    KramaHashTree.get, KramaHashTree.set, newKramaHashTree, atRoot, start, deletingSmt, smt])

end HashTreeSample

end GoMoi
