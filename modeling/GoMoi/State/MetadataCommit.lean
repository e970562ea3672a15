/-
  File:      GoMoi/State/MetadataCommit.lean
  Subject:   Asset and token metadata over a commit (`state/asset.go`, `commitAssets` in
             `state/object.go`).

  Asset metadata are in the properties of the asset object, in exported fields. Token metadata are
  in fields that are not exported, so the encoding drops them: what is loaded has the tokens, each
  with two nil maps.

  * `AssetOf.exported` -- what is read back of an asset object; `commitAssets`;
  * `restores_iff` -- after any calls of the two setters on any object whose pointers lead
    somewhere, commit and reload give the old answers iff the asset tree cannot be opened or no
    pending asset object has a token metadata entry.
-/
import GoMoi.State.Snapshot

namespace GoMoi

/-! ## 1. Reading and committing -/

def MetaData.entry (m : MetaData) (isStatic : Bool) (key : Bytes) : Option Bytes :=
  (if isStatic then m.static else m.dynamic).bind (·.lookup key)

namespace AssetOf

/-- The exported fields, as they are restored. -/
def exported (d : AssetData) : AssetData :=
  { d with tokenMetaData := d.tokenMetaData.filterMap fun _ _ => some ⟨none, none⟩ }

end AssetOf

/-- What is answered from the asset object that was fetched. -/
def assetAnswer (isStatic : Bool) (key : Bytes) : Except Err AssetData → Go (Except Err Bytes)
  | .error _ => .ok (.error (.sentinel .errAssetNotFound))
  | .ok d => do
    let properties ← Go.deref d.properties
    let entries := if isStatic then properties.staticMetaData else properties.dynamicMetaData
    pure ((entries.lookup key).elim (.error (.sentinel .errKeyNotFound)) .ok)

def tokenAnswer (tokenID : TokenID) (isStatic : Bool) (key : Bytes) :
    Except Err AssetData → Go (Except Err Bytes)
  | .error _ => .ok (.error (.sentinel .errAssetNotFound))
  | .ok d => .ok (match d.tokenMetaData.lookup tokenID with
    | none => .error (.sentinel .errTokenNotFound)
    | some m => (m.entry isStatic key).elim (.error (.sentinel .errKeyNotFound)) .ok)

namespace Object

variable (B : Backend)

/-- `GetAssetMetadata`. -/
def getAssetMetadata (assetID : AssetID) (isStatic : Bool) (key : Bytes) :
    Method (Except Err Bytes) := do
  Proc.ofGo (assetAnswer isStatic key (← fetchAsset B assetID true))

/-- `GetTokenMetadata`. -/
def getTokenMetadata (assetID : AssetID) (tokenID : TokenID) (isStatic : Bool) (key : Bytes) :
    Method (Except Err Bytes) := do
  Proc.ofGo (tokenAnswer tokenID isStatic key (← fetchAsset B assetID true))

/-- `commitAssets`, with the root that results: the database and the account afterwards. -/
def commitAssets (root : Hash) (s : Receiver) : Except Err (Backend × Account) :=
  let object := s.object
  match object.assetTreeTxn with
  | none => .ok (B, object.data)
  | some txn => match B.assetTree object.id object.data.assetRoot with
    | .error e => .error (.wrap e "failed to initiate asset tree")
    | .ok tree =>
      let tree' := fun assetID => match (txn.lookup assetID).bind s.heap.viewAsset with
        | some d => .ok d.exported
        | none => tree assetID
      .ok ({ B with assetTree := fun id h =>
          if id = object.id ∧ h = root then .ok tree' else B.assetTree id h },
        { object.data with assetRoot := root })

/-- A commit that succeeds, and an object loaded from it, leave every answer as it was. -/
def Restores (root : Hash) (s : Receiver) : Prop :=
  ∀ B' account, commitAssets B root s = .ok (B', account) →
    let s' : Receiver := ⟨newStateObject s.object.id account s.object.isGenesis, s.heap⟩
    ∀ assetID isStatic key,
      (getAssetMetadata B' assetID isStatic key s').1 =
        (getAssetMetadata B assetID isStatic key s).1 ∧
      ∀ tokenID, (getTokenMetadata B' assetID tokenID isStatic key s').1 =
        (getTokenMetadata B assetID tokenID isStatic key s).1

/-- The asset tree that a commit writes to can be opened. -/
def TreeOpens (s : Receiver) : Prop :=
  (B.assetTree s.object.id s.object.data.assetRoot).isOk = true

/-- No pending asset object has an entry in the metadata of a token. -/
def NoTokenEntry (s : Receiver) : Prop :=
  ∀ assetID p d tokenID m isStatic key, s.object.pendingAsset assetID = some p →
    s.heap.viewAsset p = some d → d.tokenMetaData.lookup tokenID = some m →
      m.entry isStatic key = none

/-- The two setters. -/
inductive MetadataCall where
  | asset (assetID : AssetID) (isStatic : Bool) (key value : Bytes)
  | token (assetID : AssetID) (tokenID : TokenID) (isStatic : Bool) (key value : Bytes)

def MetadataCall.op : MetadataCall → ObjectOp
  | .asset assetID isStatic key value => .setAssetMetadata assetID isStatic key value
  | .token assetID tokenID isStatic key value =>
    .setTokenMetadata assetID tokenID isStatic key value

/-- An account after some calls; one that panics leaves what it has done. -/
def afterCalls (s : Receiver) (cs : List MetadataCall) : Receiver :=
  cs.foldl (fun s c => (run B c.op s).2) s

/-! ## 2. Answers -/

variable {B} {B' : Backend} {s : Receiver} {root : Hash} {account : Account}

/-- An answer is made from what is fetched. -/
theorem answer_eq {A C : Type} (x : Method A) (g : A → Go C) :
    ((do Proc.ofGo (g (← x))) : Method C) s = ((x s).1.bind g, (x s).2) := by
  simp only [bind, Proc.ofGo]
  cases x s with
  | mk r s' => cases r <;> rfl

/-- What is fetched after the commit. -/
theorem fetchAsset_reloaded (hc : commitAssets B root s = .ok (B', account)) (assetID : AssetID) :
    (fetchAsset B' assetID true
      ⟨newStateObject s.object.id account s.object.isGenesis, s.heap⟩).1 =
      match (s.object.pendingAsset assetID).bind s.heap.viewAsset with
      | some d => .ok (.ok d.exported)
      | none => .ok (committedAsset B s.object assetID) := by
  rw [fetchAsset_eq]
  simp only [commitAssets] at hc
  rcases htxn : s.object.assetTreeTxn with _ | txn
  · rw [htxn] at hc
    cases hc
    simp [pendingAsset, htxn, committedAsset, newStateObject]
  rw [htxn] at hc
  rcases htree : B.assetTree s.object.id s.object.data.assetRoot with e | _
  · rw [htree] at hc
    cases hc
  rw [htree] at hc
  cases hc
  simp only [committedAsset, newStateObject, and_self, if_true, pendingAsset, htxn, htree,
    Option.bind_some]
  cases (txn.lookup assetID).bind s.heap.viewAsset <;> rfl

/-- **All that is lost**: the entries of tokens. -/
theorem tokenAnswer_exported (d : AssetData) (tokenID : TokenID) (isStatic : Bool) (key : Bytes) :
    tokenAnswer tokenID isStatic key (.ok d.exported) = tokenAnswer tokenID isStatic key (.ok d) ↔
      ∀ m, d.tokenMetaData.lookup tokenID = some m → m.entry isStatic key = none := by
  unfold tokenAnswer AssetOf.exported
  simp only [GoMap.lookup_filterMap]
  rcases d.tokenMetaData.lookup tokenID with _ | m
  · simp
  have hnil : (⟨none, none⟩ : MetaData).entry isStatic key = none := by cases isStatic <;> rfl
  cases hm : m.entry isStatic key <;> simp [hnil, hm]

/-- A commit with something to write succeeds where the tree opens. -/
theorem commitAssets_ok_iff {assetID : AssetID} {p : Ptr AssetObject}
    (hp : s.object.pendingAsset assetID = some p) (root : Hash) :
    (∃ c, commitAssets B root s = .ok c) ↔ TreeOpens B s := by
  obtain ⟨txn, htxn, -⟩ := Option.bind_eq_some_iff.mp hp
  simp only [commitAssets, htxn, TreeOpens]
  cases B.assetTree s.object.id s.object.data.assetRoot <;> simp [Except.isOk, Except.toBool]

/-- **One commit** of an object whose pointers lead somewhere. -/
theorem restores_of_in (hin : s.object.In s.heap) :
    Restores B root s ↔ (TreeOpens B s → NoTokenEntry s) := by
  have hview : ∀ assetID p, s.object.pendingAsset assetID = some p →
      ∃ d, s.heap.viewAsset p = some d := by
    intro assetID p hp
    obtain ⟨_, hao⟩ := Cells.has_iff_read.mp (hin assetID p hp)
    exact ⟨_, congrArg (Option.map _) hao⟩
  constructor
  · intro h hopens assetID p d tokenID m isStatic key hp hd hm
    obtain ⟨c, hc⟩ := (commitAssets_ok_iff hp root).mpr hopens
    have hanswer := (h c.1 c.2 hc assetID isStatic key).2 tokenID
    simp only [getTokenMetadata, answer_eq, fetchAsset_reloaded hc, fetchAsset_eq, hp, hd, if_true,
      Option.bind_some] at hanswer
    exact (tokenAnswer_exported d tokenID isStatic key).mp hanswer m hm
  · intro h B' account hc s' assetID isStatic key
    simp only [s', getAssetMetadata, getTokenMetadata, answer_eq, fetchAsset_reloaded hc]
    rw [fetchAsset_eq, if_pos rfl]
    rcases hp : s.object.pendingAsset assetID with _ | p
    · exact ⟨rfl, fun _ => rfl⟩
    obtain ⟨d, hd⟩ := hview assetID p hp
    have hno := h ((commitAssets_ok_iff hp root).mp ⟨_, hc⟩)
    simp only [Option.bind_some, hd]
    exact ⟨rfl, fun tokenID => (tokenAnswer_exported d tokenID isStatic key).mpr
      fun m hm => hno assetID p d tokenID m isStatic key hp hd hm⟩

/-- The calls keep every pointer leading somewhere. -/
theorem afterCalls_in (cs : List MetadataCall) (hs : s.Good .empty .empty) :
    (afterCalls B s cs).object.In (afterCalls B s cs).heap := by
  induction cs generalizing s with
  | nil => exact hs.object
  | cons c cs ih =>
    refine ih (Proc.wp_state.mp (run_good hs (fun assetID _ => hs.object.free_empty assetID) ?_))
    cases c <;> exact fun _ h => nomatch h

/-- **Metadata over a commit.** For every object whose pointers lead somewhere and every sequence of
    the two setters, commit and reload leave all answers as they were iff the asset tree cannot be
    opened or no pending asset object has a token metadata entry. -/
theorem restores_iff (B : Backend) {s : Receiver} (hclosed : s.heap.Closed)
    (hin : s.object.In s.heap) (cs : List MetadataCall) (root : Hash) :
    Restores B root (afterCalls B s cs) ↔
      (TreeOpens B (afterCalls B s cs) → NoTokenEntry (afterCalls B s cs)) :=
  have hkept : Heap.empty.Kept s.heap := ⟨List.nil_prefix, List.nil_prefix, List.nil_prefix⟩
  restores_of_in (afterCalls_in cs ⟨hkept, hkept.grown, hclosed, hin⟩)

end Object

namespace SnapshotSample

def descriptor : AssetDescriptor :=
  { assetID, symbol := [], decimals := 0, dimension := 0, creator := accountID, manager := accountID
    maxSupply := 100, circulatingSupply := 0, enableEvents := false, staticMetaData := ∅
    dynamicMetaData := ∅, logicID := ⟨0⟩ }

/-- A store in which every asset has its descriptor. -/
def described : Backend :=
  { backend with assetTree := fun _ _ => .ok fun _ => .ok (AssetOf.new (some descriptor)) }

/-- A static entry of the asset is set. -/
def annotated : Receiver :=
  Object.afterCalls described ⟨object, .empty⟩ [.asset assetID true [1] [2]]

/-- The entry is there, and comes back. -/
theorem asset_entry_restored :
    (Object.getAssetMetadata described assetID true [1] annotated).1 = .ok (.ok [2]) ∧
      Object.Restores described ⟨1⟩ annotated := by
  refine ⟨rfl, ?_⟩
  refine (Object.restores_iff described (by intro p ao h; cases h) (by intro id p h; cases h)
    _ _).mpr fun _ id p d tokenID m isStatic key hp hd hm => ?_
  obtain ⟨-, rfl⟩ := GoMap.of_lookup_singleton hp
  cases hd
  cases hm

/-- A static entry of a token is set, and lost by the commit. -/
theorem token_entry_lost : ¬ Object.Restores backend ⟨1⟩ (Object.afterCalls backend ⟨object, .empty⟩
    [.token assetID defaultTokenID true [1] [2]]) := by
  intro h
  have hanswer := (h _ _ rfl assetID true [1]).2 defaultTokenID
  cases hanswer

end SnapshotSample

end GoMoi
