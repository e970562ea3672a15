/-
  File:      GoMoi/State/Snapshot.lean
  Subject:   What `UpdateSnapshot` brings back.

  A snapshot holds copies of the objects, but a copy shares with its original the asset objects of
  the asset transaction, and it does not take the context along (`Object.copy`). So a change that an
  operation makes in place to an asset object from before the snapshot is a change of the snapshot,
  and a context that was changed but not committed is lost in it.

  * `ObjectOp.asset?`, `Unshared` -- the condition on an operation: the pending object of the asset
    it works on is younger than the snapshot;
  * `Object.Reloads` -- the condition on an object: what the copy leaves out is read back from the
    store as it was;
  * `snapshot_restores_iff` -- the snapshot brings back every observation after every run of
    unshared operations exactly if all objects reload; `spent_after_snapshot` -- and not for a
    single shared one.
-/
import GoMoi.Lib.Run
import GoMoi.State.Sharing
import GoMoi.State.Transition

namespace GoMoi

open Proc Memory Object Transition Option Proc Cells

/-! ## 1. What an operation needs -/

namespace ObjectOp

/-- The asset an operation works on. -/
def asset? : ObjectOp → Option AssetID
  | .addBalance assetID _ _ _ | .subBalance assetID _ _ | .createLockup assetID _ _ _
  | .releaseLockup assetID _ _ _ | .createMandate assetID _ _ _ _ | .subMandateBalance assetID _ _ _
  | .deleteMandate assetID _ _ | .setAssetMetadata assetID _ _ _ | .setTokenMetadata assetID _ _ _ _
  | .mintAsset assetID _ | .burnAsset assetID _ => some assetID
  | .createAsset descriptor => some descriptor.assetID
  | _ => none

/-- The metadata pointer an operation is given. -/
def metadata? : ObjectOp → Option (Ptr MetaData)
  | .addBalance _ _ _ metadata => metadata
  | _ => none

end ObjectOp

namespace Object

variable {B : Backend} {h₀ h₁ : Heap} {s : Receiver} {A : Type}

theorem KeepsGood.drop {x : Method A} (hx : KeepsGood h₀ h₁ x s) : KeepsGood h₀ h₁ x.drop s := by
  exact wp_seq hx fun _ _ h => h

/-- An amount made for a call. -/
theorem keepsGood_newAmount {assetID : AssetID} {x : Ptr Int → Method A} {value : Int}
    (hs : s.Good h₀ h₁) (hf : Free h₀ s assetID)
    (hx : ∀ s' v, s'.Good h₀ s'.heap → Free h₀ s' assetID → s'.heap.amounts.Has v →
      s'.heap.metas = s.heap.metas → KeepsGood h₀ s'.heap (x v) s') :
    KeepsGood h₀ h₁ (do (x (← newAmount value)).drop) s := by
  have hnew := hs.newAmount value
  have hf' : Free h₀ (s.newAmount value) assetID := fun p hp =>
    ⟨(hf p hp).young, (hf p hp).here, (hf p hp).apart⟩
  have hcall := hx (s.newAmount value) (s.heap.amounts.alloc value).1
    ⟨hnew.kept, ⟨le_rfl, le_rfl, le_rfl⟩, hnew.closed, hnew.object⟩ hf'
    (has_alloc.mpr (.inr rfl)) rfl
  refine wp_mono hcall.drop (fun _ s' h => ?_) fun s' h => ?_
  · exact ⟨h.kept, hnew.grown.trans h.grown, h.closed, h.object⟩
  · exact ⟨h.kept, hnew.grown.trans h.grown, h.closed, h.object⟩

/-- **Every operation** on an unshared asset keeps the cells of `h₀`. -/
theorem run_good {op : ObjectOp} (hs : s.Good h₀ h₁)
    (hf : ∀ assetID, op.asset? = some assetID → Free h₀ s assetID)
    (hm : ∀ p, op.metadata? = some p → s.heap.metas.Has p) : KeepsGood h₀ h₁ (run B op) s := by
  cases op with
  | addBalance assetID tokenID value metadata =>
    exact keepsGood_newAmount hs (hf assetID rfl) fun s' v hs' hf' hv hmt =>
      addBalance_good hs' hf' hv fun m hmm => hmt ▸ hm m hmm
  | subBalance assetID tokenID value =>
    exact keepsGood_newAmount hs (hf assetID rfl) fun s' v hs' hf' _ _ =>
      subBalance_good hs' hf' v
  | createLockup assetID tokenID beneficiary value =>
    exact keepsGood_newAmount hs (hf assetID rfl) fun s' v hs' hf' hv _ =>
      createLockup_good hs' hf' beneficiary hv
  | releaseLockup assetID tokenID beneficiary value =>
    exact keepsGood_newAmount hs (hf assetID rfl) fun s' v hs' hf' _ _ =>
      releaseLockup_good hs' hf' beneficiary v
  | createMandate assetID tokenID beneficiary value expiresAt =>
    exact keepsGood_newAmount hs (hf assetID rfl) fun s' v hs' hf' hv _ =>
      createMandate_good hs' hf' beneficiary hv expiresAt
  | subMandateBalance assetID tokenID operatorID value =>
    exact keepsGood_newAmount hs (hf assetID rfl) fun s' v hs' hf' _ _ =>
      subMandateBalance_good hs' hf' operatorID v
  | deleteMandate assetID tokenID beneficiary =>
    exact (deleteMandate_good hs (hf assetID rfl) beneficiary).drop
  | setAssetMetadata assetID isStatic key value =>
    exact (setAssetMetadata_good hs (hf assetID rfl) isStatic key value).drop
  | setTokenMetadata assetID tokenID isStatic key value =>
    exact (setTokenMetadata_good hs (hf assetID rfl) isStatic key value).drop
  | createAsset descriptor => exact (createAsset_good hs (hf _ rfl)).drop
  | mintAsset assetID value =>
    exact keepsGood_newAmount hs (hf assetID rfl) fun s' v hs' hf' _ _ =>
      mintAsset_good hs' hf' v
  | burnAsset assetID value =>
    exact keepsGood_newAmount hs (hf assetID rfl) fun s' v hs' hf' _ _ =>
      burnAsset_good hs' hf' v
  | updateKeys keys => exact Aside.good (aside_set fun _ => rfl) hs
  | appendAccountKeys keys =>
    exact (Aside.good (fixes_appendAccountKeys (fun _ _ => rfl) keys) hs).drop
  | incrementSequenceID keyID =>
    exact (Aside.good (fixes_incrementSequenceID (fun _ _ => rfl) keyID) hs).drop
  | revokeAccountKeys keyIDs =>
    exact (Aside.good (fixes_revokeAccountKeys (fun _ _ => rfl) keyIDs) hs).drop
  | createDeedsEntry key =>
    exact (Aside.good (fixes_createDeedsEntry (fun _ _ => rfl) key) hs).drop
  | updateSubAccount subAccount targetAccount =>
    exact ((aside_updateSubAccount subAccount targetAccount).good hs).drop
  | subAccountCount => exact (aside_subAccountCount.good hs).drop
  | updateInheritedAccount inheritedAccount =>
    exact ((aside_updateInheritedAccount inheritedAccount).good hs).drop
  | createContext consensusNodes => exact ((aside_createContext consensusNodes).good hs).drop
  | updateContext consensusNodes => exact ((aside_updateContext consensusNodes).good hs).drop
  | setStorageEntry logicID key value =>
    exact (Aside.good (fixes_setStorageEntry (fun _ _ _ => rfl) logicID key value) hs).drop
  | getStorageEntry logicID key =>
    exact (Aside.good (fixes_getStorageEntry (fun _ _ _ => rfl) logicID key) hs).drop
  | createLogic descriptor => exact ((aside_createLogic descriptor).good hs).drop

end Object

/-! ## 2. Calls on the objects of a transition -/

/-- No pointer leads nowhere, and the cells of `h₀` are kept. -/
structure Memory.Good (h₀ : Heap) (m : Memory) : Prop where
  kept : h₀.Kept m.heap
  closed : m.heap.Closed
  objects : ∀ p object, m.objects.read p = some object → object.In m.heap

/-- The pointers of the transition lead to objects. -/
def Transition.In (t : Transition) (m : Memory) : Prop :=
  ∀ target p, t.object? target = some p → m.objects.Has p

/-- **The condition on an operation.** The pending object of the asset it works on, and all it
    points to, is younger than `h₀`. -/
def Unshared (h₀ : Heap) (t : Transition) (m : Memory) (e : TransitionOp) : Prop :=
  ∀ assetID p object, e.op.asset? = some assetID → t.object? e.target = some p →
    m.objects.read p = some object → Object.Free h₀ ⟨object, m.heap⟩ assetID

/-- One operation. The metadata pointer it is given, if any, leads somewhere. -/
def opStep (B : Backend) (t : Transition) (m : Memory) (e : TransitionOp) (m' : Memory) : Prop :=
  (∀ p, e.op.metadata? = some p → m.heap.metas.Has p) ∧ m' = (e.run B t m).2

section

variable {B : Backend} {h₀ : Heap} {m : Memory} {t : Transition} {e : TransitionOp} {A : Type}
  {p : Ptr Object} {x : Method A}

/-- **A call** changes the object it is made on and no other. -/
theorem Memory.call_good (hm : m.Good h₀) (hx : ∀ object, m.objects.read p = some object →
      (⟨object, m.heap⟩ : Receiver).Good h₀ m.heap →
        Object.KeepsGood h₀ m.heap x ⟨object, m.heap⟩) :
    (call p x m).2.Good h₀ ∧ ∀ q, q ≠ p → (call p x m).2.objects.read q = m.objects.read q := by
  unfold call
  rcases hp : m.objects.read p with _ | object
  · exact ⟨hm, fun _ _ => rfl⟩
  have hs : (⟨object, m.heap⟩ : Receiver).Good h₀ m.heap :=
    ⟨hm.kept, ⟨le_rfl, le_rfl, le_rfl⟩, hm.closed, hm.objects p object hp⟩
  have hgood : (x ⟨object, m.heap⟩).2.Good h₀ m.heap := wp_state.mp (hx object hp hs)
  refine ⟨⟨hgood.kept, hgood.closed, fun q o hq => ?_⟩, fun q hq => ?_⟩
  · simp only [read_modify] at hq
    split at hq
    case isTrue =>
      obtain ⟨_, _, rfl⟩ := map_eq_some_iff.mp hq
      exact hgood.object
    case isFalse => exact (hm.objects q o hq).mono hgood.grown.assets
  · simp [read_modify, if_neg hq]

variable {m' : Memory} {es : List TransitionOp}

/-- **The step.** -/
theorem opStep_good (hm : m.Good h₀) (he : Unshared h₀ t m e) (hs : opStep B t m e m') :
    m'.Good h₀ ∧ ∀ q, t.object? e.target ≠ some q → m'.objects.read q = m.objects.read q := by
  obtain ⟨hmeta, rfl⟩ := hs
  unfold TransitionOp.run
  rcases hp : t.object? e.target with _ | p
  · exact ⟨hm, fun _ _ => rfl⟩
  obtain ⟨hgood, hread⟩ := call_good (p := p) hm
    fun object ho hs => run_good hs (fun assetID ha => he assetID p object ha hp ho) hmeta
  exact ⟨hgood, fun q hq => hread q fun h => hq (h ▸ rfl)⟩

theorem Memory.call_has {q : Ptr Object} : (call p x m).2.objects.Has q ↔ m.objects.Has q := by
  unfold call
  cases m.objects.read p with
  | none => rfl
  | some object => exact has_modify _

/-- A call on an object that is there, said of the method. -/
theorem Memory.wp_call {object : Object} {Q : A → Memory → Prop} {R : Memory → Prop}
    (ho : m.objects.read p = some object) :
    wp (call p x) Q R m ↔
      wp x (fun a r => Q a ⟨m.objects.modify p fun _ => r.object, r.heap⟩)
        (fun r => R ⟨m.objects.modify p fun _ => r.object, r.heap⟩) ⟨object, m.heap⟩ := by
  unfold wp call
  simp only [ho]
  cases x ⟨object, m.heap⟩ with
  | mk r s' => cases r <;> rfl

/-- Objects are neither made nor dropped. -/
theorem opStep_has (hs : opStep B t m e m') (q : Ptr Object) :
    m'.objects.Has q ↔ m.objects.Has q := by
  obtain ⟨-, rfl⟩ := hs
  unfold TransitionOp.run
  cases t.object? e.target with
  | none => rfl
  | some p => exact call_has

/-- No memory at all. -/
def Heap.empty : Heap := ⟨⟨[]⟩, ⟨[]⟩, ⟨[]⟩⟩

/-- Nothing is shared with no memory. -/
theorem Object.In.free_empty {s : Receiver} (hin : s.object.In s.heap) (assetID : AssetID) :
    Object.Free .empty s assetID :=
  fun q hq => ⟨Nat.not_lt_zero _, hin assetID q hq,
    fun _ _ => ⟨fun _ _ => Nat.not_lt_zero _, fun _ _ => Nat.not_lt_zero _⟩⟩

theorem unshared_empty (hm : m.Good .empty) : Unshared .empty t m e :=
  fun assetID p object _ _ ho => (hm.objects p object ho).free_empty assetID

/-- Memory in which no pointer leads nowhere. -/
abbrev Memory.Closed (m : Memory) : Prop := m.Good .empty

/-- **Memory stays closed**, whatever the operations. -/
theorem closed_run (hm : m.Closed) (hrun : Run (opStep B t) m es m') : m'.Closed :=
  hrun.invariant (I := fun _ m => m.Closed) hm
    fun _ _ _ _ hm hs => (opStep_good hm (unshared_empty hm) hs).1

theorem in_run (hin : t.In m) (hrun : Run (opStep B t) m es m') : t.In m' :=
  hrun.invariant (I := fun _ m => t.In m) hin
    fun _ _ _ _ hin hs target p hp => (opStep_has hs p).mpr (hin target p hp)

end

/-! ## 3. The snapshot -/

section

variable {m : Memory} {t : Transition}

theorem copyObject_kept (p : Ptr Object) (c : Cells Object) : c.Kept (copyObject p c).2 := by
  unfold copyObject
  cases c.read p with
  | none => exact .refl c
  | some object => exact .new c _

theorem copyObject_spec {p : Ptr Object} {c0 c c' : Cells Object} {object : Object}
    (h0 : c0.Kept c) (hp : c0.read p = some object) (h' : (copyObject p c).2.Kept c') :
    ¬ c0.Has (copyObject p c).1 ∧ c'.read (copyObject p c).1 = some object.copy := by
  have hread := h0.read hp
  unfold copyObject at h' ⊢
  rw [hread] at h' ⊢
  exact ⟨fun h => Nat.lt_irrefl _ (h0.has h), h'.read read_alloc_new⟩

theorem snapshot_objects_kept (t : Transition) (m : Memory) :
    m.objects.Kept (t.objects.mapState (fun _ => copyObject) m.objects).2 :=
  GoMap.mapState_related (fun _ => copyObject_kept) _ _

theorem snapshot_kept (t : Transition) (m : Memory) : m.objects.Kept (t.snapshot m).2.objects := by
  have hobj := snapshot_objects_kept t m
  unfold snapshot
  cases t.systemObject with
  | none => exact hobj
  | some p => exact hobj.trans (copyObject_kept p _)

/-- **What a snapshot holds**: for each object a new one, its copy. -/
theorem snapshot_object (t : Transition) (m : Memory) (target : Target) :
    (t.object? target = none → (t.snapshot m).1.object? target = none) ∧
    ∀ p object, t.object? target = some p → m.objects.read p = some object →
      ∃ p', (t.snapshot m).1.object? target = some p' ∧ ¬ m.objects.Has p' ∧
        (t.snapshot m).2.objects.read p' = some object.copy := by
  have hobj := snapshot_objects_kept t m
  cases target with
  | account id =>
    constructor
    · intro hnone
      have hmem : id ∉ t.objects := AList.lookup_eq_none.mp hnone
      exact AList.lookup_eq_none.mpr fun h => hmem (GoMap.mem_mapState.mp h)
    intro p object hp ho
    obtain ⟨_, h1, h2, h3⟩ := GoMap.lookup_mapState (fun _ => copyObject_kept)
      (s := m.objects) hp
    have hend : (t.objects.mapState (fun _ => copyObject) m.objects).2.Kept
        (t.snapshot m).2.objects := by
      unfold snapshot
      cases t.systemObject with
      | none => exact .refl _
      | some p => exact copyObject_kept p _
    exact ⟨_, h3, copyObject_spec h1 ho (h2.trans hend)⟩
  | system =>
    constructor
    · intro hnone
      have hsys : t.systemObject = none := hnone
      simp [snapshot, object?, hsys]
    intro p object hp ho
    have hsys : t.systemObject = some p := hp
    have hspec := copyObject_spec hobj ho (.refl _)
    refine ⟨_, ?_, hspec.1, ?_⟩
    · simp [snapshot, object?, hsys]
    · simp only [snapshot, hsys]
      exact hspec.2

end

/-! ## 4. What the readers read -/

namespace Object

variable (B : Backend)

/-- The keys in the store. -/
def storedKeys (object : Object) : Except Err AccountKeys :=
  if object.data.keysHash.isNil then .ok []
  else match B.getAccountKeys object.id object.data.keysHash with
    | .error e => .error (.wrap e "failed to load acc keys")
    | .ok keys => .ok keys

/-- The deeds in the store. -/
def storedDeeds (object : Object) : Except Err Deeds :=
  if object.data.assetDeeds.isNil then .ok ∅
  else match B.getDeeds object.id object.data.assetDeeds with
    | .error e => .error (.wrap e "failed to load deeds")
    | .ok deeds => .ok deeds

/-- The context in the store. -/
def storedContext (object : Object) : Except Err MetaContext :=
  if object.data.contextHash.isNil then .ok .zero
  else B.getContext object.id object.data.contextHash

/-- The storage entry in the store, under the trees that are open. -/
def storedEntry (object : Object) (logicID : LogicID) (key : Bytes) : Except Err Bytes :=
  match object.storageTrees.lookup logicID with
  | some root => treeEntry B object root key
  | none => match B.metaStorageTree object.id object.data.storageRoot with
    | .error e => .error (.wrap e "failed to initiate storage tree")
    | .ok roots => match roots logicID with
      | .error _ => .error (.sentinel .errLogicStorageTreeNotFound)
      | .ok root => treeEntry B object root key

variable (s : Receiver)

/-- `ensureKeys` loads the keys; if it cannot, an empty list is left. -/
theorem ensureKeys_eq : ensureKeys B s =
    match s.object.keys.elim (s.object.storedKeys B) .ok with
    | .ok keys => (.ok none, { s with object := { s.object with keys := some keys } })
    | .error e => (.ok (some e), { s with object := { s.object with keys := some [] } }) := by
  unfold ensureKeys loadKeys storedKeys
  simp only [bind, pure, this, self, set, assign]
  cases hk : s.object.keys with
  | some keys =>
    have hself : { s.object with keys := some keys } = s.object := by rw [← hk]
    simp [hself]
  | none =>
    by_cases hnil : s.object.data.keysHash.isNil
    · simp [hnil, GoError.wrapErr]
    · cases hget : B.getAccountKeys s.object.id s.object.data.keysHash <;>
        simp [hnil, hget, GoError.wrapErr]

theorem accountKeys_eq :
    (accountKeys B s).1 = .ok (s.object.keys.elim (s.object.storedKeys B) .ok) := by
  simp only [accountKeys, bind, pure, ensureKeys_eq]
  cases s.object.keys.elim (s.object.storedKeys B) .ok <;> rfl

theorem readDeeds_eq :
    (readDeeds B s).1 = .ok (s.object.deeds.elim (s.object.storedDeeds B) .ok) := by
  unfold readDeeds ensureDeeds loadDeeds storedDeeds
  simp only [bind, pure, this, self, set, assign]
  cases hk : s.object.deeds with
  | some deeds => simp [hk]
  | none =>
    by_cases hnil : s.object.data.assetDeeds.isNil
    · simp [hnil, GoError.wrapErr]
    · cases hget : B.getDeeds s.object.id s.object.data.assetDeeds <;>
        simp [hnil, hget, GoError.wrapErr]

/-- `getMetaCtxObject` loads the context; if it cannot, an empty one is left. -/
theorem getMetaCtxObject_eq : getMetaCtxObject B s =
    match s.object.metaContext.elim (s.object.storedContext B) .ok with
    | .ok m => (.ok none, { s with object := { s.object with metaContext := some m } })
    | .error e => (.ok (some e),
      { s with object := { s.object with metaContext := some .zero } }) := by
  unfold getMetaCtxObject loadMetaCtxObject storedContext
  simp only [bind, pure, this, self, set, assign]
  cases hk : s.object.metaContext with
  | some m =>
    have hself : { s.object with metaContext := some m } = s.object := by rw [← hk]
    simp [hself]
  | none =>
    by_cases hnil : s.object.data.contextHash.isNil
    · simp [hnil]
    · cases hget : B.getContext s.object.id s.object.data.contextHash <;> simp [hnil, hget]

theorem readContext_eq :
    (readContext B s).1 = .ok (s.object.metaContext.elim (s.object.storedContext B) .ok) := by
  simp only [readContext, bind, pure, getMetaCtxObject_eq]
  cases s.object.metaContext.elim (s.object.storedContext B) .ok <;> rfl

theorem getStorageEntry_eq (logicID : LogicID) (key : Bytes) :
    (getStorageEntry B logicID key s).1 =
      .ok (((s.object.storageTreeTxns.lookup logicID).bind (·.lookup key)).elim
        (s.object.storedEntry B logicID key) .ok) := by
  unfold getStorageEntry getStorageTree storedEntry
  simp only [bind, pure, this, self, set, assign]
  rcases (s.object.storageTreeTxns.lookup logicID).bind (·.lookup key) with _ | value
  swap
  · rfl
  rcases hroot : s.object.storageTrees.lookup logicID with _ | root
  swap
  · simp [hroot]
  rcases htree : B.metaStorageTree s.object.id s.object.data.storageRoot with e | roots
  · simp [hroot, htree]
  cases hr : roots logicID <;> simp [hroot, htree, hr]

theorem fetchAsset_eq (assetID : AssetID) (fromTxn : Bool) :
    (fetchAsset B assetID fromTxn s).1 =
      match if fromTxn then s.object.pendingAsset assetID else none with
      | some p => (Go.deref (s.heap.viewAsset p)).map .ok
      | none => .ok (committedAsset B s.object assetID) := by
  unfold fetchAsset getAssetObject
  simp only [bind, pure, self, ofGo]
  rcases hpend : (if fromTxn then s.object.pendingAsset assetID else none) with _ | p
  swap
  · simp only
    cases Go.deref (s.heap.viewAsset p) <;> rfl
  rcases hcom : committedAsset B s.object assetID with e | d
  · simp
  obtain ⟨-, -, _, hread, hview, -⟩ := s.heap.loadAsset_spec d
  have hv : (s.heap.loadAsset d).2.viewAsset (s.heap.loadAsset d).1 = some d := by
    rw [Heap.viewAsset, hread, map_some, hview]
  simp [loadAsset, Receiver.loadAsset, hv, Go.deref]

end Object

/-! ## 5. Copies -/

/-- **The condition on an object.** What its copy leaves out is read back as it was: the context, an
    empty list of keys, and the account type. -/
structure Object.Reloads (B : Backend) (object : Object) : Prop where
  accType : object.accType = object.data.accType
  keys : object.keys = some [] → object.storedKeys B = .ok []
  context : ∀ m, object.metaContext = some m → object.storedContext B = .ok m

section

variable {B : Backend} {object : Object} {h h' : Heap}

/-- A copy shows what its original shows, except where it left something out. -/
theorem observe_copy (hk : h.Kept h') (hc : h.Closed) (ho : object.In h) :
    Receiver.observe B ⟨object.copy, h'⟩ =
      { Receiver.observe B ⟨object, h⟩ with
        accType := object.data.accType
        keys := .ok (object.copy.keys.elim (object.storedKeys B) .ok)
        context := .ok (object.storedContext B) } := by
  have hasset : ∀ assetID fromTxn, (fetchAsset B assetID fromTxn ⟨object.copy, h'⟩).1 =
      (fetchAsset B assetID fromTxn ⟨object, h⟩).1 := by
    intro assetID fromTxn
    rw [fetchAsset_eq, fetchAsset_eq]
    show (match if fromTxn then object.pendingAsset assetID else none with
      | some p => (Go.deref (h'.viewAsset p)).map Except.ok
      | none => Except.ok (committedAsset B object assetID)) = _
    rcases hpend : (if fromTxn then object.pendingAsset assetID else none) with _ | p
    · rfl
    have hp : h.assets.Has p := by
      cases fromTxn with
      | true => exact ho assetID p hpend
      | false => cases hpend
    obtain ⟨ao, hao⟩ := has_iff_read.mp hp
    have hview : h'.viewAsset p = h.viewAsset p := by
      rw [Heap.viewAsset, Heap.viewAsset, hk.assets.read hao, hao, map_some,
        map_some, hk.viewObject (hc p ao hao)]
    simp [hview]
  have hstorage : ∀ logicID key, (getStorageEntry B logicID key ⟨object.copy, h'⟩).1 =
      (getStorageEntry B logicID key ⟨object, h⟩).1 := by
    intro logicID key
    rw [getStorageEntry_eq, getStorageEntry_eq]
    rfl
  simp only [Receiver.observe, readDeeds_eq, accountKeys_eq, readContext_eq, hasset, hstorage]
  rfl

/-- **The copy shows what its original shows exactly if the original reloads.** -/
theorem observe_copy_iff (hk : h.Kept h') (hc : h.Closed) (ho : object.In h) :
    Receiver.observe B ⟨object.copy, h'⟩ = Receiver.observe B ⟨object, h⟩ ↔ object.Reloads B := by
  rw [observe_copy hk hc ho]
  simp only [Receiver.observe, accountKeys_eq, readContext_eq, Observation.mk.injEq,
    true_and, and_true, Except.ok.injEq]
  constructor
  · rintro ⟨hacc, hkeys, hctx⟩
    refine ⟨hacc.symm, fun hempty => ?_, fun m hm => ?_⟩
    · rw [hempty] at hkeys
      simpa [copy, hempty] using hkeys
    · rw [hctx, hm]
      rfl
  · rintro ⟨hacc, hkeys, hctx⟩
    refine ⟨hacc.symm, ?_, ?_⟩
    · rcases hk : object.keys with _ | keys
      · simp [copy, hk]
      cases keys with
      | nil => simp [copy, hk, hkeys hk]
      | cons key rest => simp [copy, hk]
    · cases hm : object.metaContext with
      | none => rfl
      | some m => exact hctx m hm

end

/-! ## 6. Runs -/

section

variable {B : Backend} {t : Transition} {m₀ m m' : Memory} {before after : List TransitionOp}

/-- The copies of a snapshot hold no pointer that their originals do not hold. -/
theorem snapshot_good (hm : m.Closed) : (t.snapshot m).2.Good m.heap := by
  have hcopy : ∀ p (c : Cells Object), (∀ q o, c.read q = some o → o.In m.heap) →
      ∀ q o, (copyObject p c).2.read q = some o → o.In m.heap := by
    intro p c hc q o hq
    unfold copyObject at hq
    rcases hp : c.read p with _ | object
    · rw [hp] at hq
      exact hc q o hq
    rw [hp] at hq
    rcases of_read_alloc hq with hold | ⟨-, rfl⟩
    · exact hc q o hold
    · exact hc p object hp
  have hobj : ∀ q o, (t.objects.mapState (fun _ => copyObject) m.objects).2.read q = some o →
      o.In m.heap := by
    let R : Cells Object → Cells Object → Prop := fun c c' =>
      (∀ q o, c.read q = some o → o.In m.heap) → ∀ q o, c'.read q = some o → o.In m.heap
    have : IsPreorder _ R := { refl := fun _ h => h, trans := fun _ _ _ hab hbc h => hbc (hab h) }
    exact GoMap.mapState_related (R := R) (fun _ p c => hcopy p c) t.objects m.objects hm.objects
  refine ⟨.refl _, hm.closed, ?_⟩
  unfold snapshot
  cases t.systemObject with
  | none => exact hobj
  | some p => exact hcopy p _ hobj

/-- Memory since a snapshot: the cells from before it and the copies made by it are as they were. -/
structure Memory.Since (t : Transition) (m m' : Memory) : Prop where
  good : m'.Good m.heap
  copies : ∀ q, ¬ m.objects.Has q → m'.objects.read q = (t.snapshot m).2.objects.read q

theorem Memory.since_snapshot (hm : m.Closed) : Memory.Since t m (t.snapshot m).2 :=
  ⟨snapshot_good hm, fun _ _ => rfl⟩

/-- **The run** of unshared operations. -/
theorem unshared_run (hm : m.Closed) (hin : t.In m)
    (hrun : Run (Guarded (Unshared m.heap t) (opStep B t)) (t.snapshot m).2 after m') :
    Memory.Since t m m' := by
  apply hrun.invariant
  · exact since_snapshot hm
  rintro _ _ e _ hsince ⟨hun, hs⟩
  obtain ⟨hgood, hread⟩ := opStep_good hsince.good hun hs
  exact ⟨hgood, fun q hq => (hread q fun h => hq (hin _ q h)).trans (hsince.copies q hq)⟩

theorem updateSnapshot_observe (snap : Transition) (target : Target) :
    (t.updateSnapshot snap).observe B m target = snap.observe B m target := by
  cases target <;> rfl

/-- **What is observed of one object** once the snapshot is installed. -/
theorem Memory.Since.observe_iff (hs : Memory.Since t m m') (hm : m.Closed) {target : Target}
    {p : Ptr Object} {object : Object} (hp : t.object? target = some p)
    (ho : m.objects.read p = some object) :
    (t.updateSnapshot (t.snapshot m).1).observe B m' target = t.observe B m target ↔
      object.Reloads B := by
  obtain ⟨p', hp', hnew, hcopy⟩ := (snapshot_object t m target).2 p object hp ho
  rw [updateSnapshot_observe, observe, observe, hp, hp', bind_some,
    bind_some, hs.copies p' hnew, hcopy, ho, map_some, map_some,
    Option.some.injEq]
  exact observe_copy_iff hs.good.kept hm.closed (hm.objects p object ho)

/-- Every object reloads what its copy leaves out. -/
def Transition.Reloads (B : Backend) (t : Transition) (m : Memory) : Prop :=
  ∀ target p object, t.object? target = some p → m.objects.read p = some object → object.Reloads B

/-- **All that could be observed is back** if the objects reload. -/
theorem Memory.Since.observe (hs : Memory.Since t m m') (hm : m.Closed) (hin : t.In m)
    (hreload : t.Reloads B m) (target : Target) :
    (t.updateSnapshot (t.snapshot m).1).observe B m' target = t.observe B m target := by
  rcases hp : t.object? target with _ | p
  · rw [updateSnapshot_observe, Transition.observe, Transition.observe, hp,
      (snapshot_object t m target).1 hp]
    rfl
  obtain ⟨object, ho⟩ := has_iff_read.mp (hin target p hp)
  exact (hs.observe_iff hm hp ho).mpr (hreload target p object hp ho)

/-- **Snapshots**: after every run of operations that share no asset with the snapshot,
    `UpdateSnapshot` brings back all that could be observed when it was taken, for every such run,
    exactly if all objects reload what a copy leaves out. -/
theorem snapshot_restores_iff (hm : m₀.Closed) (hin : t.In m₀)
    (hbefore : Run (opStep B t) m₀ before m) :
    (∀ after m', Run (Guarded (Unshared m.heap t) (opStep B t)) (t.snapshot m).2 after m' →
      ∀ target, (t.updateSnapshot (t.snapshot m).1).observe B m' target = t.observe B m target) ↔
    ∀ target p object, t.object? target = some p → m.objects.read p = some object →
      object.Reloads B := by
  have hc : m.Closed := closed_run hm hbefore
  have hin' : t.In m := in_run hin hbefore
  constructor
  · intro hall target p object hp ho
    have hsince : Memory.Since t m (t.snapshot m).2 := since_snapshot hc
    exact (hsince.observe_iff hc hp ho).mp (hall [] _ .start target)
  · intro hreload after m' hrun target
    exact (unshared_run hc hin' hrun).observe hc hin' hreload target

end

/-! ## 7. One account -/

namespace SnapshotSample

def assetID : AssetID := ⟨1⟩

def accountID : Identifier := ⟨2⟩

/-- A store in which every account has a hundred tokens of one asset. -/
def backend : Backend where
  getContext _ _ := .ok .zero
  cachedContext _ := none
  getAccountKeys _ _ := .ok []
  getDeeds _ _ := .ok ∅
  assetTree _ _ := .ok fun id =>
    if id = assetID then .ok { AssetOf.new none with balance := AList.singleton defaultTokenID 100 }
    else .error (.sentinel .errKeyNotFound)
  logicTree _ _ := .ok fun _ => .error (.sentinel .errKeyNotFound)
  metaStorageTree _ _ := .ok fun _ => .error (.sentinel .errKeyNotFound)
  storageTree _ _ _ := .error (.sentinel .errKeyNotFound)
  poloHash _ := .ok nilHash
  logicManifestKey _ _ := []

/-- The account as committed. -/
def object : Object := newStateObject accountID
  { accType := .regularAccount, assetDeeds := nilHash, contextHash := nilHash
    storageRoot := nilHash
    assetRoot := nilHash, logicRoot := nilHash, fileRoot := nilHash, keysHash := nilHash } false

def memory : Memory := { objects := ⟨[object]⟩, heap := .empty }

def transition : Transition where
  objects := AList.singleton accountID ⟨0⟩
  systemObject := none
  auxiliaryObjects := ∅
  receipts := ∅

/-- Tokens spent by the account. -/
def spend (value : Int) : TransitionOp :=
  { target := .account accountID, op := .subBalance assetID defaultTokenID value }

/-- A sub-account entered. -/
def inherit_ : TransitionOp :=
  { target := .account accountID, op := .updateSubAccount ⟨3⟩ ⟨4⟩ }

/-- Memory after an operation. -/
def step (e : TransitionOp) (m : Memory) : Memory := (e.run backend transition m).2

/-- The tokens an observer sees. -/
def tokens (o : Option Observation) : Option Int :=
  o.bind fun o => match o.asset assetID true with
    | .ok (.ok d) => d.balance.lookup defaultTokenID
    | _ => none

/-- The sub-accounts an observer sees. -/
def subAccounts (o : Option Observation) : Option (List Identifier) :=
  o.bind fun o => match o.context with
    | .ok (.ok m) => some m.subAccounts.keys
    | _ => none

/-- Ten tokens are spent and a snapshot is taken; then thirty are spent and the snapshot is
    installed: the tokens seen before and after. -/
def spentTwice : Option Int × Option Int :=
  let m := step (spend 10) memory
  let snap := transition.snapshot m
  (tokens (transition.observe backend m (.account accountID)),
    tokens ((transition.updateSnapshot snap.1).observe backend (step (spend 30) snap.2)
      (.account accountID)))

/-- A sub-account is entered, a snapshot is taken and installed at once. -/
def inherited : Option (List Identifier) × Option (List Identifier) :=
  let m := step inherit_ memory
  let snap := transition.snapshot m
  (subAccounts (transition.observe backend m (.account accountID)),
    subAccounts ((transition.updateSnapshot snap.1).observe backend snap.2 (.account accountID)))

theorem read_memory {p : Ptr Object} {o : Object} (h : memory.objects.read p = some o) :
    o = object := by
  obtain ⟨_ | _⟩ := p
  · exact (Option.some.inj h).symm
  · cases h

theorem memory_closed : memory.Closed where
  kept := Heap.Kept.refl _
  closed := nofun
  objects := fun p o ho assetID q hq => by
    rw [read_memory ho] at hq
    cases hq

theorem transition_in : transition.In memory := by
  intro target p hp
  cases target with
  | account id =>
    rw [(GoMap.of_lookup_singleton hp).2]
    exact Nat.zero_lt_one
  | system => cases hp

theorem object_reloads : object.Reloads backend where
  accType := rfl
  keys := nofun
  context := nofun

theorem opStep_step {e : TransitionOp} (m : Memory) (he : e.op.metadata? = none) :
    opStep backend transition m e (step e m) := by
  refine ⟨fun p h => ?_, rfl⟩
  rw [he] at h
  cases h

/-- Nothing of the asset is pending when the snapshot is taken. -/
theorem spend_unshared (value : Int) :
    Unshared memory.heap transition (transition.snapshot memory).2 (spend value) := by
  intro assetID p o _ hp ho q hq
  rw [(snapshot_kept transition memory).read_eq (transition_in _ p hp)] at ho
  rw [read_memory ho] at hq
  cases hq

/-- **A snapshot that restores.** -/
theorem unspent_after_revert :
    (transition.updateSnapshot (transition.snapshot memory).1).observe backend
      (step (spend 30) (transition.snapshot memory).2) (.account accountID) =
      transition.observe backend memory (.account accountID) := by
  refine (snapshot_restores_iff memory_closed transition_in .start).mpr ?_ [spend 30] _
    (.snoc .start _ ⟨spend_unshared 30, opStep_step _ rfl⟩) _
  intro target p o _ ho
  rw [read_memory ho]
  exact object_reloads

/-- **Spent after the snapshot.** The snapshot of an account with ninety tokens left shows sixty
    once thirty more are spent on the account, and the snapshot of an account with a new sub-account
    shows none. -/
theorem spent_after_snapshot :
    (∃ m after m', Run (opStep backend transition) memory [spend 10] m ∧
      Run (opStep backend transition) (transition.snapshot m).2 after m' ∧
      (transition.updateSnapshot (transition.snapshot m).1).observe backend m'
        (.account accountID) ≠ transition.observe backend m (.account accountID)) ∧
    ∃ m, Run (opStep backend transition) memory [inherit_] m ∧
      (transition.updateSnapshot (transition.snapshot m).1).observe backend
        (transition.snapshot m).2
        (.account accountID) ≠ transition.observe backend m (.account accountID) := by
  constructor
  · refine ⟨_, [spend 30], _, .snoc .start _ (opStep_step _ rfl),
      .snoc .start _ (opStep_step _ rfl), fun h => ?_⟩
    have htokens : spentTwice.2 = spentTwice.1 := congrArg tokens h
    cases htokens
  · refine ⟨_, .snoc .start _ (opStep_step _ rfl), fun h => ?_⟩
    have hsub : inherited.2 = inherited.1 := congrArg subAccounts h
    cases hsub

end SnapshotSample

end GoMoi
