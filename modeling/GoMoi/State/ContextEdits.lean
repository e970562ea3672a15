/-
  File:      GoMoi/State/ContextEdits.lean
  Subject:   Edits of the context of an account (`state/object.go`, `state/context.go`): do changes
             of the consensus nodes and of the accounts leave each other alone?

  `UpdateContext` starts from a copy of the committed context, and `MetaContextObject.Copy` takes
  neither the sub-accounts nor the inherited account; `CreateContext` starts from nothing, and
  `Copy` of an object leaves the pending context behind, also one that is committed and not yet
  flushed. A context that cannot be loaded is left behind as an empty one.

  * `ContextEvent`, `ContextState.step` -- the calls, with `Copy` and the part of `Commit` that
    writes the context: into the dirty entries, which none of the calls reads, and into the cache.
    The cache holds a pointer to it, and what `UpdateContext` takes of it is changed by none of the
    calls;
  * `Keeps` -- what a call has to leave as it was; `Safe` -- the condition;
  * `keepsAll_iff` -- in every interleaving all calls keep it iff all are safe.
-/
import GoMoi.State.Snapshot

namespace GoMoi

open MetaContext Object

/-! ## 1. Calls -/

/-- The consensus nodes with their hash. -/
def MetaContext.nodes (m : MetaContext) : List KramaID × Hash :=
  (m.consensusNodes, m.consensusNodesHash)

/-- The sub-accounts and the inherited account. -/
def MetaContext.accounts (m : MetaContext) : GoMap Identifier Identifier × Identifier :=
  (m.subAccounts, m.inheritedAccount)

/-- An object, and what it reads from. -/
structure ContextState where
  recv : Receiver
  backend : Backend

inductive ContextEvent where
  | updateSubAccount (subAccount targetAccount : Identifier)
  | updateInheritedAccount (inheritedAccount : Identifier)
  | createContext (consensusNodes : List KramaID)
  | updateContext (consensusNodes : List KramaID)
  | copy
  /-- with the hash of the context -/
  | commit (hash : Hash)

namespace ContextState

/-- `commitContextObject`. The dirty entry is not readable before a flush. -/
def commitContextObject (hash : Hash) (s : ContextState) : ContextState :=
  match s.recv.object.metaContext with
  | none => s
  | some m =>
    let object := s.recv.object
    { recv := { s.recv with
        object := { object with data := { object.data with contextHash := hash } } }
      backend := { s.backend with
        cachedContext := fun h => if h = hash then some m else s.backend.cachedContext h } }

def step (s : ContextState) : ContextEvent → ContextState
  | .updateSubAccount subAccount targetAccount =>
    { s with recv := (updateSubAccount s.backend subAccount targetAccount s.recv).2 }
  | .updateInheritedAccount inheritedAccount =>
    { s with recv := (updateInheritedAccount s.backend inheritedAccount s.recv).2 }
  | .createContext consensusNodes =>
    { s with recv := (createContext s.backend consensusNodes s.recv).2 }
  | .updateContext consensusNodes =>
    { s with recv := (updateContext s.backend consensusNodes s.recv).2 }
  | .copy => { s with recv := { s.recv with object := s.recv.object.copy } }
  | .commit hash => s.commitContextObject hash

/-! ## 2. The property and its condition -/

/-- The context as it is read (`Object.readContext_eq`). -/
def context (s : ContextState) : Except Err MetaContext :=
  s.recv.object.metaContext.elim (s.recv.object.storedContext s.backend) .ok

/-- A call on the nodes keeps the accounts, one on the accounts keeps the nodes, the others keep
    both. -/
def Keeps (s : ContextState) (e : ContextEvent) : Prop :=
  match e with
  | .updateSubAccount .. | .updateInheritedAccount .. =>
    (s.step e).context.map nodes = s.context.map nodes
  | .createContext .. | .updateContext .. =>
    (s.step e).context.map accounts = s.context.map accounts
  | .copy | .commit .. =>
    (s.step e).context.map nodes = s.context.map nodes ∧
      (s.step e).context.map accounts = s.context.map accounts

/-- There are no sub-accounts and no inherited account. -/
def NoAccounts (s : ContextState) : Prop :=
  s.context.map accounts = .ok (∅, nilIdentifier)

/-- **The condition on a call**: accounts are edited on a context that can be read; nodes are
    changed where the call is refused or there are no accounts; a copy is made of an object whose
    pending context, if there is one, is the one in the database in what matters here. -/
def Safe (s : ContextState) : ContextEvent → Prop
  | .updateSubAccount .. | .updateInheritedAccount .. => s.context.isOk = true
  | .createContext consensusNodes =>
    consensusNodes.length < minimumContextSize ∨
      (s.backend.poloHash consensusNodes).isOk = false ∨ s.NoAccounts
  | .updateContext consensusNodes =>
    consensusNodes.length = 0 ∨ s.recv.object.id.isParticipantVariant = true ∨
      (getMetaContextObjectCopy s.backend s.recv.object).isOk = false ∨
        (s.backend.poloHash consensusNodes).isOk = false ∨ s.NoAccounts
  | .copy => ∀ m, s.recv.object.metaContext = some m →
    (s.recv.object.storedContext s.backend).map nodes = .ok m.nodes ∧
      (s.recv.object.storedContext s.backend).map accounts = .ok m.accounts
  | .commit _ => True

/-! ## 3. One call -/

variable {s s' : ContextState}

/-- A loaded context edited in its accounts. -/
theorem nodes_of_edit {f : MetaContext → MetaContext} (hf : ∀ m, (f m).nodes = m.nodes)
    (hok : ∀ m, s.context = .ok m → s'.recv.object.metaContext = some (f m))
    (herror : ∀ e, s.context = .error e → s'.recv.object.metaContext = some .zero) :
    s'.context.map nodes = s.context.map nodes ↔ s.context.isOk = true := by
  cases hc : s.context with
  | ok m => simp [context, hok m hc, Except.map, hf, Except.isOk, Except.toBool]
  | error e => simp [context, herror e hc, Except.map, Except.isOk, Except.toBool]

/-- A context made without accounts. -/
theorem accounts_of_fresh {m : MetaContext} (hm : m.accounts = (∅, nilIdentifier))
    (hs' : s'.recv.object.metaContext = some m) :
    s'.context.map accounts = s.context.map accounts ↔ s.NoAccounts := by
  have hc : s'.context = .ok m := by rw [context, hs', Option.elim_some]
  rw [hc, eq_comm, Except.map, hm, NoAccounts]

theorem keeps_updateSubAccount (a b : Identifier) :
    s.Keeps (.updateSubAccount a b) ↔ s.Safe (.updateSubAccount a b) := by
  refine nodes_of_edit (f := fun m => { m with subAccounts := m.subAccounts.insert a b })
    (fun _ => rfl) (fun m hm => ?_) fun e he => ?_
  all_goals
    have hget := getMetaCtxObject_eq s.backend s.recv
    unfold context at *
    simp only [*] at hget
    unfold step updateSubAccount
    simp only [Proc.bind_of_ok hget]
    rfl

theorem keeps_updateInheritedAccount (a : Identifier) :
    s.Keeps (.updateInheritedAccount a) ↔ s.Safe (.updateInheritedAccount a) := by
  refine nodes_of_edit (f := fun m => { m with inheritedAccount := a })
    (fun _ => rfl) (fun m hm => ?_) fun e he => ?_
  all_goals
    have hget := getMetaCtxObject_eq s.backend s.recv
    unfold context at *
    simp only [*] at hget
    unfold step updateInheritedAccount
    simp only [Proc.bind_of_ok hget]
    rfl

/-- The copy that `UpdateContext` starts from has no accounts. -/
theorem copy_accounts {B : Backend} {object : Object} {m : MetaContext}
    (h : getMetaContextObjectCopy B object = .ok m) : m.accounts = (∅, nilIdentifier) := by
  unfold getMetaContextObjectCopy at h
  split at h
  · cases h
    rfl
  split at h
  · cases h
  · cases h
    rfl

theorem keeps_createContext (nodes : List KramaID) :
    s.Keeps (.createContext nodes) ↔ s.Safe (.createContext nodes) := by
  unfold Keeps step createContext
  by_cases hlen : nodes.length < minimumContextSize
  · simp only [if_pos hlen]
    exact iff_of_true rfl (.inl hlen)
  simp only [if_neg hlen]
  rcases hhash : s.backend.poloHash nodes with e | h
  · exact iff_of_true rfl (.inr (.inl (by rw [hhash]; rfl)))
  have hsafe : s.Safe (.createContext nodes) ↔ s.NoAccounts := by
    simp [Safe, hlen, hhash, Except.isOk, Except.toBool]
  rw [hsafe]
  exact accounts_of_fresh rfl rfl

theorem keeps_updateContext (nodes : List KramaID) :
    s.Keeps (.updateContext nodes) ↔ s.Safe (.updateContext nodes) := by
  have hthis : this s.recv = (.ok s.recv.object, s.recv) := rfl
  simp only [Keeps, step, updateContext, Proc.bind_of_ok hthis]
  by_cases hskip : nodes.length = 0 ∨ s.recv.object.id.isParticipantVariant = true
  · rw [if_pos hskip]
    exact iff_of_true rfl (hskip.imp_right .inl)
  rw [if_neg hskip]
  rcases hcopy : getMetaContextObjectCopy s.backend s.recv.object with e | m
  · exact iff_of_true rfl (.inr (.inr (.inl (by rw [hcopy]; rfl))))
  rcases hhash : s.backend.poloHash nodes with e | h
  · exact iff_of_true rfl (.inr (.inr (.inr (.inl (by rw [hhash]; rfl)))))
  have hsafe : s.Safe (.updateContext nodes) ↔ s.NoAccounts := by
    obtain ⟨hlen, hvariant⟩ := not_or.mp hskip
    simp [Safe, hlen, hvariant, hcopy, hhash, Except.isOk, Except.toBool]
  have haccounts : m.accounts = _ := copy_accounts hcopy
  rw [hsafe]
  exact accounts_of_fresh (m := { m with
    previousHash := s.recv.object.data.contextHash, consensusNodes := nodes
    consensusNodesHash := h }) haccounts rfl

/-- **One call.** -/
theorem keeps_iff_safe (s : ContextState) (e : ContextEvent) : s.Keeps e ↔ s.Safe e := by
  cases e with
  | updateSubAccount a b => exact keeps_updateSubAccount a b
  | updateInheritedAccount a => exact keeps_updateInheritedAccount a
  | createContext nodes => exact keeps_createContext nodes
  | updateContext nodes => exact keeps_updateContext nodes
  | copy =>
    unfold Keeps Safe
    have hcopy : (s.step .copy).context = s.recv.object.storedContext s.backend := rfl
    rw [hcopy, context]
    cases hm : s.recv.object.metaContext with
    | none => exact iff_of_true ⟨rfl, rfl⟩ fun _ h => nomatch h
    | some m => exact ⟨fun h _ heq => Option.some.inj heq ▸ h, fun h => h m rfl⟩
  | commit hash =>
    refine iff_of_true ?_ trivial
    unfold Keeps step commitContextObject
    cases hm : s.recv.object.metaContext with
    | none => exact ⟨rfl, rfl⟩
    | some m => simp [context, hm]

/-- **Edits of the context.** For every object and every interleaving of the calls, each call leaves
    alone what is not its own iff each is made where it is safe. -/
theorem keepsAll_iff (s : ContextState) (es : List ContextEvent) :
    Along step Keeps s es ↔ Along step Safe s es :=
  Along.congr (I := fun _ => True) (fun _ _ _ _ => trivial) (fun s e _ => keeps_iff_safe s e) es
    trivial

end ContextState

namespace SnapshotSample

/-- A sub-account is added, and the nodes are changed before the next commit. -/
theorem updateContext_drops_subAccount :
    ¬ Along ContextState.step ContextState.Keeps
      ⟨⟨newStateObject ⟨2 ^ 32⟩ object.data false, .empty⟩, backend⟩
      [.updateSubAccount ⟨3⟩ ⟨4⟩, .updateContext [[1]]] := by
  intro h
  have haccounts := congrArg (·.map fun a => a.1.keys) h.2.1
  cases haccounts

end SnapshotSample

end GoMoi
