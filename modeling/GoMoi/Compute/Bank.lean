/-
  File:      GoMoi/Compute/Bank.lean
  Subject:   Runs of the asset engine over several batches, with the commits between them.

  A batch works on objects that were loaded for it. A call that returns has changed them; one that
  panics ends the batch, which is then dropped (`Execute` recovers and returns an error). At the end
  the objects are committed or dropped, and the next batch loads its objects from the asset trees.

  * `Committed`, `EngineEnv.on` -- the asset trees, by their entries;
  * `Bank` -- the trees, and the batch at work; `Bank.step` -- calls, commits, dropped batches;
  * `Bank.ledger` -- the books; `Bank.call_books` -- a call has an effect on them;
    `Bank.commitAssets_ledger`, `Unworked.ledger` -- a commit and a reload have none;
  * `Bank.run_books` -- a property of books that every effect keeps.
-/
import GoMoi.Compute.EngineEffects

namespace GoMoi

/-! ## 1. Asset trees -/

/-- The asset trees of all accounts. -/
abbrev Committed : Type := Identifier → AssetID → Option AssetData

/-- The environment with these asset trees. -/
def EngineEnv.on (X : EngineEnv) (c : Committed) : EngineEnv :=
  { X with
    backend := { X.backend with
      assetTree := fun id _ => .ok fun a => match c id a with
        | some d => .ok d
        | none => .error (.sentinel .errKeyNotFound) } }

/-- The books of the asset trees. -/
def Committed.ledger (c : Committed) : Ledger := fun id a =>
  ((c id a).map AssetOf.holding).getD .empty

/-- Objects as a batch finds them: each for its account, with nothing pending. -/
structure Unworked (t : Transition) (m : Memory) : Prop where
  separate : m.heap.Separate
  objects : ∀ id p, t.objects.lookup id = some p →
    ∃ o, m.objects.read p = some o ∧ o.id = id ∧ o.assetTreeTxn = none

/-! ## 2. Batches -/

/-- The asset trees, and the batch at work. -/
structure Bank where
  committed : Committed
  transition : Transition
  memory : Memory

inductive BankEvent where
  | call (now : UInt64) (op : EngineOp)
  /-- the batch is committed, and the next one loads its objects -/
  | commit (t : Transition) (m : Memory)
  /-- the batch is dropped -/
  | abandon (t : Transition) (m : Memory)

namespace Bank

/-- `commitAssets` on the objects of the batch: what is pending is set in the tree. The real commit
    loses the token metadata, which stay here; no amount depends on them. -/
def commitAssets (b : Bank) : Committed := fun id a =>
  match (b.transition.objects.lookup id).bind b.memory.objects.read with
  | none => b.committed id a
  | some o => match o.pendingAsset a with
    | none => b.committed id a
    | some q => b.memory.heap.viewAsset q

def step (X : EngineEnv) (b : Bank) : BankEvent → Bank → Prop
  | .call now op, b' => ∃ r m, op.run (X.on b.committed) now b.transition b.memory = (.ok r, m) ∧
      b' = { b with memory := m }
  | .commit t m, b' => Unworked t m ∧ b' = ⟨b.commitAssets, t, m⟩
  | .abandon t m, b' => Unworked t m ∧ b' = ⟨b.committed, t, m⟩

/-- Before the first batch there are no assets. -/
structure Start (b : Bank) : Prop where
  committed : b.committed = fun _ _ => none
  fresh : Unworked b.transition b.memory

/-- The books: of the accounts at work what their objects show, of the others what is committed. -/
def ledger (X : EngineEnv) (b : Bank) : Ledger :=
  b.memory.ledger (X.on b.committed).backend b.transition b.committed.ledger

end Bank

/-! ## 3. The books along a run -/

section

variable {X : EngineEnv} {c : Committed} {t : Transition} {m : Memory} {b b' : Bank}

theorem pendingAsset_of_none {o : Object} (h : o.assetTreeTxn = none) (a : AssetID) :
    o.pendingAsset a = none := by
  rw [Object.pendingAsset, h]
  rfl

/-- With nothing pending an object shows what is committed. -/
theorem assetView_on {o : Object} {h : Heap} {a : AssetID} (hpend : o.pendingAsset a = none) :
    Receiver.assetView (X.on c).backend ⟨o, h⟩ a = c o.id a := by
  unfold Receiver.assetView
  rw [hpend]
  show (match c o.id a with
    | some d => Except.ok d
    | none => .error (.sentinel .errKeyNotFound) : Except Err AssetData).toOption = c o.id a
  cases c o.id a <;> rfl

theorem Unworked.world (hf : Unworked t m) : Accounts t m := by
  have hnone : ∀ id p o a, t.objects.lookup id = some p → m.objects.read p = some o →
      o.pendingAsset a = none := by
    intro id p o a hid ho
    obtain ⟨o', ho', -, htxn⟩ := hf.objects id p hid
    obtain rfl := Option.mem_unique ho ho'
    exact pendingAsset_of_none htxn a
  refine ⟨hf.separate, fun id p hid => ?_, fun id id' p p' o o' a a' q hid _ ho _ hq _ => ?_⟩
  · obtain ⟨o, ho, hoid, -⟩ := hf.objects id p hid
    refine ⟨o, ho, hoid, fun a q hq => ?_⟩
    rw [hnone id p o a hid ho] at hq
    cases hq
  · rw [hnone id p o a hid ho] at hq
    cases hq

/-- **A batch starts with what is committed.** -/
theorem Unworked.ledger (hf : Unworked t m) : Bank.ledger X ⟨c, t, m⟩ = c.ledger := by
  funext id a
  unfold Bank.ledger Memory.ledger
  rcases hid : t.objects.lookup id with _ | p
  · rfl
  obtain ⟨o, ho, rfl, htxn⟩ := hf.objects id p hid
  simp only [Memory.holding, ho, Receiver.holding, assetView_on (pendingAsset_of_none htxn a)]
  rfl

/-- **A commit keeps the books.** -/
theorem Bank.commitAssets_ledger (hw : Accounts b.transition b.memory) :
    b.commitAssets.ledger = b.ledger X := by
  funext id a
  unfold Committed.ledger Bank.commitAssets Bank.ledger Memory.ledger
  rcases hid : b.transition.objects.lookup id with _ | p
  · rfl
  obtain ⟨o, ho, hoid, -⟩ := hw.objects id p hid
  simp only [Option.bind_some, ho, Memory.holding, Receiver.holding]
  rcases hq : o.pendingAsset a with _ | q
  · rw [assetView_on hq, hoid]
  unfold Receiver.assetView
  rw [hq]

/-- **A call on the books.** -/
theorem Bank.call_books {now : UInt64} {op : EngineOp} (hw : Accounts b.transition b.memory)
    (hs : b.step X (.call now op) b') :
    Accounts b'.transition b'.memory ∧ b'.committed = b.committed ∧
      EngineEffect (b.memory.Linked b.transition) (b.ledger X) op (b'.ledger X) := by
  obtain ⟨r, m, hrun, rfl⟩ := hs
  have hat0 : At (X.on b.committed).backend b.transition b.committed.ledger (b.ledger X) b.memory :=
    ⟨hw, rfl⟩
  obtain ⟨L', he, hat⟩ := Proc.wp_of_eq hrun (op.effect now hat0)
  refine ⟨hat.world, rfl, ?_⟩
  rw [show Bank.ledger X { b with memory := m } = L' from hat.ledger]
  exact he

/-- **A property of books along a run**, of those at work and of those that are committed. `ok` is
    what is known of every step of the run. -/
theorem Bank.run_books {I : Ledger → Prop} {ok : Bank → BankEvent → Prop} {es : List BankEvent}
    (h0 : I fun _ _ => .empty)
    (hcall : ∀ b now op L', Accounts b.transition b.memory → I (b.ledger X) → ok b (.call now op) →
      EngineEffect (b.memory.Linked b.transition) (b.ledger X) op L' → I L')
    (hb : b.Start) (h : Run (Guarded ok (Bank.step X)) b es b') :
    Accounts b'.transition b'.memory ∧ I (b'.ledger X) ∧ I b'.committed.ledger := by
  apply h.invariant
  · have hempty : b.committed.ledger = fun _ _ => .empty := by
      rw [hb.committed]
      rfl
    refine ⟨hb.fresh.world, ?_, hempty ▸ h0⟩
    rw [show b.ledger X = _ from hb.fresh.ledger, hempty]
    exact h0
  · rintro _ s e _ ⟨hw, hL, hC⟩ hs
    cases e with
    | call now op =>
      obtain ⟨hw', hcom, he⟩ := call_books hw hs.2
      exact ⟨hw', hcall s now op _ hw hL hs.1 he, hcom ▸ hC⟩
    | commit t m =>
      obtain ⟨-, hf, rfl⟩ := hs
      have hkept := commitAssets_ledger (X := X) hw
      refine ⟨hf.world, ?_, hkept ▸ hL⟩
      rw [hf.ledger, hkept]
      exact hL
    | abandon t m =>
      obtain ⟨-, hf, rfl⟩ := hs
      refine ⟨hf.world, ?_, hC⟩
      rw [hf.ledger]
      exact hC

end

/-! ## 4. A bank -/

namespace BankSample

open EngineSample

/-- Four accounts, and no assets. -/
def start : Bank := ⟨fun _ _ => none, transition, memory⟩

def X : EngineEnv := env fun _ _ => none

/-- The manager makes an asset. -/
def creating : EngineOp := .createAsset nilHash
  { assetID := assetID, symbol := [], decimals := 0, dimension := 0, creator := manager
    manager := manager, maxSupply := 100, circulatingSupply := 0, enableEvents := false
    staticMetaData := ∅, dynamicMetaData := ∅, logicID := ⟨0⟩ }

/-- The bank after a call. -/
def call (b : Bank) (op : EngineOp) : Bank :=
  { b with memory := (op.run (X.on b.committed) 0 b.transition b.memory).2 }

def returns (b : Bank) (op : EngineOp) : Bool :=
  match (op.run (X.on b.committed) 0 b.transition b.memory).1 with
  | .ok _ => true
  | .error _ => false

theorem step_call {b : Bank} {op : EngineOp} (h : returns b op = true) :
    b.step X (.call 0 op) (call b op) := by
  unfold returns at h
  cases hrun : op.run (X.on b.committed) 0 b.transition b.memory with
  | mk r m =>
    rw [hrun] at h
    rcases r with p | o
    · cases h
    refine ⟨o, m, hrun, ?_⟩
    unfold call
    rw [hrun]

theorem unworked : Unworked transition memory := by
  refine ⟨⟨fun _ _ h => (by cases h), fun _ _ _ _ _ _ _ h => (by cases h)⟩, fun id p h => ?_⟩
  rcases GoMap.of_lookup_insert h with ⟨rfl, rfl⟩ | h
  · exact ⟨_, rfl, rfl, rfl⟩
  rcases GoMap.of_lookup_insert h with ⟨rfl, rfl⟩ | h
  · exact ⟨_, rfl, rfl, rfl⟩
  rcases GoMap.of_lookup_insert h with ⟨rfl, rfl⟩ | h
  · exact ⟨_, rfl, rfl, rfl⟩
  rcases GoMap.of_lookup_insert h with ⟨rfl, rfl⟩ | h
  · exact ⟨_, rfl, rfl, rfl⟩
  · cases h

theorem start_start : start.Start := ⟨rfl, unworked⟩

end BankSample

end GoMoi
