/-
  File:      GoMoi/Lib/FaultyStore.lean
  Subject:   A key-value store whose every operation can fail.

  The failures to come are part of the state: `faults n` is the answer to the operation after the
  next `n`, and an operation takes the first answer off. A statement about every state is then one
  about every place at which a failure can strike, and a store without failures (`sound`) runs like
  a map.

  A batch is a list of writes that is staged first and committed at once. A large batch may be
  split by the store, so that of one that fails some first writes (`landed`) can be there.

  * `read`, `write`, `stage`, `commit`, with a rule for each that forgets the failures to come;
  * `Keeps I x` -- `x` keeps the property `I` of the entries, however it ends: the frame rule;
  * `putAll` -- the entries after a list of writes.
-/
import GoMoi.Lib.GoMap
import GoMoi.Lib.Proc

namespace GoMoi

open Proc

/-- Why an operation has failed, and how many writes of its batch are there nevertheless. -/
structure Fault where
  text : String
  landed : Nat
  deriving DecidableEq, Repr

/-- The entries, and the failures to come. -/
structure FaultyStore (K V : Type) where
  entries : GoMap K V
  faults : Nat → Option Fault

namespace FaultyStore

variable {K V A B : Type}

section

variable [DecidableEq K]

/-- A store that never fails. -/
def sound (m : GoMap K V) : FaultyStore K V := ⟨m, fun _ => none⟩

/-- The entries after a list of writes, the last write of a key counting. -/
def putAll (m : GoMap K V) (ws : List (K × V)) : GoMap K V :=
  ws.foldl (fun m w => m.insert w.1 w.2) m

/-! ## 1. Operations -/

/-- The answer to the next operation. -/
def next : Proc (FaultyStore K V) (Option Fault) := fun s =>
  (.ok (s.faults 0), ⟨s.entries, fun n => s.faults (n + 1)⟩)

def read (k : K) : Proc (FaultyStore K V) (Except Fault (Option V)) := do
  match ← next with
  | some f => pure (.error f)
  | none => do
    let s ← Proc.self
    pure (.ok (s.entries.lookup k))

def write (k : K) (v : V) : Proc (FaultyStore K V) (Option Fault) := do
  match ← next with
  | some f => pure (some f)
  | none => do
    Proc.assign fun s => { s with entries := s.entries.insert k v }
    pure none

/-- A write added to a batch. -/
def stage (bw : List (K × V)) (k : K) (v : V) :
    Proc (FaultyStore K V) (Except Fault (List (K × V))) := do
  match ← next with
  | some f => do
    Proc.assign fun s => { s with entries := putAll s.entries (bw.take f.landed) }
    pure (.error f)
  | none => pure (.ok (bw ++ [(k, v)]))

/-- The writes of a batch made. -/
def commit (bw : List (K × V)) : Proc (FaultyStore K V) (Option Fault) := do
  match ← next with
  | some f => do
    Proc.assign fun s => { s with entries := putAll s.entries (bw.take f.landed) }
    pure (some f)
  | none => do
    Proc.assign fun s => { s with entries := putAll s.entries bw }
    pure none

/-! ## 2. What is written -/

theorem putAll_induction {I : GoMap K V → Prop} {ws : List (K × V)}
    (h : ∀ w ∈ ws, ∀ m, I m → I (m.insert w.1 w.2)) {m : GoMap K V} (hm : I m) :
    I (putAll m ws) := by
  induction ws generalizing m with
  | nil => exact hm
  | cons w ws ih =>
    exact ih (fun w' hw' => h w' (List.mem_cons_of_mem w hw')) (h w List.mem_cons_self m hm)

theorem lookup_putAll_of_notMem {m : GoMap K V} {ws : List (K × V)} {k : K}
    (h : ∀ w ∈ ws, w.1 ≠ k) : (putAll m ws).lookup k = m.lookup k :=
  putAll_induction (I := fun m' => m'.lookup k = m.lookup k)
    (fun w hw _ hm' => (AList.lookup_insert_ne (h w hw).symm).trans hm') rfl

/-! ## 3. Rules -/

variable {R : FaultyStore K V → Prop} {s : FaultyStore K V} {k : K} {v : V} {bw : List (K × V)}

omit [DecidableEq K] in
/-- An operation, by the answers it can get. -/
theorem wp_next {f : Option Fault → Proc (FaultyStore K V) A} {Q : A → FaultyStore K V → Prop}
    (hfault : ∀ e fs, wp (f (some e)) Q R ⟨s.entries, fs⟩)
    (hnone : ∀ fs, wp (f none) Q R ⟨s.entries, fs⟩) : wp (next >>= f) Q R s := by
  rw [wp_bind]
  show wp _ Q R (_ : FaultyStore K V)
  cases s.faults 0 with
  | some e => exact hfault e _
  | none => exact hnone _

theorem wp_read {Q : Except Fault (Option V) → FaultyStore K V → Prop}
    (hfault : ∀ f fs, Q (.error f) ⟨s.entries, fs⟩)
    (hread : ∀ fs, Q (.ok (s.entries.lookup k)) ⟨s.entries, fs⟩) : wp (read k) Q R s :=
  wp_next hfault hread

variable {Q : Option Fault → FaultyStore K V → Prop}

theorem wp_write (hfault : ∀ f fs, Q (some f) ⟨s.entries, fs⟩)
    (hwrite : ∀ fs, Q none ⟨s.entries.insert k v, fs⟩) : wp (write k v) Q R s :=
  wp_next hfault hwrite

theorem wp_stage {Q : Except Fault (List (K × V)) → FaultyStore K V → Prop}
    (hfault : ∀ f fs, Q (.error f) ⟨putAll s.entries (bw.take f.landed), fs⟩)
    (hstage : ∀ fs, Q (.ok (bw ++ [(k, v)])) ⟨s.entries, fs⟩) : wp (stage bw k v) Q R s :=
  wp_next hfault hstage

theorem wp_commit (hfault : ∀ f fs, Q (some f) ⟨putAll s.entries (bw.take f.landed), fs⟩)
    (hcommit : ∀ fs, Q none ⟨putAll s.entries bw, fs⟩) : wp (commit bw) Q R s :=
  wp_next hfault hcommit

/-! A store without failures. -/

@[simp] theorem read_sound (m : GoMap K V) (k : K) :
    read k (sound m) = (.ok (.ok (m.lookup k)), sound m) := rfl

end

/-! ## 4. What is kept of the entries -/

/-- However `x` ends, the entries still meet `I`. -/
def Keeps (I : GoMap K V → Prop) (x : Proc (FaultyStore K V) A) : Prop :=
  ∀ s, I s.entries → I (x s).2.entries

namespace Keeps

variable {I : GoMap K V → Prop}

variable {x : Proc (FaultyStore K V) A} {f : B → Proc (FaultyStore K V) A}

theorem of_wp {s : FaultyStore K V}
    (h : wp x (fun _ s' => I s'.entries) (fun s' => I s'.entries) s) : I (x s).2.entries :=
  wp_state.mp h

theorem to_wp {s : FaultyStore K V} (h : Keeps I x) (hs : I s.entries) :
    wp x (fun _ s' => I s'.entries) (fun s' => I s'.entries) s :=
  wp_state.mpr (h s hs)

theorem pure (a : A) : Keeps I (Pure.pure a : Proc (FaultyStore K V) A) := fun _ h => h

theorem ofGo (g : Go A) : Keeps I (ofGo g) := fun _ h => h

theorem bind {x : Proc (FaultyStore K V) B} (hx : Keeps I x) (hf : ∀ b, Keeps I (f b)) :
    Keeps I (x >>= f) := by
  intro s hs
  have hxs := hx s hs
  simp only [Bind.bind]
  cases hr : x s with
  | mk r s' =>
    rw [hr] at hxs
    cases r with
    | ok b => exact hf b s' hxs
    | error p => exact hxs

/-- A call that returns an error or none, and what follows on either. -/
theorem bindErr {ε : Type} {x : Proc (FaultyStore K V) (Option ε)}
    {f : Option ε → Proc (FaultyStore K V) A} (hx : Keeps I x) (hsome : ∀ e, Keeps I (f (some e)))
    (hnone : Keeps I (f none)) : Keeps I (x >>= f) :=
  hx.bind fun r => r.rec hnone hsome

/-- What follows a computation knows its result. -/
theorem ofGo_bind {g : Go B} (h : ∀ b, g = .ok b → Keeps I (f b)) :
    Keeps I (Proc.ofGo g >>= f) := by
  cases g with
  | error p => exact fun s hs => hs
  | ok b => exact h b rfl

theorem ite {c : Prop} [Decidable c] {y : Proc (FaultyStore K V) A} (hx : Keeps I x)
    (hy : Keeps I y) : Keeps I (if c then x else y) := by
  by_cases h : c
  · rw [if_pos h]
    exact hx
  · rw [if_neg h]
    exact hy

variable [DecidableEq K]

theorem read (k : K) : Keeps I (FaultyStore.read k : Proc (FaultyStore K V) _) := by
  intro s hs
  refine of_wp (wp_read (fun f fs => ?_) fun fs => ?_)
  · exact hs
  · exact hs

theorem write {k : K} {v : V} (h : ∀ m, I m → I (m.insert k v)) :
    Keeps I (FaultyStore.write k v) := by
  intro s hs
  refine of_wp (wp_write (fun f fs => ?_) fun fs => ?_)
  · exact hs
  · exact h _ hs

end Keeps

end FaultyStore

end GoMoi
