/-
  File:      GoMoi/State/SystemObject.lean
  Subject:   The copies of the system object and the validator list they share
             (`state/system_object.go`, `state/system_setters.go`).

  `Copy` lets the new object hold the slice of the old one and counts the sharing in a `reference`
  that both point to. A setter that finds more than one sharer copies the validators first, counts
  itself off and goes on with a reference of its own; one that does not writes in place. Two of
  the setters can leave between the new reference and the assignment of the copied list:
  `UpdateValidator` when the index is out of range, `UpdateForEveryValidator` when the callback
  fails. The object then keeps the shared slice under a reference that says it is alone.

  * `Validator`, `Store` (validators, arrays, references), `SystemObject`, `World` -- all copies;
  * `Plain`, `plainStep` -- the same calls where `Copy` copies everything.

  The embedded `*Object` is copied by `Copy` and has a model of its own; the genesis time is read by
  none of these functions. Counters do not wrap: each count stands for an object in memory.
-/
import GoMoi.Common.Types
import GoMoi.Lib.RefCount
import GoMoi.Lib.Run
import GoMoi.Lib.Slices

namespace GoMoi.SystemCopies

open RefCount

/-! ## 1. The data -/

/-- `type Validator struct`. An amount may be nil, the removals of an epoch are not. -/
structure Validator where
  id : Nat
  activeStake : Option Int
  inactiveStake : Option Int
  socialTokens : Option Int
  behaviourTokens : Option Int
  pendingStakeAdditions : Option Int
  rewards : Option Int
  kramaID : KramaID
  walletAddress : Identifier
  consensusPubKey : Bytes
  kycProof : Bytes
  pendingStakeRemovals : GoMap Nat Int
  kycStatus : UInt8

/-- `type fieldIndex int`. -/
inductive FieldIndex where
  | totalValidators
  | genesisTime
  | validators
  deriving DecidableEq, Repr

/-- The fields of a system object that say what `Commit` has to write. `Copy` gives every object its
    own maps. -/
structure Dirty where
  totalValidators : Nat
  dirtyFields : List FieldIndex
  dirtyIndices : GoMap FieldIndex (List Nat)

namespace Dirty

def markFieldAsDirty (d : Dirty) (field : FieldIndex) : Dirty :=
  if field ∈ d.dirtyFields then d else { d with dirtyFields := d.dirtyFields ++ [field] }

def markIndexAsDirty (d : Dirty) (field : FieldIndex) (index : List Nat) : Dirty :=
  { d with dirtyIndices :=
      d.dirtyIndices.insert field ((d.dirtyIndices.lookup field).getD [] ++ index) }

/-- After `AppendValidator`. -/
def appended (d : Dirty) : Dirty :=
  let d := { d with totalValidators := d.totalValidators + 1 }
  let d := (d.markFieldAsDirty .validators).markFieldAsDirty .totalValidators
  d.markIndexAsDirty .validators [d.totalValidators - 1]

/-- After `UpdateValidator` and `UpdateForEveryValidator`. -/
def updated (d : Dirty) (index : List Nat) : Dirty :=
  (d.markFieldAsDirty .validators).markIndexAsDirty .validators index

/-- After `SetValidators`. -/
def replaced (d : Dirty) (n : Nat) : Dirty :=
  let d := { d with totalValidators := n }
  let d := (d.markFieldAsDirty .validators).markFieldAsDirty .totalValidators
  d.markIndexAsDirty .validators (List.range n)

end Dirty

/-- What the system objects point to. -/
structure Store where
  validators : Cells Validator
  arrays : Cells (Backing (Ptr Validator))
  references : Cells Nat

/-- `type SystemObject struct`: the validators, the reference for `fieldValidators` in
    `sharedFieldReferences`, and whether the object has the finalizer that `Copy` sets. -/
structure SystemObject where
  vals : Slice (Ptr Validator)
  dirty : Dirty
  reference : Ptr Nat
  finalizer : Bool

/-- What `Validators()` shows. -/
def Store.list (st : Store) (vals : Slice (Ptr Validator)) : List Validator :=
  (vals.elems st.arrays).filterMap st.validators.read

/-! ## 2. The functions -/

/-- New validators in memory. -/
def Store.newValidators (st : Store) (vs : List Validator) : List (Ptr Validator) × Store :=
  match vs with
  | [] => ([], st)
  | v :: vs =>
    let p := st.validators.alloc v
    let rest := newValidators { st with validators := p.2 } vs
    (p.1 :: rest.1, rest.2)

/-- A new slice with new validators. -/
def Store.newSlice (st : Store) (vs : List Validator) : Slice (Ptr Validator) × Store :=
  let ps := st.newValidators vs
  let s := Slice.make ps.1 ps.2.arrays
  (s.1, { ps.2 with arrays := s.2 })

/-- `&reference{refs: 1}`. -/
def Store.newReference (st : Store) : Ptr Nat × Store :=
  ((st.references.alloc 1).1, { st with references := (st.references.alloc 1).2 })

/-- `NewSystemObject`. -/
def newSystemObject (st : Store) : SystemObject × Store :=
  let vals := st.newSlice []
  let ref := vals.2.newReference
  ({ vals := vals.1, dirty := ⟨0, [], ∅⟩, reference := ref.1, finalizer := false }, ref.2)

namespace SystemObject

/-- `copyValidators`: `Validator.Copy` gives every amount, slice and map of a validator memory of
    its own. -/
def copyValidators (so : SystemObject) (st : Store) : Slice (Ptr Validator) × Store :=
  st.newSlice (st.list so.vals)

/-- `Copy`. -/
def copy (so : SystemObject) (st : Store) : SystemObject × Store :=
  ({ so with finalizer := true },
    { st with references := st.references.modify so.reference (· + 1) })

/-- The finalizer of a copy. -/
def release (so : SystemObject) (st : Store) : Store :=
  if so.finalizer then { st with references := st.references.modify so.reference (· - 1) } else st

/-- The list a setter goes on with: its own copy under a reference of its own if the list is shared,
    else the list itself. The object does not hold the copy yet. -/
def writable (so : SystemObject) (st : Store) : Slice (Ptr Validator) × SystemObject × Store :=
  if refs st.references so.reference > 1 then
    let vs := so.copyValidators st
    let st := { vs.2 with references := vs.2.references.modify so.reference (· - 1) }
    let ref := st.newReference
    (vs.1, { so with reference := ref.1 }, ref.2)
  else
    (so.vals, so, st)

/-- `SetValidators`, with a slice made for the call. -/
def setValidators (so : SystemObject) (vals : List Validator) (st : Store) : SystemObject × Store :=
  let vs := st.newSlice vals
  ({ so with vals := vs.1, dirty := so.dirty.replaced vals.length }, vs.2)

/-- `AppendValidator`, with a validator made for the call. -/
def appendValidator (so : SystemObject) (val : Validator) (spare : Nat) (st : Store) :
    SystemObject × Store :=
  let w := so.writable st
  let p := w.2.2.validators.alloc val
  let vs := w.1.append p.1 spare w.2.2.arrays
  ({ w.2.1 with vals := vs.1, dirty := so.dirty.appended },
    { w.2.2 with validators := p.2, arrays := vs.2 })

/-- `UpdateValidator`, with a validator made for the call. -/
def updateValidator (so : SystemObject) (index : Nat) (val : Validator) (st : Store) :
    Go Unit × SystemObject × Store :=
  let w := so.writable st
  let p := w.2.2.validators.alloc val
  if index < w.1.len then
    (.ok (), { w.2.1 with vals := w.1, dirty := so.dirty.updated [index] },
      { w.2.2 with validators := p.2, arrays := w.1.store index p.1 w.2.2.arrays })
  else
    (.error .indexOutOfRange, w.2.1, { w.2.2 with validators := p.2 })

/-- A callback of `UpdateForEveryValidator`. It is told the validators it was called with so far,
    hence its index, since a closure may remember them; it says what it makes of the validator it
    is called with, and whether it changed it or fails. -/
abbrev Callback : Type := List Validator → Validator → Validator × Except Err Bool

/-- The loop of `UpdateForEveryValidator`: the modified indices, unless the callback failed. -/
def everyValidator (f : Callback) (seen : List Validator) :
    List (Ptr Validator) → Cells Validator → Except Err (List Nat) × Cells Validator
  | [], c => (.ok [], c)
  | p :: ps, c =>
    match c.read p with
    | none => (.ok [], c)
    | some v =>
      let c := c.modify p fun _ => (f seen v).1
      match (f seen v).2 with
      | .error err => (.error err, c)
      | .ok changed =>
        let rest := everyValidator f (seen ++ [v]) ps c
        (rest.1.map fun is => if changed then seen.length :: is else is, rest.2)

/-- `UpdateForEveryValidator`. -/
def updateForEveryValidator (so : SystemObject) (f : Callback) (st : Store) :
    Except Err Unit × SystemObject × Store :=
  let w := so.writable st
  let loop := everyValidator f [] (w.1.elems w.2.2.arrays) w.2.2.validators
  let st := { w.2.2 with validators := loop.2 }
  match loop.1 with
  | .error err => (.error err, w.2.1, st)
  | .ok modified => (.ok (), { w.2.1 with vals := w.1, dirty := so.dirty.updated modified }, st)

end SystemObject

/-! ## 3. All copies -/

structure World where
  objects : Family SystemObject
  store : Store

/-- A call on the object with the number `o`. -/
inductive Event where
  | newSystemObject
  | copy (o : Nat)
  | release (o : Nat)
  | setValidators (o : Nat) (vals : List Validator)
  | appendValidator (o : Nat) (val : Validator) (spare : Nat)
  | updateValidator (o : Nat) (index : Nat) (val : Validator)
  | updateForEveryValidator (o : Nat) (f : SystemObject.Callback)

namespace World

def start : World := ⟨[], ⟨⟨[]⟩, ⟨[]⟩, ⟨[]⟩⟩⟩

/-- A call on an object, if it is there. -/
def onObject (w : World) (o : Nat) (call : SystemObject → World) : World :=
  match w.objects.live o with
  | none => w
  | some so => call so

/-- The object and the memory after a call on it. -/
def write (w : World) (o : Nat) (r : SystemObject × Store) : World :=
  ⟨w.objects.put o r.1, r.2⟩

def step (w : World) : Event → World
  | .newSystemObject =>
    ⟨w.objects.add (SystemCopies.newSystemObject w.store).1,
      (SystemCopies.newSystemObject w.store).2⟩
  | .copy o => w.onObject o fun so => ⟨w.objects.add (so.copy w.store).1, (so.copy w.store).2⟩
  | .release o => w.onObject o fun so => ⟨w.objects.free o, so.release w.store⟩
  | .setValidators o vals => w.onObject o fun so => w.write o (so.setValidators vals w.store)
  | .appendValidator o val spare =>
    w.onObject o fun so => w.write o (so.appendValidator val spare w.store)
  | .updateValidator o index val =>
    w.onObject o fun so => w.write o (so.updateValidator index val w.store).2
  | .updateForEveryValidator o f =>
    w.onObject o fun so => w.write o (so.updateForEveryValidator f w.store).2

/-- The validator list of the object `o`. -/
def validators (w : World) (o : Nat) : Option (List Validator) :=
  (w.objects.live o).map fun so => w.store.list so.vals

end World

/-! ## 4. The same calls with deep copies -/

/-- A system object that shares nothing. -/
structure Plain where
  vals : List Validator
  dirty : Dirty

namespace Plain

/-- The loop of `UpdateForEveryValidator`, with the list as it is when the loop ends or fails. -/
def everyValidator (f : SystemObject.Callback) (seen : List Validator) :
    List Validator → Except Err (List Nat) × List Validator
  | [] => (.ok [], [])
  | v :: vs =>
    match (f seen v).2 with
    | .error err => (.error err, (f seen v).1 :: vs)
    | .ok changed =>
      let rest := everyValidator f (seen ++ [v]) vs
      (rest.1.map fun is => if changed then seen.length :: is else is, (f seen v).1 :: rest.2)

def setValidators (so : Plain) (vals : List Validator) : Plain :=
  ⟨vals, so.dirty.replaced vals.length⟩

def appendValidator (so : Plain) (val : Validator) : Plain := ⟨so.vals ++ [val], so.dirty.appended⟩

def updateValidator (so : Plain) (index : Nat) (val : Validator) : Plain :=
  if index < so.vals.length then ⟨so.vals.set index val, so.dirty.updated [index]⟩ else so

def updateForEveryValidator (so : Plain) (f : SystemObject.Callback) : Plain :=
  let loop := everyValidator f [] so.vals
  match loop.1 with
  | .error _ => { so with vals := loop.2 }
  | .ok modified => ⟨loop.2, so.dirty.updated modified⟩

/-- A call on an object, if it is there. -/
def onObject (w : Family Plain) (o : Nat) (call : Plain → Family Plain) : Family Plain :=
  match w.live o with
  | none => w
  | some so => call so

def step (w : Family Plain) : Event → Family Plain
  | .newSystemObject => w.add ⟨[], ⟨0, [], ∅⟩⟩
  | .copy o => onObject w o w.add
  | .release o => onObject w o fun _ => w.free o
  | .setValidators o vals => onObject w o fun so => w.put o (so.setValidators vals)
  | .appendValidator o val _ => onObject w o fun so => w.put o (so.appendValidator val)
  | .updateValidator o index val => onObject w o fun so => w.put o (so.updateValidator index val)
  | .updateForEveryValidator o f => onObject w o fun so => w.put o (so.updateForEveryValidator f)

/-- The objects after some calls. -/
def after (es : List Event) : Family Plain := es.foldl step []

end Plain

end GoMoi.SystemCopies
