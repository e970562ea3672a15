/-
  File:      GoMoi/Syncer/SnapSync.lean
  Subject:   Fetching and storing the snapshot of an account (`fetchSnapShot` of
             `syncer/forage/syncer.go`, `StoreAccountSnapShot` of `storage/manager.go`,
             `WriteBuffer` of `storage/db/badger/batch_writer.go`).

  A peer announces the size of a buffer, sends it in parts and says that it is complete; the node
  then writes the buffer to its database, and so on until the peer says how much it has sent in all.
  The buffer is a sequence of slices, each an encoded key and value. The layer that knows the
  account does not look into the buffer, and the layer that decodes it does not know the account.

  * `Receives` -- the protocol as a machine that only moves, with what it has stored so far;
  * `snapConfined_iff` -- the streams on which only keys of the account are written and nothing
    panics;
  * `foreign_snapshot` -- three streams on which it is not so.
-/
import GoMoi.Lib.Run
import GoMoi.Storage.Manager

namespace GoMoi

open FaultyStore Disk Proc List

/-! ## 1. Storing a buffer -/

/-- What is not the node's own code: the largest slice that `make` can give; the slices that
    `SliceIterate` hands out of a buffer, and the panic it ends with if the buffer is cut off; the
    decoder of one `pb.KV`; and which entries the database does not take (an empty key, a reserved
    one, one that is too long). -/
structure SnapEnv where
  maxAlloc : Nat
  slices : Bytes → List Bytes × Option Panic
  unmarshal : Bytes → Except Err (Bytes × Bytes)
  refused : Bytes × Bytes → Option Err

section

variable (X : SnapEnv)

/-- What `WriteBuffer` does with one slice. -/
def writeSlice (slice : Bytes) (bw : Batch) : Proc Disk (Except Err Batch) :=
  match X.unmarshal slice with
  | .error e => pure (.error e)
  | .ok kv =>
    match X.refused kv with
    | some e => pure (.error (.wrap e "failed to write list"))
    | none => do
      match ← Disk.set bw kv.1 kv.2 with
      | .error e => pure (.error (.wrap e "failed to write list"))
      | .ok bw => pure (.ok bw)

/-- The iteration: a slice is cut out of the buffer when its turn comes. -/
def writeSlices (cut : Option Panic) : List Bytes → Batch → Proc Disk (Except Err Batch)
  | [], bw => match cut with
    | none => pure (.ok bw)
    | some p => ofGo (.error p)
  | slice :: rest, bw => do
    match ← writeSlice X slice bw with
    | .error e => pure (.error e)
    | .ok bw => writeSlices cut rest bw

/-- `WriteBuffer`. The capacity of the buffer is its length: see `receive`. -/
def writeBuffer (buf : Bytes) : Proc Disk (Except Err Batch) :=
  writeSlices X (X.slices buf).2 (X.slices buf).1 []

/-- `StoreAccountSnapShot`. -/
def storeAccountSnapShot (entries : Bytes) : Proc Disk (Option Err) := do
  match ← writeBuffer X entries with
  | .error e => pure (some e)
  | .ok bw => flush bw

/-! ## 2. Receiving a stream -/

/-- `type SnapResponse struct`; of the meta information only the total size is read. -/
structure SnapResponse where
  metaInfo : Option UInt64
  data : Bytes
  chunkSize : UInt64
  start : Bool
  finish : Bool
  deriving DecidableEq, Repr

/-- `type Snapshot struct`, and the size that was announced. -/
structure SnapState where
  entries : Bytes
  expectedSize : UInt64
  totalSnapSize : UInt64
  deriving DecidableEq, Repr

namespace SnapState

def new : SnapState := ⟨[], 0, 0⟩

/-- A new buffer, of the size that is announced. -/
def begin (st : SnapState) (m : SnapResponse) : SnapState :=
  { st with entries := [], expectedSize := m.chunkSize }

/-- One more part. -/
def part (st : SnapState) (m : SnapResponse) : SnapState :=
  { st with
    entries := st.entries ++ m.data
    totalSnapSize := st.totalSnapSize + UInt64.ofNat m.data.length }

/-- The buffer has the size that was announced. -/
def full (st : SnapState) : Bool := st.expectedSize = UInt64.ofNat st.entries.length

/-- The message says that what came is the entire snapshot. -/
def entire (st : SnapState) (m : SnapResponse) : Bool := m.metaInfo = some st.totalSnapSize

end SnapState

/-- `make([]byte, 0, size)`. -/
def makeEntries (size : UInt64) : Go Unit :=
  if size.toNat ≤ X.maxAlloc then .ok () else .error .makeslice

/-- The loop over `respChan`. After the messages the channel is closed or the context expires, which
    is what `ending` says. A buffer that is `full` has never outgrown the slice it was made with, so
    that its capacity is its length. -/
def receive (ending : Err) : List SnapResponse → SnapState → Bool → Proc Disk (Bool × Option Err)
  | [], _, isSnapStored => pure (isSnapStored, some ending)
  | m :: ms, st, isSnapStored =>
    if m.start then do
      ofGo (makeEntries X m.chunkSize)
      receive ending ms (st.begin m) isSnapStored
    else if m.finish then
      if st.full then do
        match ← storeAccountSnapShot X st.entries with
        | some e => pure (isSnapStored, some e)
        | none => receive ending ms st true
      else pure (isSnapStored, some (.new "packets are missing"))
    else if st.entire m then pure (isSnapStored, none)
    else receive ending ms (st.part m) isSnapStored

/-- How `Stream` ends, and whether before the loop does. -/
structure StreamEnd where
  err : Option Err
  first : Bool

/-- `Wait`: the first error counts. -/
def StreamEnd.wait (e : StreamEnd) (loop : Option Err) : Option Err :=
  if e.first then e.err.or loop else loop.or e.err

/-- `fetchSnapShot`, for a peer whose identifier can or cannot be decoded. -/
def fetchSnapShot (peer : Option Err) (stream : StreamEnd) (ending : Err)
    (ms : List SnapResponse) : Proc Disk (Bool × Option Err) :=
  match peer with
  | some e => pure (false, some (.wrap e "failed to decode peer ID"))
  | none => do
    let r ← receive X ending ms .new false
    pure (r.1, stream.wait r.2)

end

/-! ## 3. What a buffer says -/

/-- The entries that are taken from a list of slices. -/
def Taken (X : SnapEnv) : List Bytes → Batch → Prop :=
  Forall₂ fun slice kv => X.unmarshal slice = .ok kv ∧ X.refused kv = none

/-- The buffer is a sequence of slices with these entries. -/
def Decodes (X : SnapEnv) (buf : Bytes) (kvs : Batch) : Prop :=
  (X.slices buf).2 = none ∧ Taken X (X.slices buf).1 kvs

/-- After some slices whose entries are taken, the buffer is cut off. -/
def Overruns (X : SnapEnv) (buf : Bytes) : Prop :=
  (X.slices buf).2 ≠ none ∧ ∃ kvs, Taken X (X.slices buf).1 kvs

section

variable {X : SnapEnv} {bw : Batch} {s : Disk}

/-- A slice that is taken leaves the store as it is. -/
theorem wp_writeSlice (slice : Bytes) :
    wp (writeSlice X slice bw)
      (fun r s' => ∀ bw', r = .ok bw' → s'.entries = s.entries ∧ ∃ kv, bw' = bw ++ [kv] ∧
        X.unmarshal slice = .ok kv ∧ X.refused kv = none)
      (fun _ => False) s := by
  unfold writeSlice
  split
  case h_1 => exact nofun
  case h_2 kv hkv =>
    split
    case h_1 => exact nofun
    case h_2 haccepted =>
      rw [wp_bind]
      refine wp_set nofun fun fs bw' h => ?_
      cases h
      exact ⟨rfl, kv, rfl, hkv, haccepted⟩

/-- **A run over the slices**: it returns a batch only if the buffer is not cut off, and panics only
    if it is, in both cases with the entries of all slices. -/
theorem wp_writeSlices (cut : Option Panic) (slices : List Bytes) :
    wp (writeSlices X cut slices bw)
      (fun r s' => ∀ bw', r = .ok bw' → s'.entries = s.entries ∧ cut = none ∧
        ∃ kvs, Taken X slices kvs ∧ bw' = bw ++ kvs)
      (fun _ => cut ≠ none ∧ ∃ kvs, Taken X slices kvs) s := by
  induction slices generalizing bw s with
  | nil =>
    cases cut with
    | none =>
      rintro bw' ⟨⟩
      exact ⟨rfl, rfl, [], .nil, (append_nil bw).symm⟩
    | some p => exact ⟨Option.some_ne_none p, [], .nil⟩
  | cons slice slices ih =>
    show wp (writeSlice X slice bw >>= _) _ _ s
    refine wp_seq_total (wp_writeSlice slice) fun r s1 h => ?_
    rcases r with e | bw1
    · exact nofun
    obtain ⟨hs, kv, rfl, hkv⟩ := h bw1 rfl
    refine wp_mono ih (fun r s2 h => ?_) fun _ h => ?_
    · intro bw' hbw'
      obtain ⟨hs', hcut, kvs, hkvs, rfl⟩ := h bw' hbw'
      exact ⟨hs'.trans hs, hcut, kv :: kvs, .cons hkv hkvs, append_assoc bw [kv] kvs⟩
    · obtain ⟨hcut, kvs, hkvs⟩ := h
      exact ⟨hcut, kv :: kvs, .cons hkv hkvs⟩

theorem wp_writeBuffer (buf : Bytes) :
    wp (writeBuffer X buf)
      (fun r s' => ∀ bw', r = .ok bw' → s'.entries = s.entries ∧ Decodes X buf bw')
      (fun _ => Overruns X buf) s := by
  refine wp_mono (wp_writeSlices _ _) (fun r s' h bw' hbw' => ?_) fun _ h => h
  obtain ⟨hs, hcut, kvs, hkvs, rfl⟩ := h bw' hbw'
  exact ⟨hs, hcut, hkvs⟩

/-- **A buffer that is stored is a sequence of slices whose entries are then in the store**, and
    storing panics only on a buffer that is cut off. -/
theorem wp_storeAccountSnapShot (buf : Bytes) :
    wp (storeAccountSnapShot X buf)
      (fun r s' => r = none → ∃ kvs, Decodes X buf kvs ∧ s'.entries = putAll s.entries kvs)
      (fun _ => Overruns X buf) s := by
  refine wp_seq (wp_writeBuffer buf) fun r s1 h => ?_
  rcases r with e | bw
  · exact nofun
  obtain ⟨hs, hdec⟩ := h bw rfl
  refine wp_flush nofun fun fs _ => ?_
  exact ⟨bw, hdec, by rw [← hs]⟩

variable {kvs : Batch} {buf : Bytes}

/-- On a store that does not fail, the entries of the slices are collected. -/
theorem writeSlices_sound {slices : List Bytes} (h : Taken X slices kvs) (cut : Option Panic)
    (bw : Batch) (m : Entries) :
    writeSlices X cut slices bw (sound m) = writeSlices X cut [] (bw ++ kvs) (sound m) := by
  induction h generalizing bw with
  | nil => rw [append_nil]
  | @cons slice kv slices kvs hkv h ih =>
    have hslice : writeSlice X slice bw (sound m) = (.ok (.ok (bw ++ [kv])), sound m) := by
      unfold writeSlice
      rw [hkv.1]
      show (match X.refused kv with | some e => _ | none => _ : Proc Disk _) (sound m) = _
      rw [hkv.2]
      rfl
    show (writeSlice X slice bw >>= _) (sound m) = _
    rw [bind_of_ok hslice]
    show writeSlices X cut slices (bw ++ [kv]) (sound m) = _
    rw [ih, append_assoc, singleton_append]

theorem storeAccountSnapShot_sound (h : Decodes X buf kvs) (m : Entries) :
    storeAccountSnapShot X buf (sound m) = (.ok none, sound (putAll m kvs)) := by
  have hwrite : writeBuffer X buf (sound m) = (.ok (.ok kvs), sound m) := by
    rw [writeBuffer, writeSlices_sound h.2, h.1]
    rfl
  exact (bind_of_ok hwrite).trans rfl

theorem storeAccountSnapShot_overruns (h : Overruns X buf) (m : Entries) :
    ∃ p, storeAccountSnapShot X buf (sound m) = (.error p, sound m) := by
  obtain ⟨hcut, kvs, hkvs⟩ := h
  obtain ⟨p, hp⟩ := Option.ne_none_iff_exists'.mp hcut
  refine ⟨p, bind_of_error ?_⟩
  rw [writeBuffer, writeSlices_sound hkvs, hp]
  rfl

end

/-! ## 4. The protocol -/

/-- What a receiver knows, and what it has stored so far. -/
structure SnapReceiver extends SnapState where
  stored : Batch

def SnapReceiver.new : SnapReceiver := ⟨.new, []⟩

/-- **One message that is followed by another**: a new buffer, a buffer that is stored, or a
    part. -/
inductive Receives (X : SnapEnv) (r : SnapReceiver) (m : SnapResponse) : SnapReceiver → Prop
  | begin (hstart : m.start = true) (halloc : m.chunkSize.toNat ≤ X.maxAlloc) :
      Receives X r m ⟨r.toSnapState.begin m, r.stored⟩
  | store {kvs : Batch} (hstart : m.start = false) (hfinish : m.finish = true)
      (hfull : r.full = true) (hkvs : Decodes X r.entries kvs) :
      Receives X r m ⟨r.toSnapState, r.stored ++ kvs⟩
  | part (hstart : m.start = false) (hfinish : m.finish = false) (hentire : r.entire m = false) :
      Receives X r m ⟨r.toSnapState.part m, r.stored⟩

/-- The message ends the stream. -/
structure Completes (r : SnapReceiver) (m : SnapResponse) : Prop where
  start : m.start = false
  finish : m.finish = false
  entire : r.entire m = true

/-- The message makes the receiver panic: a buffer that cannot be had, or one that is cut off. -/
inductive Crashes (X : SnapEnv) (r : SnapReceiver) (m : SnapResponse) : Prop
  | alloc (hstart : m.start = true) (halloc : X.maxAlloc < m.chunkSize.toNat)
  | overrun (hstart : m.start = false) (hfinish : m.finish = true) (hfull : r.full = true)
      (h : Overruns X r.entries)

/-- The receiver comes to the message `m` in the state `r'`. -/
def Reaches (X : SnapEnv) (r : SnapReceiver) (ms : List SnapResponse) (r' : SnapReceiver)
    (m : SnapResponse) : Prop :=
  ∃ before after, ms = before ++ m :: after ∧ Run (Receives X) r before r'

section

variable {X : SnapEnv} (ending : Err) {r : SnapReceiver} {m : SnapResponse} {ms : List SnapResponse}

theorem Reaches.here : Reaches X r (m :: ms) r m := ⟨[], ms, rfl, .start⟩

variable {r' : SnapReceiver}

theorem Reaches.step {r1 : SnapReceiver} {m' : SnapResponse} (h : Receives X r m r1)
    (hr : Reaches X r1 ms r' m') : Reaches X r (m :: ms) r' m' := by
  obtain ⟨before, after, rfl, hrun⟩ := hr
  exact ⟨m :: before, after, rfl, .cons h hrun⟩

/-- **The loop is the protocol**: if it returns `nil`, the stream was completed, and what is in the
    store more is what the receiver has stored; and it panics only at a message that crashes. -/
theorem wp_receive (ms : List SnapResponse) (r : SnapReceiver) (isSnapStored : Bool) (m0 : Entries)
    (s : Disk) (hs : s.entries = putAll m0 r.stored) :
    wp (receive X ending ms r.toSnapState isSnapStored)
      (fun a s' => a.2 = none → ∃ r' m, Reaches X r ms r' m ∧ Completes r' m ∧
        s'.entries = putAll m0 r'.stored)
      (fun _ => ∃ r' m, Reaches X r ms r' m ∧ Crashes X r' m) s := by
  induction ms generalizing r isSnapStored s with
  | nil => exact nofun
  | cons m ms ih =>
    -- what the rest of the loop does is what the whole loop does
    have hrest : ∀ r1 stored1 s1, Receives X r m r1 → s1.entries = putAll m0 r1.stored →
        wp (receive X ending ms r1.toSnapState stored1)
          (fun a s' => a.2 = none → ∃ r' m', Reaches X r (m :: ms) r' m' ∧ Completes r' m' ∧
            s'.entries = putAll m0 r'.stored)
          (fun _ => ∃ r' m', Reaches X r (m :: ms) r' m' ∧ Crashes X r' m') s1 := by
      intro r1 stored1 s1 hstep hs1
      refine wp_mono (ih r1 stored1 s1 hs1) (fun a s' h ha => ?_) fun s' h => ?_
      · obtain ⟨r', m', hreach, hrest⟩ := h ha
        exact ⟨r', m', hreach.step hstep, hrest⟩
      · obtain ⟨r', m', hreach, hcrash⟩ := h
        exact ⟨r', m', hreach.step hstep, hcrash⟩
    unfold receive
    rw [wp_ite]
    refine ⟨fun hstart => ?_, fun hstart => ?_⟩
    · rw [wp_bind, wp_ofGo]
      refine ⟨fun u hu => ?_, fun p hp => ?_⟩
      · have halloc : m.chunkSize.toNat ≤ X.maxAlloc := by
          by_contra hgt
          rw [makeEntries, if_neg hgt] at hu
          cases hu
        exact hrest _ _ _ (.begin hstart halloc) hs
      · refine ⟨r, m, .here, .alloc hstart ?_⟩
        by_contra hle
        rw [makeEntries, if_pos (Nat.not_lt.mp hle)] at hp
        cases hp
    · rw [Bool.not_eq_true] at hstart
      rw [wp_ite]
      refine ⟨fun hfinish => ?_, fun hfinish => ?_⟩
      · rw [wp_ite]
        refine ⟨fun hfull => ?_, nofun⟩
        rw [wp_bind]
        refine wp_mono (wp_storeAccountSnapShot r.entries) (fun e s1 h => ?_) fun _ h => ?_
        · cases e with
          | some e => exact nofun
          | none =>
            obtain ⟨kvs, hkvs, hs1⟩ := h rfl
            refine hrest ⟨r.toSnapState, r.stored ++ kvs⟩ _ _ (.store hstart hfinish hfull hkvs) ?_
            rw [hs1, hs, putAll, putAll, putAll, foldl_append]
        · exact ⟨r, m, .here, .overrun hstart hfinish hfull h⟩
      · rw [Bool.not_eq_true] at hfinish
        rw [wp_ite]
        refine ⟨fun hentire _ => ?_, fun hentire => ?_⟩
        · exact ⟨r, m, .here, ⟨hstart, hfinish, hentire⟩, hs⟩
        · exact hrest _ _ _ (.part hstart hfinish (Bool.not_eq_true _ ▸ hentire)) hs

/-- On a store that does not fail, a message is received. -/
theorem receive_step (h : Receives X r m r') (ms : List SnapResponse) (isSnapStored : Bool)
    (m0 : Entries) :
    ∃ stored', receive X ending (m :: ms) r.toSnapState isSnapStored (sound (putAll m0 r.stored)) =
      receive X ending ms r'.toSnapState stored' (sound (putAll m0 r'.stored)) := by
  cases h with
  | begin hstart halloc =>
    refine ⟨isSnapStored, ?_⟩
    rw [receive, if_pos hstart, makeEntries, if_pos halloc]
    rfl
  | @store kvs hstart hfinish hfull hkvs =>
    refine ⟨true, ?_⟩
    rw [receive, if_neg (by rw [hstart]; decide), if_pos hfinish, if_pos hfull,
      bind_of_ok (storeAccountSnapShot_sound hkvs _)]
    rw [putAll, putAll, putAll, foldl_append]
  | part hstart hfinish hentire =>
    refine ⟨isSnapStored, ?_⟩
    rw [receive, if_neg (by rw [hstart]; decide), if_neg (by rw [hfinish]; decide),
      if_neg (by rw [hentire]; decide)]

/-- **On a store that does not fail, the loop follows the protocol.** -/
theorem receive_sound {before : List SnapResponse} (h : Run (Receives X) r before r')
    (after : List SnapResponse) (isSnapStored : Bool) (m0 : Entries) :
    ∃ stored', receive X ending (before ++ after) r.toSnapState isSnapStored
        (sound (putAll m0 r.stored)) =
      receive X ending after r'.toSnapState stored' (sound (putAll m0 r'.stored)) := by
  induction h generalizing after with
  | start => exact ⟨isSnapStored, rfl⟩
  | @snoc before r1 r' hrun m hstep ih =>
    obtain ⟨stored1, heq1⟩ := ih (m :: after)
    obtain ⟨stored', heq'⟩ := receive_step ending hstep after stored1 m0
    refine ⟨stored', ?_⟩
    rw [append_assoc, singleton_append, heq1, heq']

theorem receive_crashes (h : Crashes X r m) (ms : List SnapResponse) (isSnapStored : Bool)
    (m0 : Entries) :
    ∃ p, (receive X ending (m :: ms) r.toSnapState isSnapStored (sound m0)).1 = .error p := by
  cases h with
  | alloc hstart halloc =>
    refine ⟨.makeslice, ?_⟩
    rw [receive, if_pos hstart, makeEntries, if_neg (Nat.not_le.mpr halloc)]
    rfl
  | overrun hstart hfinish hfull h =>
    obtain ⟨p, hp⟩ := storeAccountSnapShot_overruns h m0
    refine ⟨p, ?_⟩
    rw [receive, if_neg (by rw [hstart]; decide), if_pos hfinish, if_pos hfull, bind_of_error hp]

end

/-! ## 5. Streams that stay within the account -/

/-- Keys that belong to the account. -/
def Owned (id : Identifier) (key : Bytes) : Prop := id.bytes <+: key

/-- **Fetching the snapshot of `id` from a peer that sends `ms` does not panic, and fails or leaves
    every key alone that does not belong to the account.** -/
def SnapConfined (X : SnapEnv) (id : Identifier) (ms : List SnapResponse) : Prop :=
  ∀ peer stream ending s, ∃ r s', fetchSnapShot X peer stream ending ms s = (.ok r, s') ∧
    (r.2 = none → ∀ k, ¬ Owned id k → s'.entries.lookup k = s.entries.lookup k)

/-- No message that is reached crashes the receiver, and if one ends the stream, what was stored
    until then belongs to the account. -/
structure SnapHarmless (X : SnapEnv) (id : Identifier) (ms : List SnapResponse) : Prop where
  steady : ∀ r m, Reaches X .new ms r m → ¬ Crashes X r m
  owned : ∀ r m, Reaches X .new ms r m → Completes r m → ∀ kv ∈ r.stored, Owned id kv.1

section

variable {X : SnapEnv} {id : Identifier} {ms : List SnapResponse}

theorem StreamEnd.wait_eq_none {e : StreamEnd} {loop : Option Err} (h : e.wait loop = none) :
    loop = none := by
  unfold StreamEnd.wait at h
  split at h
  case isTrue => exact (Option.or_eq_none_iff.mp h).2
  case isFalse => exact (Option.or_eq_none_iff.mp h).1

theorem SnapHarmless.confined (h : SnapHarmless X id ms) : SnapConfined X id ms := by
  intro peer stream ending s
  rcases peer with _ | e
  swap
  · exact ⟨_, s, rfl, nofun⟩
  have hwp := wp_receive (X := X) ending ms .new false s.entries s rfl
  cases hrun : receive X ending ms .new false s with
  | mk r s' =>
    unfold wp at hwp
    rw [show SnapReceiver.new.toSnapState = SnapState.new from rfl, hrun] at hwp
    rcases r with p | a
    · obtain ⟨r', m, hreach, hcrash⟩ := hwp
      exact absurd hcrash (h.steady r' m hreach)
    refine ⟨(a.1, stream.wait a.2), s', bind_of_ok hrun, fun hnone k hk => ?_⟩
    obtain ⟨r', m, hreach, hcomp, hs'⟩ := hwp (StreamEnd.wait_eq_none hnone)
    rw [hs']
    refine lookup_putAll_of_notMem fun kv hkv heq => hk ?_
    rw [← heq]
    exact h.owned r' m hreach hcomp kv hkv

theorem isSome_lookup_putAll {kvs : Batch} {kv : Bytes × Bytes} (h : kv ∈ kvs) (m : Entries) :
    ((putAll m kvs).lookup kv.1).isSome = true := by
  induction kvs generalizing m with
  | nil => cases h
  | cons w kvs ih =>
    obtain rfl | h := mem_cons.mp h
    · have hkept : ∀ w ∈ kvs, ∀ m' : Entries, (m'.lookup kv.1).isSome = true →
          ((m'.insert w.1 w.2).lookup kv.1).isSome = true := by
        intro w _ m' hm'
        rw [AList.lookup_isSome] at hm' ⊢
        exact (AList.mem_insert m').mpr (.inr hm')
      refine putAll_induction hkept ?_
      rw [AList.lookup_insert]
      rfl
    · exact ih h (m.insert w.1 w.2)

/-- **Only keys of the account are written and nothing panics exactly on the streams whose messages
    do not crash the receiver and which, if they are completed, store only such keys.** -/
theorem snapConfined_iff (X : SnapEnv) (id : Identifier) (ms : List SnapResponse) :
    SnapConfined X id ms ↔ SnapHarmless X id ms := by
  refine ⟨fun h => ⟨fun r m hreach hcrash => ?_, fun r m hreach hcomp kv hkv => ?_⟩,
    SnapHarmless.confined⟩
  · obtain ⟨before, after, rfl, hrun⟩ := hreach
    obtain ⟨a, s', heq, -⟩ := h none ⟨none, true⟩ (.new "response chan closed") (sound ∅)
    obtain ⟨stored', hloop⟩ := receive_sound (.new "response chan closed") hrun (m :: after) false ∅
    obtain ⟨p, hp⟩ := receive_crashes (.new "response chan closed") hcrash after stored'
      (putAll ∅ r.stored)
    obtain ⟨b, _, hb, -⟩ := bind_eq_ok heq
    rw [← hloop] at hp
    cases hp.symm.trans (congrArg Prod.fst hb)
  · obtain ⟨before, after, rfl, hrun⟩ := hreach
    by_contra hforeign
    obtain ⟨a, _, heq, hframe⟩ := h none ⟨none, true⟩ (.new "response chan closed") (sound ∅)
    obtain ⟨stored', hloop⟩ := receive_sound (.new "response chan closed") hrun (m :: after) false ∅
    rw [receive, if_neg (by rw [hcomp.start]; decide), if_neg (by rw [hcomp.finish]; decide),
      if_pos hcomp.entire] at hloop
    have hfetch : fetchSnapShot X none ⟨none, true⟩ (.new "response chan closed")
        (before ++ m :: after) (sound ∅) = (.ok (stored', none), sound (putAll ∅ r.stored)) :=
      (bind_of_ok hloop).trans rfl
    rw [hfetch] at heq
    cases heq
    have hsome := isSome_lookup_putAll hkv ∅
    rw [show (putAll ∅ r.stored).lookup kv.1 = _ from hframe rfl kv.1 hforeign] at hsome
    cases hsome

end

/-! ## 6. Streams that do not -/

namespace SnapSample

/-- A buffer of one slice, behind the four bytes of its length. A slice is a key and a last byte,
    the value. -/
def env : SnapEnv where
  maxAlloc := 281474976710656
  slices buf := if buf.length < 4 then ([], some .indexOutOfRange) else ([buf.drop 4], none)
  unmarshal slice := .ok (slice.dropLast, slice.drop (slice.length - 1))
  refused kv := if kv.1 = [] then some (.new "Key cannot be empty") else none

/-- The account that is fetched, and a record of another one. -/
def account : Identifier := ⟨1⟩

def foreignKey : Bytes := accountKey ⟨2⟩ ⟨9⟩

def announce (size : UInt64) : SnapResponse := ⟨none, [], size, true, false⟩

def data (bs : Bytes) : SnapResponse := ⟨none, bs, 0, false, false⟩

def closing : SnapResponse := ⟨none, [], 0, false, true⟩

def total (size : UInt64) : SnapResponse := ⟨some size, [], 0, false, false⟩

/-- One slice, with the record of the other account. -/
def foreign : List SnapResponse :=
  [announce 70, data ([0, 0, 0, 66] ++ foreignKey ++ [7]), closing, total 70]

def stream : StreamEnd := ⟨none, false⟩

def run (ms : List SnapResponse) : Except Panic (Bool × Option Err) × Disk :=
  fetchSnapShot env none stream (.new "response chan closed") ms (sound ∅)

end SnapSample

open SnapSample in
/-- **The snapshot of one account that brings the record of another; a buffer that ends within a
    length; a buffer that no node can have.** -/
theorem foreign_snapshot :
    ((run foreign).1 = .ok (true, none) ∧
      (run foreign).2.entries.lookup foreignKey = some [7] ∧ ¬ Owned account foreignKey) ∧
    (run [announce 3, data [0, 0, 0], closing]).1 = .error .indexOutOfRange ∧
    (run [announce 9223372036854775808]).1 = .error .makeslice := by
  refine ⟨⟨by rfl, by rfl, by unfold Owned; decide⟩, by rfl, by rfl⟩

end GoMoi
