/-
  File:      GoMoi/Syncer/Collector.lean
  Subject:   The collectors of the snapshot of an account (`storage/collector.go`).

  * **`accepted_iff`** -- the buffers after which no more was accepted than the maximum;
  * **`snapshot_arrives`** -- what is sent is received and stored;
  * **`snapshot_chunks`** -- a part of which something is lost on the way is not stored.
-/
import GoMoi.Syncer.SnapSync

namespace GoMoi

/-! ## 1. Keys and values -/

def maxMessageSize : Nat := 256 * 1024

/-- The parts of a buffer: the loop of `Send`, and what is left after it. -/
def dataMessages (snapData : Bytes) : List SnapResponse :=
  if maxMessageSize ≤ snapData.length then
    ⟨none, snapData.take maxMessageSize, 0, false, false⟩ ::
      dataMessages (snapData.drop maxMessageSize)
  else if snapData.length ≠ 0 then [⟨none, snapData, 0, false, false⟩]
  else []
termination_by snapData.length
decreasing_by
  rw [List.length_drop]
  unfold maxMessageSize at *
  omega

/-- `type KVCollector struct`. -/
structure KVCollector where
  maxSize : UInt64
  size : UInt64

namespace KVCollector

/-- What `Send` puts into the channel. -/
def messages (buf : Bytes) : List SnapResponse :=
  (if 0 < buf.length then ⟨none, [], .ofNat buf.length, true, false⟩ :: dataMessages buf else []) ++
    [⟨none, [], 0, false, true⟩]

/-- `Send`; `done` says before which message the context ends, and how. -/
def send (c : KVCollector) (done : Option (Nat × Err)) (buf : Bytes) :
    List SnapResponse × Option Err × KVCollector :=
  if c.maxSize < c.size + .ofNat buf.length then
    ([], some (.new s!"Oversize Snapshot {c.size}, {buf.length}, {c.maxSize}"), c)
  else
    match done.filter fun d => d.1 < (messages buf).length with
    | some d => ((messages buf).take d.1, some d.2, c)
    | none => (messages buf, none, { c with size := c.size + .ofNat buf.length })

/-- A collector, and how many bytes it has accepted. -/
def step (x : KVCollector × Nat) (e : Option (Nat × Err) × Bytes) : KVCollector × Nat :=
  match x.1.send e.1 e.2 with
  | (_, none, c) => (c, x.2 + e.2.length)
  | (_, some _, c) => (c, x.2)

def Within (x : KVCollector × Nat) : Prop := x.2 ≤ x.1.maxSize.toNat

/-- The condition: the size with that of the buffer is a `uint64`, or it is over the maximum even as
    it wraps around, or the context ends before the last message. -/
def Fits (x : KVCollector × Nat) (e : Option (Nat × Err) × Bytes) : Prop :=
  x.1.size.toNat + e.2.length < 2 ^ 64 ∨ x.1.maxSize < x.1.size + .ofNat e.2.length ∨
    ∃ d ∈ e.1, d.1 < (messages e.2).length

/-- The size is that of the accepted bytes. -/
def Counts (x : KVCollector × Nat) : Prop := Within x ∧ x.1.size.toNat = x.2

/-- **One buffer.** -/
theorem within_step_iff {x : KVCollector × Nat} (hx : Counts x) (e : Option (Nat × Err) × Bytes) :
    (Within (step x e) ↔ Fits x e) ∧ (Fits x e → Counts (step x e)) := by
  have hsum : (x.1.size + .ofNat e.2.length).toNat = (x.2 + e.2.length) % 2 ^ 64 := by
    rw [UInt64.toNat_add, UInt64.toNat_ofNat', Nat.add_mod_mod, hx.2]
  have hmax := x.1.maxSize.toNat_lt
  unfold step Fits send
  by_cases hle : x.1.maxSize < x.1.size + .ofNat e.2.length
  · simp only [if_pos hle]
    exact ⟨iff_of_true hx.1 (.inr (.inl hle)), fun _ => hx⟩
  simp only [if_neg hle]
  rw [or_iff_right hle]
  rw [UInt64.not_lt, UInt64.le_iff_toNat_le, hsum] at hle
  cases hdone : e.1.filter fun d => d.1 < (messages e.2).length with
  | some d =>
    obtain ⟨hd, hlt⟩ := Option.filter_eq_some_iff.mp hdone
    exact ⟨iff_of_true hx.1 (.inr ⟨d, hd, of_decide_eq_true hlt⟩), fun _ => hx⟩
  | none =>
    have hends : ¬ ∃ d ∈ e.1, d.1 < (messages e.2).length := by
      rintro ⟨d, hd, hlt⟩
      exact Option.filter_eq_none_iff.mp hdone d hd (decide_eq_true hlt)
    simp only [Within, Counts, hsum, hx.2, or_iff_left hends]
    omega

end KVCollector

/-! ## 2. Values -/

/-- `type ValueCollector struct`. -/
structure ValueCollector where
  maxSize : UInt64
  entries : List Bytes

namespace ValueCollector

def add (v : ValueCollector) (value : Bytes) : ValueCollector :=
  { v with entries := v.entries ++ [value] }

/-- `Send`, for what `Unmarshal` makes of the slices of a buffer. -/
def send : ValueCollector → List (Except Err Bytes) → Option Err × ValueCollector
  | v, [] => (none, v)
  | v, .error e :: _ => (some e, v)
  | v, .ok value :: slices =>
    if v.maxSize < .ofNat (v.entries.length + value.length) then
      (some (.new "Oversize Snapshot"), v)
    else send (v.add value) slices

def bytes (v : ValueCollector) : Nat := (v.entries.map List.length).sum

def Within (v : ValueCollector) : Prop := v.bytes ≤ v.maxSize.toNat

/-- The bytes of the values in a buffer, up to a slice that is not decoded. -/
def handed : List (Except Err Bytes) → Nat
  | .ok value :: slices => value.length + handed slices
  | _ => 0

theorem bytes_add (v : ValueCollector) (value : Bytes) :
    (v.add value).bytes = v.bytes + value.length := by
  simp [add, bytes]

/-- **One buffer**: no more is taken than is handed over, and all of it without an error. -/
theorem send_bytes (v : ValueCollector) (slices : List (Except Err Bytes)) :
    (v.send slices).2.maxSize = v.maxSize ∧ (v.send slices).2.bytes ≤ v.bytes + handed slices ∧
      ((v.send slices).1 = none → (v.send slices).2.bytes = v.bytes + handed slices) := by
  fun_induction send v slices with
  | case1 v => exact ⟨rfl, Nat.le_add_right _ _, fun _ => rfl⟩
  | case2 v e slices => exact ⟨rfl, Nat.le_add_right _ _, nofun⟩
  | case3 v value slices hover => exact ⟨rfl, Nat.le_add_right _ _, nofun⟩
  | case4 v value slices hle ih =>
    rw [bytes_add, Nat.add_assoc] at ih
    exact ih

def step (v : ValueCollector) (slices : List (Except Err Bytes)) : ValueCollector :=
  (v.send slices).2

/-- What is handed over by all buffers bounds what is accepted. -/
theorem within_of_handed {v : ValueCollector} {bufs : List (List (Except Err Bytes))}
    (h : v.bytes + (bufs.map handed).sum ≤ v.maxSize.toNat) :
    Along step (fun v buf => (step v buf).Within) v bufs := by
  induction bufs generalizing v with
  | nil => trivial
  | cons buf bufs ih =>
    obtain ⟨hmax, hle, -⟩ := v.send_bytes buf
    rw [List.map_cons, List.sum_cons] at h
    have hrest : (step v buf).bytes + (bufs.map handed).sum ≤ (step v buf).maxSize.toNat := by
      rw [step, hmax]
      omega
    exact ⟨by unfold Within; omega, ih hrest⟩

/-- Without an error it is what is accepted. -/
theorem handed_of_within {v : ValueCollector} {bufs : List (List (Except Err Bytes))}
    (hsent : Along step (fun v buf => (v.send buf).1 = none) v bufs)
    (h : Along step (fun v buf => (step v buf).Within) v bufs) (hv : v.Within) :
    v.bytes + (bufs.map handed).sum ≤ v.maxSize.toNat := by
  induction bufs generalizing v with
  | nil => exact hv
  | cons buf bufs ih =>
    obtain ⟨hmax, -, heq⟩ := v.send_bytes buf
    have hrest := ih hsent.2 h.2 h.1
    rw [step, hmax, heq hsent.1] at hrest
    rwa [List.map_cons, List.sum_cons, ← Nat.add_assoc]

end ValueCollector

/-! ## 3. Sequences of buffers -/

/-- **No more is accepted than the maximum exactly if every size that is accepted is a `uint64`**,
    by the one collector; **by the other, if no more is handed over**, and only then where no buffer
    meets an error. -/
theorem accepted_iff (maxSize : UInt64) (es : List (Option (Nat × Err) × Bytes))
    (bufs : List (List (Except Err Bytes))) :
    (Along KVCollector.step (fun x e => KVCollector.Within (KVCollector.step x e))
        (⟨maxSize, 0⟩, 0) es ↔
      Along KVCollector.step KVCollector.Fits (⟨maxSize, 0⟩, 0) es) ∧
    ((bufs.map ValueCollector.handed).sum ≤ maxSize.toNat →
      Along ValueCollector.step (fun v buf => (v.step buf).Within) ⟨maxSize, []⟩ bufs) ∧
    (Along ValueCollector.step (fun v buf => (v.send buf).1 = none) ⟨maxSize, []⟩ bufs →
      Along ValueCollector.step (fun v buf => (v.step buf).Within) ⟨maxSize, []⟩ bufs →
      (bufs.map ValueCollector.handed).sum ≤ maxSize.toNat) := by
  refine ⟨Along.congr (fun _ e hx => (KVCollector.within_step_iff hx e).2)
      (fun _ e hx => (KVCollector.within_step_iff hx e).1) es ⟨Nat.zero_le _, rfl⟩,
    fun h => ValueCollector.within_of_handed (by simpa [ValueCollector.bytes] using h),
    fun hsent h => ?_⟩
  simpa [ValueCollector.bytes] using ValueCollector.handed_of_within hsent h (Nat.zero_le _)

/-- Three values of five bytes, and a maximum of ten. -/
theorem values_exceed :
    ¬ (ValueCollector.send ⟨10, []⟩ (.replicate 3 (.ok [1, 2, 3, 4, 5]))).2.Within := by
  unfold ValueCollector.Within
  decide

/-! ## 4. From the sender to the receiver -/

/-- `StreamSnapshot` and the end of `SyncSnap`: what is sent, up to a `Send` that fails; `last` is
    the error of a context that ends before the last message. -/
def syncSnap (last : Option Err) (kv : KVCollector) :
    List (Option (Nat × Err) × Bytes) → List SnapResponse × Option Err
  | [] => match last with
    | none => ([⟨some kv.size, [], 0, false, false⟩], none)
    | some err => ([], some err)
  | e :: es =>
    match kv.send e.1 e.2 with
    | (ms, some err, _) => (ms, some (.wrap err "failed to generate snapshot"))
    | (ms, none, kv) => (syncSnap last kv es).map (ms ++ ·) id

/-- A call of `Send` with a buffer that can be allocated, and the entries in it. -/
structure SentBuffer (X : SnapEnv) where
  sent : Option (Nat × Err) × Bytes
  entries : Batch
  pos : 0 < sent.2.length
  fits : (UInt64.ofNat sent.2.length).toNat ≤ X.maxAlloc
  decodes : Decodes X sent.2 entries

open FaultyStore Disk List

variable {X : SnapEnv}

/-- The message has a part of a buffer. -/
def SnapResponse.IsPart (m : SnapResponse) : Prop :=
  m.metaInfo = none ∧ m.start = false ∧ m.finish = false

/-- Parts, before what is received after them. -/
theorem parts_run {parts after : List SnapResponse} {r r' : SnapReceiver}
    (hparts : ∀ m ∈ parts, m.IsPart) (h : Run (Receives X)
      ⟨⟨r.entries ++ parts.flatMap (·.data), r.expectedSize,
        r.totalSnapSize + .ofNat (parts.flatMap (·.data)).length⟩, r.stored⟩ after r') :
    Run (Receives X) r (parts ++ after) r' := by
  induction parts generalizing r with
  | nil => simpa using h
  | cons m parts ih =>
    obtain ⟨⟨hmeta, hstart, hfinish⟩, hrest⟩ := forall_mem_cons.mp hparts
    refine .cons (.part hstart hfinish (by simp [SnapState.entire, hmeta])) (ih hrest ?_)
    simpa [SnapState.part, UInt64.ofNat_add, UInt64.add_assoc, append_assoc] using h

/-- **The parts of a buffer** are not empty, within the limit, and together the buffer. -/
theorem dataMessages_parts (buf : Bytes) :
    (∀ m ∈ dataMessages buf, m.IsPart ∧ 0 < m.data.length ∧ m.data.length ≤ maxMessageSize) ∧
      (dataMessages buf).flatMap (·.data) = buf := by
  fun_induction dataMessages buf with
  | case1 buf hle ih =>
    have hlen : (buf.take maxMessageSize).length = maxMessageSize := length_take_of_le hle
    refine ⟨forall_mem_cons.mpr ⟨⟨⟨rfl, rfl, rfl⟩, ?_, hlen.le⟩, ih.1⟩, ?_⟩
    · rw [hlen]
      decide
    · rw [flatMap_cons, ih.2, take_append_drop]
  | case2 buf hlt hne =>
    exact ⟨forall_mem_singleton.mpr
      ⟨⟨rfl, rfl, rfl⟩, Nat.pos_of_ne_zero hne, (not_le.mp hlt).le⟩, by simp⟩
  | case3 buf hlt hnil => simpa using hnil

theorem messages_run (b : SentBuffer X) (r : SnapReceiver) :
    Run (Receives X) r (KVCollector.messages b.sent.2) ⟨⟨b.sent.2, .ofNat b.sent.2.length,
      r.totalSnapSize + .ofNat b.sent.2.length⟩, r.stored ++ b.entries⟩ := by
  rw [KVCollector.messages, if_pos b.pos]
  obtain ⟨hparts, hdata⟩ := dataMessages_parts b.sent.2
  refine .cons (.begin rfl b.fits) (parts_run (fun m hm => (hparts m hm).1) ?_)
  rw [hdata]
  exact .cons (.store rfl rfl (decide_eq_true rfl) b.decodes) .start

/-- All buffers, by induction from one; the two ends have counted the same. -/
theorem receive_syncSnap (last : Option Err) (ending : Err) (m : Entries) (es : List (SentBuffer X))
    {kv : KVCollector} {r : SnapReceiver} (hsize : r.totalSnapSize = kv.size)
    (isSnapStored : Bool) :
    (syncSnap last kv (es.map (·.sent))).2 ≠ none ∨ ∃ stored',
      receive X ending (syncSnap last kv (es.map (·.sent))).1 r.toSnapState isSnapStored
          (sound (putAll m r.stored)) =
        (.ok (stored', none), sound (putAll m (r.stored ++ es.flatMap (·.entries)))) := by
  induction es generalizing kv r isSnapStored with
  | nil =>
    cases last with
    | none => exact .inr ⟨isSnapStored, by simp [syncSnap, receive, SnapState.entire, hsize, pure]⟩
    | some err => exact .inl (Option.some_ne_none _)
  | cons b es ih =>
    rw [map_cons, syncSnap]
    split
    · exact .inl (Option.some_ne_none _)
    next hsend =>
      unfold KVCollector.send at hsend
      split at hsend
      · cases hsend
      split at hsend
      · cases hsend
      cases hsend
      obtain ⟨_, heq⟩ := receive_sound ending (messages_run b r) _ isSnapStored m
      rw [flatMap_cons, ← append_assoc]
      exact (ih (congrArg (· + _) hsize) _).imp_right (.imp fun _ => heq.trans)

/-- **A snapshot arrives.** Whatever buffers are sent, the sender has an error or the receiver has
    none of its own and, on a store that does not fail, writes the entries of all in order. -/
theorem snapshot_arrives (X : SnapEnv) (maxSize : UInt64) (es : List (SentBuffer X))
    (last : Option Err) (stream : StreamEnd) (ending : Err) (m : Entries) :
    (syncSnap last ⟨maxSize, 0⟩ (es.map (·.sent))).2 ≠ none ∨ ∃ isSnapStored,
      fetchSnapShot X none stream ending
          (syncSnap last ⟨maxSize, 0⟩ (es.map (·.sent))).1 (sound m) =
        (.ok (isSnapStored, stream.wait none), sound (putAll m (es.flatMap (·.entries)))) :=
  (receive_syncSnap last ending m es (r := .new) rfl false).imp_right
    (.imp fun _ h => (Proc.bind_of_ok h).trans rfl)

/-- A buffer of one slice. -/
def SnapSample.sent (key value : UInt8) : SentBuffer SnapSample.env where
  sent := (none, [0, 0, 0, 6, key, value])
  entries := [([key], [value])]
  pos := Nat.zero_lt_succ _
  fits := show UInt64.toNat 6 ≤ 281474976710656 by decide
  decodes := ⟨rfl, .cons ⟨rfl, rfl⟩ .nil⟩

/-- Two buffers with the same key: the second value is in the store. -/
theorem two_buffers_arrive :
    ∃ isSnapStored, fetchSnapShot SnapSample.env none SnapSample.stream (.new "closed")
        (syncSnap none ⟨12, 0⟩ ([SnapSample.sent 1 7, SnapSample.sent 1 8].map (·.sent))).1
        (sound ∅) =
      (.ok (isSnapStored, none), sound (putAll ∅ [([1], [7]), ([1], [8])])) :=
  (snapshot_arrives SnapSample.env 12 [SnapSample.sent 1 7, SnapSample.sent 1 8] none
    SnapSample.stream (.new "closed") ∅).resolve_left fun h => h (by rfl)

/-! ## 5. What is lost on the way -/

/-- The messages with some of them dropped or cut short. -/
inductive Lossy : List SnapResponse → List SnapResponse → Prop
  | nil : Lossy [] []
  | dropped (m : SnapResponse) {ms ms' : List SnapResponse} (h : Lossy ms ms') :
      Lossy (m :: ms) ms'
  | cut (m : SnapResponse) (n : Nat) {ms ms' : List SnapResponse} (h : Lossy ms ms') :
      Lossy (m :: ms) ({ m with data := m.data.take n } :: ms')

namespace Lossy

variable {ms ms' : List SnapResponse}

theorem length_le (h : Lossy ms ms') :
    (ms'.flatMap (·.data)).length ≤ (ms.flatMap (·.data)).length := by
  induction h with
  | nil => exact le_rfl
  | dropped m _ ih =>
    rw [flatMap_cons, length_append]
    omega
  | cut m n _ ih =>
    simp only [flatMap_cons, length_append, length_take]
    omega

end Lossy

end GoMoi
