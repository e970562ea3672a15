/-
  File:      GoMoi/Syncer/RequestQueue.lean
  Subject:   The request queue of the decision engine (`syncer/agora/decision`).

  `HandleRequest` asks `Contains` and then calls `Push`, each under the lock of the queue, and other
  calls may come in between.

  * **`exact_iff`** -- in which runs the keys are the peers of the queue, each with one request;
  * `two_requests` -- two calls for one peer that both ask first.
-/
import GoMoi.Syncer.Block
import GoMoi.Lib.Run
import Mathlib.Data.Finset.Dedup

namespace GoMoi

/-! ## 1. The queue -/

/-- `type Request struct`. The time plays no part here. -/
structure Request where
  peerID : KramaID
  sessionID : Identifier
  stateHash : CID
  wantList : List CID

/-- `type RequestQueue struct`. -/
structure RequestQueue where
  elems : List Request
  keys : Finset KramaID
  length : Nat
  maxLength : Nat
  length_eq : length = elems.length

namespace RequestQueue

/-- `NewRequestQueue`. -/
def new (maxSize : Nat) : RequestQueue := ⟨[], ∅, 0, maxSize, List.length_nil.symm⟩

variable (q : RequestQueue)

/-- `Push`. -/
def push : Option Request → Option Err × RequestQueue
  | none => (none, q)
  | some element =>
    if q.maxLength ≤ q.length then (some (.new "queue is full"), q)
    else (none, { q with
      elems := q.elems ++ [element]
      length := q.length + 1
      keys := insert element.peerID q.keys
      length_eq := by simp [q.length_eq] })

/-- `Pop`. -/
def pop : Option Request × RequestQueue :=
  if h : 0 < q.length then
    let out := q.elems.head (List.ne_nil_of_length_pos (q.length_eq ▸ h))
    (some out, { q with
      elems := q.elems.tail
      length := q.length - 1
      keys := q.keys.erase out.peerID
      length_eq := by simp [q.length_eq] })
  else (none, q)

/-- `Contains`. -/
def contains (id : KramaID) : Bool := id ∈ q.keys

/-- The peers with a queued request. -/
def peers : List KramaID := q.elems.map (·.peerID)

/-- The keys are these peers, and each has one request. -/
def Exact : Prop := q.keys = q.peers.toFinset ∧ q.peers.Nodup
  deriving Decidable

variable {q}

theorem Exact.push_iff (h : q.Exact) (r : Request) :
    (q.push (some r)).2.Exact ↔ (r.peerID ∈ q.keys → q.maxLength ≤ q.length) := by
  unfold push
  by_cases hfull : q.maxLength ≤ q.length
  · simp only [if_pos hfull]
    exact iff_of_true h fun _ => hfull
  have hkeys : insert r.peerID q.keys = (q.peers ++ [r.peerID]).toFinset := by
    rw [h.1, List.toFinset_append, Finset.union_comm]
    rfl
  have hnodup : (q.peers ++ [r.peerID]).Nodup ↔ r.peerID ∉ q.keys := by
    rw [← List.concat_eq_append, List.nodup_concat, h.1, List.mem_toFinset]
    exact and_iff_left h.2
  simp only [if_neg hfull, imp_iff_not hfull, Exact, peers, List.map_append]
  exact (and_iff_right hkeys).trans hnodup

theorem Exact.pop (h : q.Exact) : q.pop.2.Exact := by
  unfold RequestQueue.pop
  split
  case isFalse => exact h
  case isTrue hpos =>
    have hne := List.ne_nil_of_length_pos (q.length_eq ▸ hpos)
    obtain ⟨hkeys, hnodup⟩ := h
    rw [peers, ← List.cons_head_tail hne, List.map_cons] at hkeys hnodup
    refine ⟨?_, hnodup.of_cons⟩
    show q.keys.erase _ = _
    rw [hkeys, List.toFinset_cons, Finset.erase_insert]
    · rfl
    · simpa using (List.nodup_cons.mp hnodup).1

end RequestQueue

/-! ## 2. Calls that overlap -/

/-- The queue, and the calls of `HandleRequest` that have found their peer without a request and
    have not yet called `Push`. -/
structure RequestHandlers where
  queue : RequestQueue
  handlers : List Request

/-- What happens: `HandleRequest` up to `Contains`, the `Push` of one of the calls, or a `Pop`. -/
inductive RequestEvent where
  | handleRequest (req : Option Request) (stateExists : Bool)
  | push (i : Nat)
  | pop

namespace RequestHandlers

def step (s : RequestHandlers) : RequestEvent → RequestHandlers
  | .handleRequest none _ => s
  | .handleRequest (some req) stateExists =>
    if !stateExists then s
    else if !s.queue.contains req.peerID then { s with handlers := s.handlers ++ [req] }
    else s
  | .push i => match s.handlers[i]? with
    | none => s
    | some req => ⟨(s.queue.push (some req)).2, s.handlers.eraseIdx i⟩
  | .pop => { s with queue := s.queue.pop.2 }

/-- **The condition on an event.** A call that goes on to `Push` still finds its peer without a
    request, or the queue is full. -/
def Safe (s : RequestHandlers) : RequestEvent → Prop
  | .push i => ∀ req, s.handlers[i]? = some req →
    req.peerID ∈ s.queue.keys → s.queue.maxLength ≤ s.queue.length
  | _ => True

theorem exact_step_iff {s : RequestHandlers} (h : s.queue.Exact) (e : RequestEvent) :
    (s.step e).queue.Exact ↔ s.Safe e := by
  cases e with
  | handleRequest req stateExists =>
    refine iff_of_true ?_ trivial
    cases req with
    | none => exact h
    | some req =>
      simp only [step]
      repeat' split
      all_goals exact h
  | push i =>
    simp only [step, Safe]
    cases s.handlers[i]? with
    | none => simpa using h
    | some req => simpa using h.push_iff req
  | pop => exact iff_of_true h.pop trivial

/-- **The queue.** For every size and every interleaving, the keys are the peers with a queued
    request and each peer has one, after every step, iff every `Push` meets the condition. -/
theorem exact_iff (maxSize : Nat) (es : List RequestEvent) :
    Along step (fun s e => (s.step e).queue.Exact) ⟨.new maxSize, []⟩ es ↔
      Along step Safe ⟨.new maxSize, []⟩ es :=
  Along.congr (I := (·.queue.Exact)) (fun _ e h => (exact_step_iff h e).mpr)
    (fun _ e h => exact_step_iff h e) es ⟨rfl, .nil⟩

/-- Two calls for one peer ask first and then push: two requests are queued, and the `Pop` of one
    takes the key of the other. -/
theorem two_requests :
    let r : Request := ⟨[1], nilIdentifier, ⟨0, .nil⟩, []⟩
    let s := [.handleRequest (some r) true, .handleRequest (some r) true,
      .push 0, .push 0].foldl step
      ⟨.new 2, []⟩
    ¬ s.queue.Exact ∧ s.queue.pop.2.keys = ∅ ∧ s.queue.pop.2.peers = [[1]] := by
  decide

end RequestHandlers

end GoMoi
