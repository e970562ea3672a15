/-
  File:      GoMoi/Consensus/JobQueue.lean
  Subject:   The queue of `Prepared` messages whose tesseracts have to be fetched
             (`consensus/job.go`), and the workers that empty it (`worker` and `jobProcessor` of
             `consensus/krama_engine.go`).

  The handler pushes a message into the job of its cluster. A worker takes a whole job out of the
  queue, takes ONE message out of the job, processes it and lets go of the job.

  * `JobQueue.push`, `JobQueue.next`, `Job.nextPrepared`, `JobQueue.deleteActiveJob` -- each runs
    under a lock, so an interleaving is a list of such calls;
  * `JobState.Step` -- the machine of the queue and its workers, with what was accepted and what
    was taken so far;
  * **`JobState.accounted_run`** -- as long as nothing is pushed for a cluster whose job is still
    queued, every accepted message is in one place, and an empty queue has lost none;
  * `JobState.second_message_lost` -- two messages for one cluster: the second goes with the job.
-/
import GoMoi.Consensus.Prepare
import Mathlib.Algebra.BigOperators.Group.Multiset.Basic
import Mathlib.Tactic.Abel

namespace GoMoi

open List GoMap

/-! ## 1. Jobs -/

/-- `type PreparedMessage struct`. -/
structure PreparedMessage where
  msg : Prepared
  sender : KramaID
  deriving DecidableEq, Repr

/-- `type job struct`. The time of its creation goes into the metrics only. -/
structure Job where
  msgs : GoMap Hash PreparedMessage
  clusterID : ClusterID

/-- `nextPrepared`, for one order of the iteration. -/
def Job.nextPrepared (order : List (Σ _ : Hash, PreparedMessage)) (j : Job) :
    Option PreparedMessage × Job :=
  match order with
  | [] => (none, j)
  | e :: _ => (some e.2, { j with msgs := j.msgs.erase e.1 })

/-- `type jobQueue struct`. -/
structure JobQueue where
  jobs : GoMap ClusterID Job
  activeJobs : GoMap ClusterID Unit

namespace JobQueue

/-- `newJobQueue`. -/
def newJobQueue : JobQueue := ⟨∅, ∅⟩

/-- `push`. The hash of a message is that of its encoding, which may fail. -/
def push (hash : Prepared → Except Err Hash) (jq : JobQueue) (clusterID : ClusterID)
    (msg : Prepared) (sender : KramaID) : Option Err × JobQueue :=
  match hash msg with
  | .error err => (some err, jq)
  | .ok hash =>
    match jq.jobs.lookup clusterID with
    | some j => (none, { jq with
      jobs := jq.jobs.insert clusterID { j with msgs := j.msgs.insert hash ⟨msg, sender⟩ } })
    | none => (none, { jq with
      jobs := jq.jobs.insert clusterID ⟨AList.singleton hash ⟨msg, sender⟩, clusterID⟩ })

/-- `next`, for one order of the iteration: the first job whose cluster is not worked on. -/
def next (jq : JobQueue) : List (Σ _ : ClusterID, Job) → Option Job × JobQueue
  | [] => (none, jq)
  | e :: rest =>
    if e.2.clusterID ∈ jq.activeJobs then jq.next rest
    else (some e.2,
      { jobs := jq.jobs.erase e.2.clusterID
        activeJobs := jq.activeJobs.insert e.2.clusterID () })

/-- `deleteActiveJob`. -/
def deleteActiveJob (jq : JobQueue) (clusterID : ClusterID) : JobQueue :=
  { jq with activeJobs := jq.activeJobs.erase clusterID }

end JobQueue

open JobQueue

/-! ## 2. The queue and its workers -/

/-- Where a worker is in its loop. -/
inductive Worker where
  /-- in the `select` -/
  | waiting
  /-- `next` has returned a job -/
  | claimed (j : Job)
  /-- in `jobProcessor`: `nextPrepared` has returned -/
  | processing (j : Job) (prepared : Option PreparedMessage)
  /-- the engine was stopped -/
  | closed

/-- A message and the cluster it was pushed for. -/
abbrev ClusterMessage : Type := ClusterID × PreparedMessage

/-- The queue, its workers, and the messages so far: those that a `push` has accepted, and those
    that a worker has taken out of a job, with the number of that worker. -/
structure JobState where
  queue : JobQueue
  workers : List Worker
  accepted : List ClusterMessage
  taken : List (Nat × ClusterMessage)

/-- One call under a lock. The orders are those of the iterations over the maps. -/
inductive JobEvent where
  | push (clusterID : ClusterID) (msg : Prepared) (sender : KramaID)
  | next (worker : Nat) (order : List (Σ _ : ClusterID, Job))
  | nextPrepared (worker : Nat) (order : List (Σ _ : Hash, PreparedMessage))
  | deleteActiveJob (worker : Nat)
  | close (worker : Nat)

namespace JobState

/-- `startWorkers`. -/
def start (workerCount : Nat) : JobState :=
  ⟨.newJobQueue, List.replicate workerCount .waiting, [], []⟩

/-- A message taken by a worker. -/
def record (taken : List (Nat × ClusterMessage)) (worker : Nat) (j : Job) :
    Option PreparedMessage → List (Nat × ClusterMessage)
  | none => taken
  | some prepared => (worker, j.clusterID, prepared) :: taken

/-- The machine. -/
inductive Step (hash : Prepared → Except Err Hash) : JobState → JobEvent → JobState → Prop where
  | refused {s : JobState} {clusterID : ClusterID} {msg : Prepared} {sender : KramaID} {err : Err}
      {queue : JobQueue} (h : s.queue.push hash clusterID msg sender = (some err, queue)) :
      Step hash s (.push clusterID msg sender) { s with queue := queue }
  | push {s : JobState} {clusterID : ClusterID} {msg : Prepared} {sender : KramaID}
      {queue : JobQueue} (h : s.queue.push hash clusterID msg sender = (none, queue)) :
      Step hash s (.push clusterID msg sender)
        { s with queue := queue, accepted := (clusterID, ⟨msg, sender⟩) :: s.accepted }
  | nothing {s : JobState} {i : Nat} {order : List (Σ _ : ClusterID, Job)} {queue : JobQueue}
      (hw : s.workers[i]? = some .waiting) (ho : order.Perm s.queue.jobs.entries)
      (h : s.queue.next order = (none, queue)) :
      Step hash s (.next i order) { s with queue := queue }
  | next {s : JobState} {i : Nat} {order : List (Σ _ : ClusterID, Job)} {queue : JobQueue}
      {j : Job} (hw : s.workers[i]? = some .waiting) (ho : order.Perm s.queue.jobs.entries)
      (h : s.queue.next order = (some j, queue)) :
      Step hash s (.next i order)
        { s with queue := queue, workers := s.workers.set i (.claimed j) }
  | nextPrepared {s : JobState} {i : Nat} {order : List (Σ _ : Hash, PreparedMessage)} {j j' : Job}
      {prepared : Option PreparedMessage} (hw : s.workers[i]? = some (.claimed j))
      (ho : order.Perm j.msgs.entries) (h : j.nextPrepared order = (prepared, j')) :
      Step hash s (.nextPrepared i order)
        { s with
          workers := s.workers.set i (.processing j' prepared)
          taken := record s.taken i j prepared }
  | deleteActiveJob {s : JobState} {i : Nat} {j : Job} {prepared : Option PreparedMessage}
      (hw : s.workers[i]? = some (.processing j prepared)) :
      Step hash s (.deleteActiveJob i)
        { s with
          queue := s.queue.deleteActiveJob j.clusterID
          workers := s.workers.set i .waiting }
  | close {s : JobState} {i : Nat} (hw : s.workers[i]? = some .waiting) :
      Step hash s (.close i) { s with workers := s.workers.set i .closed }

end JobState

/-! ## 3. Where the messages are -/

/-- The messages in a job. -/
def Job.messages (j : Job) : Multiset ClusterMessage :=
  ((j.msgs.values.map (Prod.mk j.clusterID) : List ClusterMessage) : Multiset ClusterMessage)

/-- The messages that wait in queued jobs. -/
def JobQueue.waiting (jq : JobQueue) : Multiset ClusterMessage :=
  (jq.jobs.values.map Job.messages).sum

/-- The messages in the job that a worker holds. -/
def Worker.held : Worker → Multiset ClusterMessage
  | .waiting => 0
  | .claimed j => j.messages
  | .processing j _ => j.messages
  | .closed => 0

namespace JobState

/-- **Every accepted message is in exactly one place**: in a queued job, in the job that one worker
    holds, or taken out by one worker. -/
def Accounted (s : JobState) : Prop :=
  (s.accepted : Multiset ClusterMessage) =
    s.queue.waiting + (s.workers.map Worker.held).sum + (s.taken.map Prod.snd : List _)

/-- No job is queued and no worker holds one. -/
def Drained (s : JobState) : Prop :=
  s.queue.jobs = ∅ ∧ ∀ w ∈ s.workers, w = .waiting ∨ w = .closed

/-- A message is pushed for a cluster that no queued job is for. -/
def Alone (s : JobState) : JobEvent → Prop
  | .push clusterID _ _ => s.queue.jobs.lookup clusterID = none
  | _ => True

/-! ## 4. Runs -/

/-- What a queued job is: under its own cluster, with one message at most. -/
structure Single (s : JobState) : Prop where
  queued : ∀ c j, s.queue.jobs.lookup c = some j → j.clusterID = c ∧ j.msgs.entries.length ≤ 1
  claimed : ∀ j, .claimed j ∈ s.workers → j.msgs.entries.length ≤ 1
  processed : ∀ j prepared, .processing j prepared ∈ s.workers → j.msgs.entries = []

end JobState

/-- What `next` returns was queued and is now active. -/
theorem JobQueue.next_eq {jq jq' : JobQueue} {order : List (Σ _ : ClusterID, Job)} {r : Option Job}
    (h : jq.next order = (r, jq')) :
    (r = none ∧ jq' = jq) ∨ ∃ e ∈ order, r = some e.2 ∧
      jq' = ⟨jq.jobs.erase e.2.clusterID, jq.activeJobs.insert e.2.clusterID ()⟩ := by
  induction order with
  | nil =>
    cases h
    exact .inl ⟨rfl, rfl⟩
  | cons e rest ih =>
    unfold next at h
    split at h
    · rcases ih h with hnone | ⟨e', he', hr⟩
      · exact .inl hnone
      · exact .inr ⟨e', mem_cons_of_mem _ he', hr⟩
    · cases h
      exact .inr ⟨e, mem_cons_self, rfl, rfl⟩

theorem JobQueue.push_alone {hash : Prepared → Except Err Hash} {jq jq' : JobQueue}
    {clusterID : ClusterID} {msg : Prepared} {sender : KramaID} {r : Option Err}
    (halone : jq.jobs.lookup clusterID = none) (h : jq.push hash clusterID msg sender = (r, jq')) :
    (r ≠ none ∧ jq' = jq) ∨ ∃ key, r = none ∧ jq' = { jq with
      jobs := jq.jobs.insert clusterID ⟨AList.singleton key ⟨msg, sender⟩, clusterID⟩ } := by
  unfold push at h
  split at h
  · cases h
    exact .inl ⟨by simp, rfl⟩
  · rw [halone] at h
    cases h
    exact .inr ⟨_, rfl, rfl⟩

/-- A job of one message at most is empty once it has been asked for one. -/
theorem Job.nextPrepared_eq {j j' : Job} {order : List (Σ _ : Hash, PreparedMessage)}
    {prepared : Option PreparedMessage} (hj : j.msgs.entries.length ≤ 1)
    (ho : order.Perm j.msgs.entries) (h : j.nextPrepared order = (prepared, j')) :
    j'.msgs.entries = [] ∧
      j.messages = ((prepared.toList.map (Prod.mk j.clusterID) : List _) : Multiset _) := by
  rcases order with _ | ⟨e, rest⟩
  · cases h
    have hnil : j.msgs.entries = [] := ho.nil_eq.symm
    exact ⟨hnil, by simp [messages, values, hnil]⟩
  cases h
  have hlen := ho.length_eq
  rw [length_cons] at hlen
  have hrest : rest = [] := eq_nil_of_length_eq_zero (by omega)
  rw [hrest] at ho
  have hone : j.msgs.entries = [e] := perm_singleton.mp ho.symm
  refine ⟨?_, by simp [messages, values, hone]⟩
  show List.kerase e.1 j.msgs.entries = []
  rw [hone, kerase_cons_eq rfl]

/-- One worker moved on. -/
theorem Worker.held_set {workers : List Worker} {i : Nat} {w : Worker} (w' : Worker)
    (h : workers[i]? = some w) :
    ((workers.set i w').map held).sum + w.held = (workers.map held).sum + w'.held := by
  induction workers generalizing i with
  | nil => cases h
  | cons v rest ih =>
    cases i with
    | zero =>
      cases h
      simp only [set_cons_zero, map_cons, sum_cons]
      abel
    | succ i =>
      simp only [set_cons_succ, map_cons, sum_cons, add_assoc, ih h]

namespace JobState

variable {hash : Prepared → Except Err Hash} {s s' : JobState} {e : JobEvent} {jq : JobQueue}
  {c : ClusterID} {j : Job}

theorem waiting_insert (h : jq.jobs.lookup c = none) :
    waiting { jq with jobs := jq.jobs.insert c j } = j.messages + jq.waiting := by
  unfold waiting values
  rw [AList.entries_insert_of_notMem (AList.lookup_eq_none.mp h), map_cons, map_cons, sum_cons]

theorem waiting_erase {active : GoMap ClusterID Unit} (h : jq.jobs.lookup c = some j) :
    jq.waiting = j.messages + waiting ⟨jq.jobs.erase c, active⟩ := by
  unfold waiting
  rw [((values_perm_erase h).map Job.messages).sum_eq, map_cons, sum_cons]

theorem start_single (n : Nat) : (start n).Single where
  queued _ _ h := by cases h
  claimed j h := by cases eq_of_mem_replicate h
  processed j prepared h := by cases eq_of_mem_replicate h

theorem start_accounted (n : Nat) : (start n).Accounted := by
  have hheld : ((List.replicate n Worker.waiting).map Worker.held).sum = 0 := by
    rw [map_replicate, sum_replicate]
    exact nsmul_zero n
  show (0 : Multiset ClusterMessage) =
    0 + ((List.replicate n Worker.waiting).map Worker.held).sum + 0
  rw [hheld, add_zero, add_zero]

/-- One worker moved on to `w`. -/
theorem Single.moved (hs : s.Single) (i : Nat) {w : Worker}
    (hclaimed : ∀ j, w = .claimed j → j.msgs.entries.length ≤ 1)
    (hprocessed : ∀ j prepared, w = .processing j prepared → j.msgs.entries = []) :
    Single { s with workers := s.workers.set i w } where
  queued := hs.queued
  claimed j hj := by
    rcases mem_or_eq_of_mem_set hj with hj | hj
    · exact hs.claimed j hj
    · exact hclaimed j hj.symm
  processed j prepared hj := by
    rcases mem_or_eq_of_mem_set hj with hj | hj
    · exact hs.processed j prepared hj
    · exact hprocessed j prepared hj.symm

/-- The step lemma, for the shape of the jobs. -/
theorem Single.step (hs : s.Single) (hok : s.Alone e) (h : Step hash s e s') : s'.Single := by
  cases h with
  | refused h =>
    rcases push_alone hok h with ⟨_, rfl⟩ | ⟨_, hr, _⟩
    · exact hs
    · cases hr
  | push h =>
    rcases push_alone hok h with ⟨hr, _⟩ | ⟨_, _, rfl⟩
    · exact absurd rfl hr
    refine ⟨fun c j hj => ?_, hs.claimed, hs.processed⟩
    rcases of_lookup_insert hj with ⟨rfl, rfl⟩ | hj
    · exact ⟨rfl, Nat.le_refl 1⟩
    · exact hs.queued c j hj
  | nothing hw ho h =>
    rcases next_eq h with ⟨_, rfl⟩ | ⟨_, _, hr, _⟩
    · exact hs
    · cases hr
  | @next i order queue j hw ho h =>
    rcases next_eq h with ⟨hr, _⟩ | ⟨e, he, hr, rfl⟩
    · cases hr
    cases hr
    have hqueued := hs.queued e.1 e.2 (AList.mem_lookup_iff.mpr (ho.mem_iff.mp he))
    have hmoved := hs.moved i (w := .claimed e.2) (fun j hj => by cases hj; exact hqueued.2)
      nofun
    exact ⟨fun c j hj => hs.queued c j (of_lookup_erase hj), hmoved.claimed,
      hmoved.processed⟩
  | @nextPrepared i order j j' prepared hw ho h =>
    have hempty := (Job.nextPrepared_eq (hs.claimed _ (mem_of_getElem? hw)) ho h).1
    have hmoved := hs.moved i (w := .processing j' prepared) nofun
      (fun j prepared hj => by cases hj; exact hempty)
    exact ⟨hs.queued, hmoved.claimed, hmoved.processed⟩
  | @deleteActiveJob i j prepared hw =>
    have hmoved := hs.moved i (w := .waiting) nofun
      nofun
    exact ⟨hs.queued, hmoved.claimed, hmoved.processed⟩
  | @close i hw =>
    exact hs.moved i nofun nofun

/-- The step lemma, for the messages. Only the last step of a worker could lose one: it drops the
    job, which is empty by then. -/
theorem Accounted.step (ha : s.Accounted) (hs : s.Single) (hok : s.Alone e)
    (h : Step hash s e s') : s'.Accounted := by
  unfold Accounted at ha ⊢
  cases h with
  | refused h =>
    rcases push_alone hok h with ⟨_, rfl⟩ | ⟨_, hr, _⟩
    · exact ha
    · cases hr
  | push h =>
    rcases push_alone hok h with ⟨hr, _⟩ | ⟨_, _, rfl⟩
    · exact absurd rfl hr
    · rw [waiting_insert hok, ← Multiset.cons_coe, ha, add_assoc, add_assoc, add_assoc]
      exact (Multiset.singleton_add _ _).symm
  | nothing hw ho h =>
    rcases next_eq h with ⟨_, rfl⟩ | ⟨_, _, hr, _⟩
    · exact ha
    · cases hr
  | next hw ho h =>
    rcases next_eq h with ⟨hr, _⟩ | ⟨e, he, hr, rfl⟩
    · cases hr
    cases hr
    have hlook := AList.mem_lookup_iff.mpr (ho.mem_iff.mp he)
    obtain ⟨hc, _⟩ := hs.queued e.1 e.2 hlook
    rw [← hc] at hlook
    have hheld := Worker.held_set (.claimed e.2) hw
    rw [show Worker.held .waiting = 0 from rfl, add_zero] at hheld
    rw [ha, hheld, waiting_erase hlook]
    show _ = _ + (_ + e.2.messages) + _
    abel
  | @nextPrepared i order j j' prepared hw ho h =>
    obtain ⟨hempty, hmsgs⟩ :=
      Job.nextPrepared_eq (hs.claimed _ (mem_of_getElem? hw)) ho h
    have hheld := Worker.held_set (.processing j' prepared) hw
    have hzero : Worker.held (.processing j' prepared) = 0 := by
      show j'.messages = 0
      simp [Job.messages, values, hempty]
    rw [hzero, add_zero] at hheld
    rw [ha, ← hheld, show Worker.held (.claimed j) = j.messages from rfl, hmsgs]
    cases prepared with
    | none => rw [Option.toList_none, map_nil, Multiset.coe_nil, add_zero]; rfl
    | some m =>
      abel
  | @deleteActiveJob i j prepared hw =>
    have hempty := hs.processed j prepared (mem_of_getElem? hw)
    have hheld := Worker.held_set .waiting hw
    have hzero : Worker.held (.processing j prepared) = 0 := by
      show j.messages = 0
      simp [Job.messages, values, hempty]
    rw [hzero, show Worker.held .waiting = 0 from rfl, add_zero, add_zero] at hheld
    rw [ha, hheld]
    rfl
  | close hw =>
    have hheld := Worker.held_set .closed hw
    rw [show Worker.held .waiting = 0 from rfl, show Worker.held .closed = 0 from rfl, add_zero,
      add_zero] at hheld
    rw [ha, hheld]

/-- In a drained state the places but one are empty. -/
theorem Drained.taken (hd : s.Drained) (ha : s.Accounted) :
    (s.accepted : Multiset ClusterMessage) = (s.taken.map Prod.snd : List _) := by
  obtain ⟨hjobs, hworkers⟩ := hd
  have hheld : (s.workers.map Worker.held).sum = 0 := by
    refine sum_eq_zero fun m hm => ?_
    obtain ⟨w, hw, rfl⟩ := mem_map.mp hm
    rcases hworkers w hw with rfl | rfl <;> rfl
  have hwaiting : s.queue.waiting = 0 := by
    unfold waiting
    rw [hjobs]
    rfl
  rw [ha, hheld, hwaiting, add_zero, zero_add]

/-- **No message is lost or handled twice, as long as none is pushed for a cluster whose job is
    still queued.** In every state of such a run each accepted message is in exactly one place, and
    once the queue is drained the workers have taken exactly the accepted messages. -/
theorem accounted_run {hash : Prepared → Except Err Hash} {n : Nat} {es : List JobEvent}
    {s : JobState} (h : Run (Guarded Alone (Step hash)) (start n) es s) :
    s.Accounted ∧
      (s.Drained → (s.accepted : Multiset ClusterMessage) = (s.taken.map Prod.snd : List _)) := by
  have hinv : s.Single ∧ s.Accounted :=
    h.invariant (I := fun _ s => s.Single ∧ s.Accounted) ⟨start_single n, start_accounted n⟩
      fun _ s e s' hs hstep => ⟨hs.1.step hstep.1 hstep.2, hs.2.step hs.1 hstep.1 hstep.2⟩
  exact ⟨hinv.2, fun hd => hd.taken hinv.2⟩

/-! ## 5. Two messages for one cluster -/

namespace LostSample

/-- A message of a view, and a hash that tells such messages apart. -/
def msg (view : UInt64) : Prepared := ⟨view, none, []⟩

def hashOf (m : Prepared) : Except Err Hash := .ok ⟨m.view.toBitVec.setWidth 256⟩

/-- The message as it stands in a job. -/
def stored (view : UInt64) : Σ _ : Hash, PreparedMessage :=
  ⟨⟨view.toBitVec.setWidth 256⟩, msg view, [8]⟩

/-- The job with one message. -/
def one : Job := ⟨AList.singleton (stored 1).1 (stored 1).2, [1]⟩

/-- The job of another cluster. -/
def other : Job := ⟨AList.singleton (stored 2).1 (stored 2).2, [2]⟩

/-- The job with two messages. -/
def two : Job := ⟨one.msgs.insert (stored 2).1 (stored 2).2, [1]⟩

end LostSample

open LostSample in
/-- The messages of two clusters, handled side by side by two workers. -/
theorem two_clusters_taken :
    ∃ s, Run (Guarded Alone (Step hashOf)) (start 2)
        [.push [1] (msg 1) [8], .push [2] (msg 2) [8], .next 1 [⟨[2], other⟩, ⟨[1], one⟩],
          .next 0 [⟨[1], one⟩], .nextPrepared 0 [stored 1], .nextPrepared 1 [stored 2],
          .deleteActiveJob 1, .deleteActiveJob 0] s ∧
      s.Drained ∧ s.taken.map Prod.fst = [1, 0] ∧
      (s.accepted : Multiset ClusterMessage) = (s.taken.map Prod.snd : List _) := by
  obtain ⟨s, hrun, hdrained, htaken⟩ : ∃ s, Run (Guarded Alone (Step hashOf)) (start 2)
      [.push [1] (msg 1) [8], .push [2] (msg 2) [8], .next 1 [⟨[2], other⟩, ⟨[1], one⟩],
        .next 0 [⟨[1], one⟩], .nextPrepared 0 [stored 1], .nextPrepared 1 [stored 2],
        .deleteActiveJob 1, .deleteActiveJob 0] s ∧ s.Drained ∧ s.taken.map Prod.fst = [1, 0] := by
    refine ⟨_, .cons ⟨rfl, .push rfl⟩ (.cons ⟨rfl, .push rfl⟩
      (.cons ⟨trivial, .next rfl (List.Perm.refl _) rfl⟩
      (.cons ⟨trivial, .next rfl (List.Perm.refl _) rfl⟩
      (.cons ⟨trivial, .nextPrepared rfl (List.Perm.refl _) rfl⟩
      (.cons ⟨trivial, .nextPrepared rfl (List.Perm.refl _) rfl⟩
      (.cons ⟨trivial, .deleteActiveJob rfl⟩ (.cons ⟨trivial, .deleteActiveJob rfl⟩ .start))))))),
      ⟨rfl, fun w hw => .inl ?_⟩, rfl⟩
    rcases List.mem_pair.mp hw with rfl | rfl <;> rfl
  exact ⟨s, hrun, hdrained, htaken, (accounted_run hrun).2 hdrained⟩

open LostSample in
/-- **The second message of a cluster is lost with its job.** The worker takes one message out of
    the job, which is no longer queued, and never asks it for another. -/
theorem second_message_lost :
    ∃ s, Run (Step hashOf) (start 1)
        [.push [1] (msg 1) [8], .push [1] (msg 2) [8], .next 0 [⟨[1], two⟩],
          .nextPrepared 0 [stored 2, stored 1], .deleteActiveJob 0] s ∧
      s.Drained ∧ s.accepted = [([1], ⟨msg 2, [8]⟩), ([1], ⟨msg 1, [8]⟩)] ∧
      s.taken = [(0, [1], ⟨msg 2, [8]⟩)] ∧ ¬ s.Accounted := by
  refine ⟨_, .cons (.push rfl) (.cons (.push rfl) (.cons (.next rfl (List.Perm.refl _) rfl)
    (.cons (.nextPrepared rfl (List.Perm.refl _) rfl) (.cons (.deleteActiveJob rfl) .start)))),
    ⟨rfl, fun w hw => .inl (mem_singleton.mp hw)⟩, rfl, rfl, fun ha => ?_⟩
  exact absurd (congrArg Multiset.card ha) (by decide)

end JobState

end GoMoi
