/-
  File:      GoMoi/Jsonrpc/Logs.lean
  Subject:   The logs of a tesseract, as a historical query returns them (`GetLogsForQuery`) and as
             a subscription receives them (`processTesseractAddedEvent`).

  The query finds the tesseract under the height of its account, where a tesseract that only reads
  the account is not entered: it then finds an earlier one. Both run over the receipts, which are a
  map: each loop has its own order. The query gives every log the hash of all interactions, the
  subscription that of its receipt.

  * `collect` -- what the two loops share;
  * **`history_iff`** -- which tesseracts give the same logs; `history_differs` -- one that does
    not.

  The query is one for one height; how it reads its range is left out.
-/
import GoMoi.Common.Types

namespace GoMoi

open List GoMap

/-! ## 1. The query and the subscription -/

/-- `type Log struct`. -/
structure Log where
  id : Identifier
  logicID : Identifier
  topics : List Hash
  data : Bytes

/-- `type Receipt struct`: the logs are those of its operations. -/
structure LogReceipt where
  ixHash : Hash
  ixOps : List (List Log)

/-- A tesseract with its interactions and receipts. -/
structure LoggedTesseract (Ix : Type) extends Tesseract where
  interactions : List Ix
  receipts : GoMap Hash LogReceipt

/-- `type RPCState struct`. -/
structure RPCState extends State where
  id : Identifier

/-- `type RPCLog struct`. -/
structure RPCLog extends Log where
  ixHash : Hash
  tsHash : Hash
  participants : List RPCState

/-- `type LogQuery struct`. -/
structure LogQuery where
  id : Identifier
  topics : List (List Hash)

/-- `MatchTopics`. -/
def LogQuery.matchTopics (q : LogQuery) (log : Log) : Bool :=
  q.topics.length ≤ log.topics.length &&
    (q.topics.zip log.topics).all fun (query, topic) => query.isEmpty || topic ∈ query

/-- The logs of a receipt that match. -/
def LogQuery.matching (q : LogQuery) (e : Σ _ : Hash, LogReceipt) : List Log :=
  e.2.ixOps.flatten.filter q.matchTopics

/-- The loop of both ways; they find the hash of the interaction each in their own way. -/
def LogQuery.collect (q : LogQuery) (ixHash : LogReceipt → Hash) (tsHash : Hash)
    (participants : List RPCState) (receipts : List (Σ _ : Hash, LogReceipt)) : List RPCLog :=
  receipts.flatMap fun e => (q.matching e).map (⟨·, ixHash e.2, tsHash, participants⟩)

/-- `Tesseract.Height`. -/
def LoggedTesseract.height {Ix : Type} (ts : LoggedTesseract Ix) (id : Identifier) : UInt64 :=
  (ts.participants.lookup id).elim 0 (·.height)

/-- `CreateRPCParticipantStates`. -/
def createRPCParticipantStates (participants : ParticipantsState) : List RPCState :=
  participants.sortedKeys.filterMap fun id => (participants.lookup id).map (⟨·, id⟩)

/-- What the filter manager calls. A tesseract is stored under its hash. -/
structure LogBackend (Ix : Type) where
  hash : Tesseract → Hash
  createRPCInteraction : Ix → Except Err Unit
  getTesseractHeightEntry : Identifier → UInt64 → Except Err Hash
  getTesseract : Hash → Except Err (LoggedTesseract Ix)
  keyed : ∀ h ts, getTesseract h = .ok ts → hash ts.toTesseract = h

namespace LogBackend

variable {Ix : Type} (B : LogBackend Ix) (q : LogQuery) (ts : LoggedTesseract Ix)
  (order : ts.receipts.Order)

/-- `getLogsFromTesseract`. -/
def getLogsFromTesseract : List RPCLog :=
  q.collect (fun _ => ts.interactionsHash) (B.hash ts.toTesseract)
    (createRPCParticipantStates ts.participants) order.entries

/-- `GetTesseract`: the interactions of a genesis tesseract are not read. -/
def readInteractions : List Ix := if ts.consensusInfo.view = 0 then [] else ts.interactions

/-- The tesseract that a round of `GetLogsForQuery` finds at a height, if it has interactions. -/
def foundAt (height : UInt64) : Option (LoggedTesseract Ix) :=
  (B.getTesseractHeightEntry q.id height >>= B.getTesseract).toOption.filter fun ts =>
    !(readInteractions ts).isEmpty

/-- `GetLogsForQuery` for one height. -/
def getLogsForQuery (height : UInt64) (order : ∀ ts : LoggedTesseract Ix, ts.receipts.Order) :
    List RPCLog :=
  match B.foundAt q height with
  | none => []
  | some ts => B.getLogsFromTesseract q ts (order ts)

/-- `CreateRPCTesseract`: whether it fails. -/
def createRPCTesseract : Except Err Unit :=
  if ts.consensusInfo.view = 0 then .ok () else ts.interactions.forM B.createRPCInteraction

/-- `createRPCLogs`. -/
def createRPCLogs : List RPCLog :=
  q.collect (·.ixHash) (B.hash ts.toTesseract) (createRPCParticipantStates ts.participants)
    order.entries

/-- `processTesseractAddedEvent`: what a subscription with the query receives. -/
def processTesseractAddedEvent : List RPCLog :=
  match B.createRPCTesseract ts with
  | .error _ => []
  | .ok _ => if (ts.participants.lookup q.id).isSome then B.createRPCLogs q ts order else []

/-! ## 2. The same logs -/

/-- There is an RPC form, and the account of the query takes part. -/
def Delivered : Prop :=
  B.createRPCTesseract ts = .ok () ∧ (ts.participants.lookup q.id).isSome

/-- No log matches. -/
def Silent : Prop := ∀ e ∈ ts.receipts.entries, q.matching e = []

/-- A receipt with a matching log has the hash of all interactions, and the matching logs of two
    receipts read the same in both orders. -/
def Uniform : Prop :=
  (∀ e ∈ ts.receipts.entries, q.matching e ≠ [] → e.2.ixHash = ts.interactionsHash) ∧
  ∀ e ∈ ts.receipts.entries, ∀ e' ∈ ts.receipts.entries,
    q.matching e ++ q.matching e' = q.matching e' ++ q.matching e

variable {B q ts order}

theorem processTesseractAddedEvent_pos (h : B.Delivered q ts) :
    B.processTesseractAddedEvent q ts order = B.createRPCLogs q ts order := by
  rw [processTesseractAddedEvent, h.1]
  exact if_pos h.2

theorem processTesseractAddedEvent_neg (h : ¬ B.Delivered q ts) :
    B.processTesseractAddedEvent q ts order = [] := by
  unfold processTesseractAddedEvent
  cases hrpc : B.createRPCTesseract ts with
  | error e => rfl
  | ok u => exact if_neg fun hid => h ⟨hrpc, hid⟩

theorem collect_eq_nil {f : LogReceipt → Hash} {h : Hash} {ps : List RPCState} :
    q.collect f h ps order.entries = [] ↔ Silent q ts := by
  simp [LogQuery.collect, order.perm.mem_iff, Silent]

/-- The orders of two loops do not matter if any two receipts can be exchanged. -/
theorem getLogsFromTesseract_order (h : Uniform q ts) (order' : ts.receipts.Order) :
    B.getLogsFromTesseract q ts order = B.getLogsFromTesseract q ts order' := by
  unfold getLogsFromTesseract LogQuery.collect
  rw [flatMap_eq_foldl, flatMap_eq_foldl]
  refine (order.perm.trans order'.perm.symm).foldl_eq' (fun e he e' he' logs => ?_) []
  rw [append_assoc, append_assoc, ← map_append, ← map_append,
    h.2 e (order.perm.mem_iff.mp he) e' (order.perm.mem_iff.mp he')]

/-- **Two loops, each in its order.** -/
theorem loops_iff :
    (∀ order order', B.getLogsFromTesseract q ts order = B.createRPCLogs q ts order') ↔
      Uniform q ts := by
  constructor
  · intro h
    refine ⟨fun e he hne => ?_, fun e he e' he' => ?_⟩
    · obtain ⟨log, hlog⟩ := exists_mem_of_ne_nil _ hne
      have hmem : ⟨log, e.2.ixHash, _, _⟩ ∈ B.createRPCLogs q ts (.given _) :=
        mem_flatMap.mpr ⟨e, he, mem_map_of_mem hlog⟩
      rw [← h (.given _)] at hmem
      obtain ⟨e', -, hmem⟩ := mem_flatMap.mp hmem
      obtain ⟨_, -, heq⟩ := mem_map.mp hmem
      exact congrArg RPCLog.ixHash heq.symm
    · classical
      by_cases hee : e' = e
      · rw [hee]
      have hp := ((perm_cons_erase ((mem_erase_of_ne hee).mpr he')).cons e).symm.trans
        (perm_cons_erase he).symm
      have heq := (h ⟨_, hp⟩ (.given _)).trans (h ⟨_, (Perm.swap e e' _).trans hp⟩ (.given _)).symm
      simp only [getLogsFromTesseract, LogQuery.collect, flatMap_cons, ← append_assoc,
        append_cancel_right_eq, ← map_append] at heq
      exact map_injective_iff.mpr (fun _ _ hlog => congrArg RPCLog.toLog hlog) heq
  · intro h order order'
    rw [getLogsFromTesseract_order h order']
    refine flatMap_congr fun e he => map_congr_left fun log hlog => ?_
    exact congrArg (RPCLog.mk log · _ _)
      (h.1 e (order'.perm.mem_iff.mp he) (ne_nil_of_mem hlog)).symm

/-- What is found with the hash of a stored tesseract is that tesseract. -/
theorem eq_of_hash (B : LogBackend Ix) {q : LogQuery} {ts ts' : LoggedTesseract Ix}
    {height : UInt64} (hfound : B.foundAt q height = some ts')
    (hadded : B.getTesseract (B.hash ts.toTesseract) = .ok ts)
    (h : B.hash ts'.toTesseract = B.hash ts.toTesseract) : ts' = ts := by
  have hread := (Option.filter_eq_some_iff.mp hfound).1
  unfold Except.toOption at hread
  split at hread
  · rename_i t hok
    obtain ⟨hash, -, hget⟩ := Go.bind_eq_ok.mp hok
    cases hread
    rw [← B.keyed _ _ hget, h, hadded] at hget
    exact (Except.ok.inj hget).symm
  · cases hread

/-- The logs of another tesseract have another hash. -/
theorem other_logs_iff {ts' : LoggedTesseract Ix} {order' : ts'.receipts.Order}
    (hne : B.hash ts'.toTesseract ≠ B.hash ts.toTesseract) :
    B.getLogsFromTesseract q ts' order' = B.createRPCLogs q ts order ↔
      Silent q ts' ∧ Silent q ts := by
  constructor
  · intro heq
    have hnil : B.getLogsFromTesseract q ts' order' = [] := by
      by_contra hcons
      obtain ⟨log, hlog⟩ := exists_mem_of_ne_nil _ hcons
      obtain ⟨_, -, hmem⟩ := mem_flatMap.mp (heq ▸ hlog)
      obtain ⟨_, -, rfl⟩ := mem_map.mp hmem
      obtain ⟨_, -, hmem'⟩ := mem_flatMap.mp hlog
      obtain ⟨_, -, hsame⟩ := mem_map.mp hmem'
      exact hne (congrArg RPCLog.tsHash hsame)
    exact ⟨collect_eq_nil.mp hnil, collect_eq_nil.mp (heq.symm.trans hnil)⟩
  · rintro ⟨h', h⟩
    exact (collect_eq_nil.mpr h').trans (collect_eq_nil.mpr h).symm

/-- **Query and subscription give the same logs of an added tesseract, whatever the orders of their
    loops, exactly if** no log of a tesseract matches that only one of them shows, and where both
    show this one, its receipts are uniform. -/
theorem history_iff (B : LogBackend Ix) (q : LogQuery) (ts : LoggedTesseract Ix)
    (hadded : B.getTesseract (B.hash ts.toTesseract) = .ok ts) :
    (∀ order order', B.getLogsForQuery q (ts.height q.id) order =
        B.processTesseractAddedEvent q ts order') ↔
      (∀ ts', B.foundAt q (ts.height q.id) = some ts' → ts' ≠ ts ∨ ¬ B.Delivered q ts →
        Silent q ts') ∧
      (B.Delivered q ts → B.foundAt q (ts.height q.id) ≠ some ts → Silent q ts) ∧
      (B.foundAt q (ts.height q.id) = some ts → B.Delivered q ts → Uniform q ts) := by
  have : ∀ t : LoggedTesseract Ix, Nonempty t.receipts.Order := fun t => ⟨.given _⟩
  unfold getLogsForQuery
  rcases hfound : B.foundAt q (ts.height q.id) with _ | ts'
  · by_cases hdel : B.Delivered q ts
    · simp [hdel, processTesseractAddedEvent_pos hdel, createRPCLogs, eq_comm (a := []),
        collect_eq_nil]
    · simp [hdel, processTesseractAddedEvent_neg hdel]
  -- the order of the loop over the tesseract that is found is any
  have hsurj : Function.Surjective fun order : ∀ t : LoggedTesseract Ix, t.receipts.Order =>
    order ts' := Function.surjective_eval ts'
  refine (hsurj.forall (p := fun order' => ∀ order,
    B.getLogsFromTesseract q ts' order' = B.processTesseractAddedEvent q ts order)).symm.trans ?_
  by_cases hdel : B.Delivered q ts
  · simp only [processTesseractAddedEvent_pos hdel]
    by_cases heq : ts' = ts
    · subst heq
      simp [hdel, loops_iff]
    · have hne := mt (B.eq_of_hash hfound hadded) heq
      simp [heq, hdel, other_logs_iff hne]
  · simp [hdel, processTesseractAddedEvent_neg hdel, getLogsFromTesseract, collect_eq_nil]

/-! ## 3. One log -/

/-- A log of an interaction with the hash `ixHash`, in a tesseract of view 1. -/
def logged (ixHash : Hash) : LoggedTesseract Unit :=
  ⟨⟨⟨AList.insert ⟨0⟩ ⟨1, nilHash, nilHash, none, nilHash⟩ ∅, nilHash, nilHash, 0, 0, 0, 0,
    ⟨[], nilHash, nilHash, 1, ∅, ∅, ∅, nilHash, []⟩⟩, [], [], none⟩, [()],
    AList.insert ixHash ⟨ixHash, [[⟨⟨0⟩, ⟨0⟩, [], []⟩]]⟩ ∅⟩

/-- A store with one tesseract, which is the one at every height. -/
def only (ts : LoggedTesseract Unit) : LogBackend Unit where
  hash _ := nilHash
  createRPCInteraction _ := .ok ()
  getTesseractHeightEntry _ _ := .ok nilHash
  getTesseract h := if h = nilHash then .ok ts else .error (.new "unknown hash")
  keyed h ts' hget := by
    split at hget
    · exact Eq.symm ‹h = nilHash›
    · cases hget

/-- Where the interaction has the hash of all, both show the log alike. -/
theorem history_agrees :
    (only (logged nilHash)).getTesseract nilHash = .ok (logged nilHash) ∧
    (only (logged nilHash)).getLogsForQuery ⟨⟨0⟩, []⟩ 1 (fun _ => .given _) =
      (only (logged nilHash)).processTesseractAddedEvent ⟨⟨0⟩, []⟩ (logged nilHash)
        (.given _) := by
  have hfound : (only (logged nilHash)).foundAt ⟨⟨0⟩, []⟩ 1 = some (logged nilHash) := rfl
  have hdel : (only (logged nilHash)).Delivered ⟨⟨0⟩, []⟩ (logged nilHash) := ⟨rfl, rfl⟩
  refine ⟨rfl, (history_iff (only (logged nilHash)) ⟨⟨0⟩, []⟩ (logged nilHash) rfl).mpr
    ⟨fun ts' h hor => ?_, fun _ hne => absurd hfound hne, fun _ _ => ⟨?_, ?_⟩⟩ _ _⟩
  · exact absurd (Option.some.inj (h.symm.trans hfound)) (hor.resolve_right (not_not_intro hdel))
  · simp [logged, AList.insert, nilHash]
  · simp [logged, AList.insert]

/-- **The same log with two hashes.** -/
theorem history_differs : ∃ (B : LogBackend Unit) (q : LogQuery) (ts : LoggedTesseract Unit),
    B.getTesseract (B.hash ts.toTesseract) = .ok ts ∧
    (B.getLogsForQuery q (ts.height q.id) (fun _ => .given _)).map (·.ixHash) = [nilHash] ∧
    (B.processTesseractAddedEvent q ts (.given _)).map (·.ixHash) = [⟨1⟩] :=
  ⟨only (logged ⟨1⟩), ⟨⟨0⟩, []⟩, logged ⟨1⟩, rfl, by decide, by decide⟩

end LogBackend

end GoMoi
