/-
  File:      GoMoi/Ixpool/Queries.lean
  Subject:   The interactions that the pool lists (`ixpool/query.go`, `ixpool/account.go`).

  An account has two queues for each of its keys. The loops over them do not append: a queue that is
  not empty takes the place of the queues before it.

  * **`listsAll_iff`** -- an account is listed in full if at most one of its keys has interactions
    of the kind asked for.
-/
import GoMoi.Common.Types

namespace GoMoi

variable {Ix : Type}

/-- `type accountQueue struct`; the interactions are pointers that the queries do not follow. -/
structure AccountQueue (Ix : Type) where
  keyID : UInt64
  enqueued : List Ix
  promoted : List Ix

/-- The result of a loop over the queues of an account. -/
def lastQueue (queue : AccountQueue Ix → List Ix) (queues : List (AccountQueue Ix)) : List Ix :=
  queues.foldl (fun ixs q => if (queue q).length ≠ 0 then queue q else ixs) []

/-- The queues before one that is not empty have to be empty. -/
theorem lastQueue_perm_iff (queue : AccountQueue Ix → List Ix) (queues : List (AccountQueue Ix)) :
    (lastQueue queue queues).Perm (queues.flatMap queue) ↔
      queues.Pairwise fun a b => queue a = [] ∨ queue b = [] := by
  induction queues using List.reverseRecOn with
  | nil => simp [lastQueue]
  | append_singleton queues q ih =>
    have hlast : lastQueue queue (queues ++ [q]) =
        if (queue q).length ≠ 0 then queue q else lastQueue queue queues := by simp [lastQueue]
    rw [hlast, List.flatMap_append, List.pairwise_append]
    by_cases hq : queue q = []
    · simp [hq, ih]
    have hall : (queue q).Perm (queues.flatMap queue ++ queue q) ↔ ∀ a ∈ queues, queue a = [] := by
      rw [← List.flatMap_eq_nil_iff]
      refine ⟨fun h => ?_, fun h => by rw [h, List.nil_append]⟩
      have hlen := h.length_eq
      rw [List.length_append] at hlen
      exact List.eq_nil_of_length_eq_zero (by omega)
    have hpairs : (∀ a ∈ queues, queue a = []) →
        queues.Pairwise fun a b => queue a = [] ∨ queue b = [] :=
      fun h => List.pairwise_of_forall_mem_list fun a ha _ _ => .inl (h a ha)
    simpa [hq, hall] using hpairs

/-- `type accountsManager struct`: the queues of each account. -/
abbrev AccountsManager (Ix : Type) : Type := GoMap Identifier (List (AccountQueue Ix))

namespace AccountsManager

variable (m : AccountsManager Ix) (includeEnqueued : Bool)

/-- `GetIxs`: the promoted and the enqueued interactions of an account. -/
def getIxs (id : Identifier) : List Ix × List Ix :=
  match m.lookup id with
  | none => ([], [])
  | some queues => (lastQueue (·.promoted) queues,
      if includeEnqueued then lastQueue (·.enqueued) queues else [])

/-- One map of `GetAllIxs`: the entry of an account is written by its own queues that are not
    empty. -/
def allOf (queue : AccountQueue Ix → List Ix) : GoMap Identifier (List Ix) :=
  m.filterMap fun _ queues => match lastQueue queue queues with
    | [] => none
    | ixs => some ixs

/-- `GetAllIxs`. -/
def allIxs : GoMap Identifier (List Ix) × GoMap Identifier (List Ix) :=
  (m.allOf (·.promoted), if includeEnqueued then m.allOf (·.enqueued) else ∅)

/-- Both queries list each interaction of the account once, for all of its keys. -/
structure ListsAll (id : Identifier) (queues : List (AccountQueue Ix)) : Prop where
  promoted : (m.getIxs includeEnqueued id).1.Perm (queues.flatMap (·.promoted))
  enqueued : includeEnqueued = true →
    (m.getIxs includeEnqueued id).2.Perm (queues.flatMap (·.enqueued))
  allPromoted : (((m.allIxs includeEnqueued).1.lookup id).getD []).Perm
    (queues.flatMap (·.promoted))
  allEnqueued : includeEnqueued = true → (((m.allIxs includeEnqueued).2.lookup id).getD []).Perm
    (queues.flatMap (·.enqueued))

variable {m} {id : Identifier} {queues : List (AccountQueue Ix)}

theorem getD_allOf (h : m.lookup id = some queues) (queue : AccountQueue Ix → List Ix) :
    ((m.allOf queue).lookup id).getD [] = lastQueue queue queues := by
  rw [allOf, GoMap.lookup_filterMap, h, Option.bind_some]
  cases lastQueue queue queues <;> rfl

/-- **When an account is listed in full**: of two of its keys, one has no promoted interactions, and
    one has no enqueued interactions if these are asked for. -/
theorem listsAll_iff (m : AccountsManager Ix) (includeEnqueued : Bool) :
    (∀ id queues, m.lookup id = some queues → m.ListsAll includeEnqueued id queues) ↔
      ∀ id queues, m.lookup id = some queues →
        queues.Pairwise (fun a b => a.promoted = [] ∨ b.promoted = []) ∧
        (includeEnqueued = true →
          queues.Pairwise fun a b => a.enqueued = [] ∨ b.enqueued = []) := by
  refine forall_congr' fun id => forall_congr' fun queues => imp_congr_right fun h => ?_
  have hget : m.getIxs includeEnqueued id = (lastQueue (·.promoted) queues,
      if includeEnqueued then lastQueue (·.enqueued) queues else []) := by rw [getIxs, h]
  simp only [← lastQueue_perm_iff]
  constructor
  · rintro ⟨hpromoted, henqueued, -, -⟩
    rw [hget] at hpromoted henqueued
    exact ⟨hpromoted, fun hi => by simpa [hi] using henqueued hi⟩
  rintro ⟨hpromoted, henqueued⟩
  refine ⟨?_, fun hi => ?_, ?_, fun hi => ?_⟩
  · rwa [hget]
  · rw [hget, if_pos hi]
    exact henqueued hi
  · rwa [allIxs, getD_allOf h]
  · rw [allIxs, if_pos hi, getD_allOf h]
    exact henqueued hi

/-- Two keys with one promoted interaction each: the first is not listed. -/
theorem two_keys_listed_short :
    ¬ ∀ id queues, (AList.singleton nilIdentifier [⟨0, [], [7]⟩, ⟨1, [], [8]⟩] :
      AccountsManager Nat).lookup id = some queues →
        ListsAll (AList.singleton nilIdentifier [⟨0, [], [7]⟩, ⟨1, [], [8]⟩]) false id queues := by
  intro h
  exact absurd (h nilIdentifier _ rfl).promoted (by decide)

end AccountsManager

end GoMoi
