/-
  File:      GoMoi/Lattice/Positions.lean
  Subject:   The position of this node among the consensus nodes of an account, as `AddTesseract`
             records it in the meta information of the account.

  An update takes the position from the context delta of the tesseract. Without a delta it stays as
  it was, and a first record has 0.

  * `wp_addParticipant_onto` -- the record after a participant was added;
  * `Held` -- what a node has of an account, over the tesseracts that are added for it;
  * `positions_iff` -- which histories of an account keep the recorded position of the node right.
-/
import GoMoi.Lattice.Recorded

namespace GoMoi

open FaultyStore Disk Proc List

namespace ChainManager

variable {E : ChainEnv} {id : Identifier} {tsHash : Hash} {st : State}

/-! ## 1. The record after an update -/

/-- **The record after a participant was added** is that of the update. -/
theorem wp_addParticipant_onto {commitHash : Hash} {transition : ChainTransition} (s : Disk) :
    wp (addParticipant E id tsHash commitHash st transition)
      (fun err s' => err = none → ∃ o, transition.object id = .ok o ∧
        metaOf E.metas s'.entries id =
          some ((metaUpdate E id tsHash commitHash st o).onto (metaOf E.metas s.entries id)))
      (fun _ => True) s := by
  unfold addParticipant
  rw [wp_bind]
  refine wp_ofGo.mpr ⟨fun o ho => ?_, fun _ _ => trivial⟩
  have hother : ∀ k m v, k.length ≠ 48 → metaOf E.metas m id = metaOf E.metas s.entries id →
      metaOf E.metas (m.insert k v) id = metaOf E.metas s.entries id := by
    intro k m v hlen hm
    exact (metaOf_insert_ne (ne_of_apply_ne List.length (by simpa using hlen.symm))).trans hm
  refine wp_seq (wp_weak ((flushObject_keeps fun w m hw =>
    hother _ m _ (by rw [hw.key_length]; omega)).to_wp rfl) fun _ _ h => h) fun err s1 h1 => ?_
  rcases err with _ | e
  swap
  · exact nofun
  refine wp_seq (wp_weak ((insert_keeps fun m _ =>
    hother _ m _ (by rw [tesseractHeightKey_length]; omega)).to_wp h1) fun _ _ h => h)
    fun err s2 h2 => ?_
  cases err with
  | some e => exact nofun
  | none =>
    refine wp_seq (wp_weak (wp_updateAccMetaInfo_onto _ s2) fun _ _ h => h)
      fun r s' h hnone => ⟨o, ho, ?_⟩
    rw [← h2]
    exact h.2 (Option.map_eq_none_iff.mp hnone)

/-! ## 2. Positions over the tesseracts of an account -/

/-- The meta information a node has of an account, and the consensus nodes of the account. -/
structure Held where
  record : Option AccountMetaRecord
  nodes : List KramaID

/-- A tesseract added for an account. A sub-account has the consensus nodes of the account it
    inherits from. -/
structure AddedState where
  tsHash : Hash
  commitHash : Hash
  st : State
  o : StateObject
  inherited : List KramaID

/-- The index of this node, or the marker. -/
def indexIn (E : ChainEnv) (nodes : List KramaID) : Int :=
  DeltaGroup.nodeIndex ⟨nodes, []⟩ E.kramaID

namespace Held

/-- A later tesseract of the account is recorded. -/
def isPassed (x : Held) (e : AddedState) : Bool :=
  x.record.any (¬ ·.height ≤ e.st.height)

/-- The nodes that replace those of the account (`UpdateContext`). -/
def replaced (id : Identifier) (x : Held) (e : AddedState) : Option (List KramaID) :=
  match e.st.contextDelta with
  | none => none
  | some d =>
    if x.isPassed e ∨ id.isParticipantVariant ∨ d.consensusNodes = [] then none
    else some d.consensusNodes

/-- The consensus nodes if they are not replaced. -/
def kept (id : Identifier) (x : Held) (e : AddedState) : List KramaID :=
  if id.isParticipantVariant then e.inherited else x.nodes

def step (E : ChainEnv) (id : Identifier) (x : Held) (e : AddedState) : Held where
  record := some ((metaUpdate E id e.tsHash e.commitHash e.st e.o).onto x.record)
  nodes := (x.replaced id e).getD (x.kept id e)

/-- The recorded position is that of the node. -/
def Right (E : ChainEnv) (x : Held) : Prop :=
  ∀ r, x.record = some r → r.positionInContextSet = indexIn E x.nodes

/-- A delta gives the position; a first record without one has 0, and else it stays. -/
def position (E : ChainEnv) (x : Held) (e : AddedState) : Int :=
  if x.isPassed e then indexIn E x.nodes
  else match e.st.contextDelta with
    | none => if x.record.isNone then 0 else indexIn E x.nodes
    | some d => d.nodeIndex E.kramaID

/-- The condition: nodes that are not replaced have this node where the update puts it. -/
def Placed (E : ChainEnv) (id : Identifier) (x : Held) (e : AddedState) : Prop :=
  x.replaced id e = none → indexIn E (x.kept id e) = x.position E e

variable {x : Held} {e : AddedState}

theorem position_onto (hx : x.Right E) :
    ((metaUpdate E id e.tsHash e.commitHash e.st e.o).onto x.record).positionInContextSet =
      x.position E e := by
  obtain ⟨record, _⟩ := x
  rcases record with _ | r
  · rfl
  have hpos := hx r rfl
  cases hd : e.st.contextDelta <;> by_cases hle : r.height ≤ e.st.height <;>
    simp [MetaUpdate.onto, MetaUpdate.applied, metaUpdate, position, isPassed, hle, hd, hpos]

theorem right_step_iff (hx : x.Right E) : (x.step E id e).Right E ↔ x.Placed E id e := by
  simp only [Right, step, Option.some.injEq, forall_eq', position_onto hx, Placed]
  rcases hr : x.replaced id e with _ | _
  · simp [eq_comm]
  refine iff_of_true ?_ nofun
  unfold replaced at hr
  split at hr
  case h_1 => cases hr
  case h_2 d hd =>
    obtain ⟨hnot, hnodes⟩ := Option.ite_none_left_eq_some.mp hr
    cases hnodes
    simp only [not_or] at hnot
    rw [position, if_neg hnot.1, hd]
    rfl

end Held

/-- **The recorded position is right after every tesseract exactly if each is placed.** -/
theorem positions_iff (E : ChainEnv) (id : Identifier) (nodes : List KramaID)
    (es : List AddedState) :
    Along (Held.step E id) (fun x e => (x.step E id e).Right E) ⟨none, nodes⟩ es ↔
      Along (Held.step E id) (Held.Placed E id) ⟨none, nodes⟩ es :=
  Along.congr (fun _ _ hx => (Held.right_step_iff hx).mpr) (fun _ _ => Held.right_step_iff) es
    nofun

open OneByOne in
/-- The first tesseract that a node adds carries no delta: the second node is recorded as the
    first. -/
theorem late_start_misplaced :
    ¬ Along (Held.step chain first) (fun x e => (x.step chain first e).Right chain)
      ⟨none, [[1], []]⟩ [⟨⟨7⟩, nilHash, recorded, object, []⟩] :=
  fun h => absurd (h.1 _ rfl) (by decide)

end ChainManager

end GoMoi
