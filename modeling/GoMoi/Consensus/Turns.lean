/-
  File:      GoMoi/Consensus/Turns.lean
  Subject:   Whose turn it is to propose: the view that the pool allots to an interaction
             (`ixpool/ixpool.go`), and the test that a node makes of itself and of its peers
             (`consensus/krama_engine.go`).

  The consensus nodes of the leader candidate take turns, by the remainder of the view. A node finds
  its own place in the record of the account, and the place of a peer in the context. `getNextView`
  wraps around when no view with the remainder is left below `2 ^ 64`, and a context of fewer than
  five nodes leaves views at which the test of a peer panics.

  * **`firstTurn_iff`** -- the allotted view is the node's first turn, if it has one;
  * **`agree_iff`** -- when a node and its peer say the same about the node at every view.
-/
import Mathlib.Data.UInt
import GoMoi.Consensus.ExecutionContext
import GoMoi.Lattice.Manager
import GoMoi.State.Object

namespace GoMoi

/-! ## 1. The two computations of a turn -/

/-- What a node reads to find out whose turn it is. -/
structure TurnNode where
  selfID : KramaID
  getAccountMetaInfo : Identifier → Except Err AccountMetaRecord
  getContext : Identifier → Hash → Except Err Bytes
  env : CommitteeEnv

/-- An interaction, as `allocateView` sees it. -/
structure AllottedIx where
  leaderCandidateAcc : Identifier
  shouldPropose : Bool
  allottedView : UInt64

/-- `getNextView`. -/
def getNextView (view nodePos : UInt64) : UInt64 :=
  let size := UInt64.ofNat consensusNodesSize
  let diffFromStart := view % size
  let start := view - diffFromStart
  if diffFromStart ≤ nodePos then start + nodePos else start + size + nodePos

namespace TurnNode

variable (n : TurnNode)

/-- The contexts that `GetConsensusNodes` reads. -/
def contexts : ContextStore :=
  ⟨n.getContext, fun id => (n.getAccountMetaInfo id).map (·.inheritedAccount)⟩

/-- The record of a leader candidate; of a sub-account, that of the account it inherits from. -/
def turnRecord (id : Identifier) : Except Err AccountMetaRecord := do
  let metaInfo ← n.getAccountMetaInfo id
  if id.isParticipantVariant then n.getAccountMetaInfo metaInfo.inheritedAccount else pure metaInfo

/-- One round of `allocateView`; -1 is `NodeNotFound`. -/
def allotView (view : UInt64) (ixn : AllottedIx) : AllottedIx :=
  match n.turnRecord ixn.leaderCandidateAcc with
  | .error _ => ixn
  | .ok metaInfo =>
    if metaInfo.positionInContextSet = -1 then ixn
    else { ixn with
      shouldPropose := true
      allottedView := getNextView view (UInt64.ofInt metaInfo.positionInContextSet) }

/-- `isOperatorEligible`, for a batch with the leader candidate `id`. -/
def isOperatorEligible (peerID : KramaID) (id : Identifier) (currentView : UInt64) : Go Bool :=
  match n.turnRecord id with
  | .error _ => pure false
  | .ok metaInfo =>
    let nodePosition := currentView % UInt64.ofNat consensusNodesSize
    if peerID = n.selfID then
      if metaInfo.positionInContextSet < 0 then pure false
      else pure (nodePosition = UInt64.ofInt metaInfo.positionInContextSet)
    else match getConsensusNodes n.env n.contexts id metaInfo.contextHash with
      | .error _ => pure false
      | .ok (consensusNodes, _) => do
        let node ← sliceAt (consensusNodes.map (·.kramaID)) nodePosition.toNat
        pure (peerID = node)

end TurnNode

/-- A node that has a record for the leader candidate. -/
structure Informed (id : Identifier) extends TurnNode where
  metaInfo : AccountMetaRecord
  found : toTurnNode.turnRecord id = .ok metaInfo

theorem toNat_ofInt_place {place : Nat} (hlt : place < consensusNodesSize) :
    (UInt64.ofInt place).toNat = place := by
  unfold consensusNodesSize at hlt
  rw [Time.toNat_ofInt]
  omega

/-- **The test that a node makes of itself.** -/
theorem Informed.self_test {id : Identifier} (n : Informed id) {place : Nat}
    (hplace : n.metaInfo.positionInContextSet = place) (hlt : place < consensusNodesSize)
    (view : UInt64) : n.isOperatorEligible n.selfID id view =
      .ok (decide (view.toNat % consensusNodesSize = place)) := by
  have hpos : ¬ n.metaInfo.positionInContextSet < 0 := by omega
  have hiff : view % UInt64.ofNat consensusNodesSize = UInt64.ofInt place ↔
      view.toNat % consensusNodesSize = place := by
    rw [← UInt64.toNat_inj, UInt64.toNat_mod, toNat_ofInt_place hlt]
    rfl
  simp only [TurnNode.isOperatorEligible, n.found, if_pos, if_neg hpos]
  rw [hplace, decide_eq_decide.mpr hiff]
  rfl

/-! ## 2. The allotted view -/

/-- A node with a place among the consensus nodes of the leader candidate. -/
structure Placed (id : Identifier) extends Informed id where
  place : Fin consensusNodesSize
  recorded : metaInfo.positionInContextSet = place.val

namespace Placed

variable {id : Identifier} (n : Placed id) (view : UInt64)

/-- A view, not before `view`, whose remainder is the place of the node. -/
def IsTurn (v : UInt64) : Prop :=
  view.toNat ≤ v.toNat ∧ v.toNat % consensusNodesSize = n.place

/-- The least of these views, less than a rotation ahead, and the first at which the node is
    eligible. -/
structure FirstTurn (v : UInt64) : Prop where
  isTurn : n.IsTurn view v
  least : ∀ w, n.IsTurn view w → v.toNat ≤ w.toNat
  near : v.toNat < view.toNat + consensusNodesSize
  eligible : n.isOperatorEligible n.selfID id v = .ok true
  noEarlier : ∀ w : UInt64, view.toNat ≤ w.toNat → w.toNat < v.toNat →
    n.isOperatorEligible n.selfID id w = .ok false

theorem allotView_eq (ixn : AllottedIx) :
    (n.allotView view { ixn with leaderCandidateAcc := id }).allottedView =
      getNextView view (UInt64.ofInt n.place.val) := by
  have hne : ¬ n.metaInfo.positionInContextSet = -1 := by
    rw [n.recorded]
    omega
  simp only [TurnNode.allotView, n.found, if_neg hne]
  rw [n.recorded]

/-- **`getNextView`, as long as there is a turn.** -/
theorem getNextView_isTurn {w : UInt64} (hw : n.IsTurn view w) :
    n.IsTurn view (getNextView view (UInt64.ofInt n.place.val)) ∧
      (getNextView view (UInt64.ofInt n.place.val)).toNat < view.toNat + consensusNodesSize := by
  obtain ⟨hle, hrem⟩ := hw
  have hto := toNat_ofInt_place n.place.isLt
  have hlt := n.place.isLt
  have hbound := w.toNat_lt
  have hsize : (UInt64.ofNat consensusNodesSize).toNat = 5 := rfl
  simp only [IsTurn, getNextView, UInt64.le_iff_toNat_le]
  generalize UInt64.ofNat consensusNodesSize = size at hsize ⊢
  generalize n.place.val = p at hrem hto hlt ⊢
  unfold consensusNodesSize at hrem hlt ⊢
  have hdiff : (view % size).toNat = view.toNat % 5 := by rw [UInt64.toNat_mod, hsize]
  have hstart : (view - view % size).toNat = view.toNat - view.toNat % 5 := by
    rw [UInt64.toNat_sub_of_le _ _ (UInt64.le_iff_toNat_le.mpr (by omega)), hdiff]
  split
  · -- the turn in the rotation of `view`
    rw [UInt64.toNat_add, hstart, hto, Nat.mod_eq_of_lt (by omega)]
    omega
  -- the turn in the next one
  rw [UInt64.toNat_add, UInt64.toNat_add, hstart, hto, hsize, Nat.mod_add_mod,
    Nat.mod_eq_of_lt (by omega)]
  omega

/-- **The view that is allotted to an interaction is the first turn of the node**, as long as the
    node has a turn. -/
theorem firstTurn_iff (ixn : AllottedIx) :
    n.FirstTurn view (n.allotView view { ixn with leaderCandidateAcc := id }).allottedView ↔
      ∃ w, n.IsTurn view w := by
  refine ⟨fun h => ⟨_, h.isTurn⟩, fun ⟨w, hw⟩ => ?_⟩
  rw [n.allotView_eq view ixn]
  obtain ⟨hturn, hnear⟩ := n.getNextView_isTurn view hw
  generalize getNextView view (UInt64.ofInt n.place.val) = v at hturn hnear
  have hleast : ∀ w, n.IsTurn view w → v.toNat ≤ w.toNat := by
    unfold IsTurn consensusNodesSize at *
    omega
  have htest := n.self_test n.recorded n.place.isLt
  refine ⟨hturn, hleast, hnear, ?_, fun w hw hlt => ?_⟩
  · rw [htest, decide_eq_true hturn.2]
  · rw [htest, decide_eq_false fun h => absurd (hleast w ⟨hw, h⟩) (by omega)]

end Placed

namespace TurnSample

/-- A node that has recorded this place in a context whose one node is `[1]`. -/
def turnNode (self : KramaID) (place : Int) : TurnNode where
  selfID := self
  getAccountMetaInfo id := .ok ⟨⟨id, 0, nilHash, nilHash, nilHash, nilIdentifier⟩, .regularAccount,
    nilHash, nilHash, place⟩
  getContext _ _ := .ok []
  env := ⟨fun _ => .ok ⟨[[1]], nilHash⟩, ⟨[⟨0, [1], [7]⟩]⟩⟩

def second : Placed nilIdentifier :=
  { turnNode [1] 1 with metaInfo := _, found := rfl, place := ⟨1, by decide⟩, recorded := rfl }

/-- The second node is allotted the view zero when the views come to an end. -/
theorem last_rotation_wraps : ¬ second.FirstTurn (2 ^ 64 - 2)
    (second.allotView (2 ^ 64 - 2) ⟨nilIdentifier, false, 0⟩).allottedView :=
  fun h => absurd h.isTurn.1 (by decide +kernel)

end TurnSample

/-! ## 3. The two tests -/

/-- The nodes that `getConsensusNodes` has chosen for an account and that `CreateContext` does not
    refuse. -/
structure EngineContext where
  k : ExecutionConfig
  cs : ExecutionCluster
  nodes : List KramaID
  chosen : k.getConsensusNodes cs consensusNodesSize = .ok nodes
  accepted : Object.minimumContextSize ≤ nodes.length

namespace EngineContext

variable {c : EngineContext} {node : KramaID} {i : Nat}

theorem length_le (c : EngineContext) : c.nodes.length ≤ consensusNodesSize := by
  have h := c.chosen
  unfold ExecutionConfig.getConsensusNodes at h
  split at h
  · split at h
    · cases h
    · rw [← Except.ok.inj h]
      exact List.length_take_le _ _
  · obtain ⟨_, -, h⟩ := Go.bind_eq_ok.mp h
    rw [← Except.ok.inj h, List.length_map]
    exact List.length_take_le _ _

/-- The first seat of a node. -/
abbrev Seat (c : EngineContext) (node : KramaID) (i : Nat) : Prop :=
  c.nodes.findIdx? (· = node) = some i

theorem getElem?_of_seat (h : c.Seat node i) : c.nodes[i]? = some node := by
  obtain ⟨hlt, hnode, -⟩ := List.findIdx?_eq_some_iff_getElem.mp h
  rw [List.getElem?_eq_getElem hlt, of_decide_eq_true hnode]

theorem lt_of_getElem? (h : c.nodes[i]? = some node) : i < consensusNodesSize :=
  Nat.lt_of_lt_of_le (List.getElem?_eq_some_iff.mp h).1 c.length_le

end EngineContext

/-- A node that has the context, and has recorded its place in it as `addParticipant` does. -/
structure Holder (c : EngineContext) (so : SystemObject) (id : Identifier) extends Informed id where
  recorded : metaInfo.positionInContextSet = (DeltaGroup.mk c.nodes []).nodeIndex selfID
  base : Identifier
  base_eq : toTurnNode.contexts.baseAccount id = .ok base
  context : MetaContextObject
  stored : getMetaContextObject env toTurnNode.contexts base metaInfo.contextHash = .ok context
  nodes_eq : context.consensusNodes = c.nodes
  validators : env.systemObject = so

namespace Holder

open EngineContext

variable {c : EngineContext} {so : SystemObject} {id : Identifier} {x y : Holder c so id}

theorem self_eq (x : Holder c so id) (view : UInt64) : x.isOperatorEligible x.selfID id view =
    .ok (decide (c.Seat x.selfID (view.toNat % consensusNodesSize))) := by
  have hrec := x.recorded
  rw [DeltaGroup.nodeIndex] at hrec
  obtain hidx | ⟨i, hidx⟩ := Option.eq_none_or_eq_some (c.nodes.findIdx? (· = x.selfID))
  · have hneg : x.metaInfo.positionInContextSet < 0 := by
      rw [hrec, hidx]
      decide
    simp only [TurnNode.isOperatorEligible, x.found, if_pos, if_pos hneg, Seat, hidx]
    rfl
  · rw [x.self_test (hrec.trans (by rw [hidx])) (lt_of_getElem? (getElem?_of_seat hidx))]
    simp [Seat, hidx, eq_comm]

/-- The test that a peer makes, by what `GetConsensusNodes` answers. -/
theorem peer_eq (hne : x.selfID ≠ y.selfID) (view : UInt64) :
    y.isOperatorEligible x.selfID id view = match so.getValidatorsByKramaID c.nodes with
      | .error _ => .ok false
      | .ok _ => sliceAt c.nodes ((view.toNat % consensusNodesSize : Nat) : Int) >>= fun node =>
          pure (decide (x.selfID = node)) := by
  simp only [TurnNode.isOperatorEligible, y.found, if_neg hne, getConsensusNodes,
    y.base_eq, y.stored, y.validators, y.nodes_eq]
  rcases hvals : so.getValidatorsByKramaID c.nodes with e | _
  · rfl
  simp only [SystemObject.getValidatorsByKramaID_ids hvals]
  rfl

/-- What the tests should come to: the node and its peer say the same about the node at every view,
    without a panic, and they do not both find themselves eligible. -/
structure Agree (x y : Holder c so id) : Prop where
  same : ∀ view, y.isOperatorEligible x.selfID id view = x.isOperatorEligible x.selfID id view
  answered : ∀ view, ∃ b, y.isOperatorEligible x.selfID id view = .ok b
  one : ∀ view, x.isOperatorEligible x.selfID id view = .ok true →
    y.isOperatorEligible y.selfID id view = .ok true → x.selfID = y.selfID

/-- The context has five validators, and the node no second seat among them; or a node of the
    context is not a validator, and this node has no seat at all. -/
def Settled (x : Holder c so id) : Prop :=
  match so.getValidatorsByKramaID c.nodes with
  | .ok _ => c.nodes.length = consensusNodesSize ∧
    ∀ i, c.nodes[i]? = some x.selfID → c.Seat x.selfID i
  | .error _ => ∀ i, ¬ c.Seat x.selfID i

theorem eligible_unique {view : UInt64} (hx : x.isOperatorEligible x.selfID id view = .ok true)
    (hy : y.isOperatorEligible y.selfID id view = .ok true) : x.selfID = y.selfID := by
  rw [self_eq, Except.ok.injEq, decide_eq_true_iff] at hx hy
  exact Option.some.inj ((getElem?_of_seat hx).symm.trans (getElem?_of_seat hy))

theorem toNat_ofNat_seat {i : Nat} (hi : i < consensusNodesSize) :
    (UInt64.ofNat i).toNat % consensusNodesSize = i := by
  rw [UInt64.toNat_ofNat_of_lt' (Nat.lt_trans hi (by decide)), Nat.mod_eq_of_lt hi]

/-- **When a node and its peer agree on the turns of the node.** -/
theorem agree_iff (x y : Holder c so id) : Agree x y ↔ x.selfID = y.selfID ∨ x.Settled := by
  by_cases hne : x.selfID = y.selfID
  · have htest : ∀ view, y.isOperatorEligible x.selfID id view =
        x.isOperatorEligible x.selfID id view := by
      intro view
      rw [self_eq, hne, self_eq]
    exact iff_of_true ⟨htest, fun view => ⟨_, (htest view).trans (self_eq x view)⟩,
      fun _ => eligible_unique⟩ (.inl hne)
  rw [or_iff_right hne, Settled]
  have hpeer := peer_eq hne
  rcases hvals : so.getValidatorsByKramaID c.nodes with e | _
  · simp only [hvals] at hpeer ⊢
    constructor
    · intro h i hi
      have hsame := h.same (UInt64.ofNat i)
      rw [hpeer, self_eq, toNat_ofNat_seat (lt_of_getElem? (getElem?_of_seat hi)),
        decide_eq_true hi] at hsame
      cases hsame
    · intro h
      refine ⟨fun view => ?_, fun view => ⟨_, hpeer view⟩, fun _ => eligible_unique⟩
      rw [hpeer, self_eq, decide_eq_false (h _)]
  simp only [hvals] at hpeer ⊢
  constructor
  · intro h
    refine ⟨?_, fun i hi => ?_⟩
    · by_contra hlen
      obtain ⟨b, hb⟩ := h.answered (UInt64.ofNat c.nodes.length)
      rw [hpeer, toNat_ofNat_seat (Nat.lt_of_le_of_ne c.length_le hlen)] at hb
      simp [sliceAt] at hb
    -- at the view of any of its seats the peer accepts the node
    have hsame := h.same (UInt64.ofNat i)
    rw [hpeer, self_eq, toNat_ofNat_seat (lt_of_getElem? hi), sliceAt_natCast hi] at hsame
    simpa using hsame.symm
  · rintro ⟨hlen, hone⟩
    have htest : ∀ view, y.isOperatorEligible x.selfID id view =
        x.isOperatorEligible x.selfID id view := by
      intro view
      obtain ⟨node, hnode⟩ : ∃ node, c.nodes[view.toNat % consensusNodesSize]? = some node :=
        ⟨_, List.getElem?_eq_getElem (by rw [hlen]; exact Nat.mod_lt _ (by decide))⟩
      rw [hpeer, self_eq, sliceAt_natCast hnode]
      refine congrArg Except.ok (decide_eq_decide.mpr ⟨fun h => hone _ (h ▸ hnode), fun h => ?_⟩)
      exact Option.some.inj ((getElem?_of_seat h).symm.trans hnode)
    exact ⟨htest, fun view => ⟨_, (htest view).trans (self_eq x view)⟩, fun _ => eligible_unique⟩

end Holder

namespace TurnSample

/-- The random set of the cluster has one node. -/
def short : EngineContext where
  k := Sample.executionConfig
  cs := Sample.newAccountCluster 0
  nodes := [[1]]
  chosen := rfl
  accepted := by decide

def holder (self : KramaID) : Holder short ⟨[⟨0, [1], [7]⟩]⟩ nilIdentifier :=
  { turnNode self ((DeltaGroup.mk [[1]] []).nodeIndex self) with
    metaInfo := _, found := rfl, recorded := rfl, base := _, base_eq := rfl, context := _
    stored := rfl, nodes_eq := rfl, validators := rfl }

/-- At the view one the peer has no node to compare with. -/
theorem short_context_panics : ¬ Holder.Agree (holder [1]) (holder [2]) := by
  intro h
  obtain ⟨b, hb⟩ := h.answered 1
  cases hb

end TurnSample

end GoMoi
