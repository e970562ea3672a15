/-
  File:      GoMoi/Consensus/Stochastic.lean
  Subject:   How the leader draws the random set (`getStochasticNodes` of
             `consensus/krama_engine.go`, `ShuffledList` of `consensus/shuffle.go`,
             `GetActiveValidatorIndices` of `state/system_getters.go`, `DistinctNodes` of
             `consensus/types/nodeset.go`).

  The active validators are shuffled, and from the front of the list those are taken that are in no
  context set, until there are as many as asked for.

  * **`stochasticNodes_spec`** -- without an error there are exactly as many as asked for, distinct,
    active, and, in a registry that is in order, in no set of the committee;
  * `context_node_drawn` -- the draw takes positions and the sets are exempted by the ids of their
    nodes, so a registry that is not in order may give a node of a context set.

  The shuffle is a package of its own; it is assumed to permute the list.
-/
import GoMoi.Consensus.Committee

namespace GoMoi

open List

/-! ## 1. The draw -/

/-- `type Validator struct`, as far as it is read here. -/
structure Validator extends ValidatorInfo where
  activeStake : Int
  deriving DecidableEq, Repr

/-- `IsActive`. -/
def Validator.isActive (v : Validator) (minimumStake : Int) : Bool :=
  decide (minimumStake ≤ v.activeStake)

/-- `GetActiveValidatorIndices`. -/
def getActiveValidatorIndices (vals : List Validator) (minimumStake : Int) : List Nat :=
  (vals.zipIdx.filter (·.1.isActive minimumStake)).map (·.2)

/-- The shuffle: a permutation that depends on the seed. -/
structure Shuffle where
  unshuffleList : List Nat → Bytes → List Nat
  perm : ∀ l seed, (unshuffleList l seed).Perm l

/-- `ShuffledList`. -/
def shuffledList (S : Shuffle) (vals : List Validator) (minimumStake : Int)
    (seed : Bytes) : List Nat :=
  S.unshuffleList (getActiveValidatorIndices vals minimumStake) seed

/-- The body of the loop of `DistinctNodes`: a node whose index is known is passed over. -/
def noteNode (operator : KramaID) (r : GoMap Nat Unit × Bool) (info : ValidatorInfo) :
    GoMap Nat Unit × Bool :=
  if (r.1.lookup info.id).isSome then r
  else (r.1.insert info.id (), r.2 || decide (info.kramaID = operator))

/-- `DistinctNodes`: the validators of the sets, how many they are, and whether the operator is
    among them. -/
def distinctNodes (operator : KramaID) (sets : List NodeSet) : GoMap Nat Unit × Nat × Bool :=
  let r := (sets.flatMap (·.infos)).foldl (noteNode operator) (∅, false)
  (r.1, r.1.entries.length, r.2)

/-- The loop of `getStochasticNodes`: what it takes, and the count afterwards. -/
def pick (exemptedNodes : GoMap Nat Unit) : List Nat → Int → List Nat × Int
  | [], count => ([], count)
  | index :: rest, count =>
    if (exemptedNodes.lookup index).isSome then pick exemptedNodes rest count
    else if count - 1 = 0 then ([index], 0)
    else
      let (taken, count') := pick exemptedNodes rest (count - 1)
      (index :: taken, count')

/-- `getStochasticNodes`. -/
def getStochasticNodes (S : Shuffle) (vals : List Validator) (minimumStake : Int) (seed : Bytes)
    (count : Int) (exemptedNodes : GoMap Nat Unit) : Except Err (List Nat) :=
  let (randomIndices, count') := pick exemptedNodes (shuffledList S vals minimumStake seed) count
  if count' ≠ 0 then .error (.new "insufficient random nodes") else .ok randomIndices

/-! ## 2. What is drawn -/

section

variable {exempted : GoMap Nat Unit} {l : List Nat} {count : Int}

/-- **What the loop takes**: some of the list in its order, none of them exempted; and the count
    goes down by as many. -/
theorem pick_spec :
    (pick exempted l count).1.Sublist l ∧
    (∀ i ∈ (pick exempted l count).1, exempted.lookup i = none) ∧
    ((pick exempted l count).1.length : Int) + (pick exempted l count).2 = count := by
  induction l generalizing count with
  | nil => exact ⟨.slnil, nofun, by simp [pick]⟩
  | cons index rest ih =>
    unfold pick
    split
    · obtain ⟨hsub, hfree, hcount⟩ := @ih count
      exact ⟨hsub.cons index, hfree, hcount⟩
    next hfree =>
      have hindex : exempted.lookup index = none := Option.not_isSome_iff_eq_none.mp hfree
      split
      · next hlast =>
          refine ⟨(nil_sublist rest).cons_cons index, fun i hi => ?_, ?_⟩
          · rw [mem_singleton.mp hi]
            exact hindex
          · show (1 : Int) + 0 = count
            omega
      obtain ⟨hsub, hrest, hcount⟩ := @ih (count - 1)
      refine ⟨hsub.cons_cons index, fun i hi => ?_, ?_⟩
      · obtain rfl | hi := mem_cons.mp hi
        · exact hindex
        · exact hrest i hi
      show ((_ :: (pick exempted rest (count - 1)).1).length : Int) + _ = count
      rw [length_cons]
      push_cast
      omega

variable {vals : List Validator} {minimumStake : Int} {i : Nat} {operator : KramaID}
  {r : GoMap Nat Unit × Bool}

theorem mem_activeIndices :
    i ∈ getActiveValidatorIndices vals minimumStake ↔
      ∃ v, vals[i]? = some v ∧ v.isActive minimumStake = true := by
  unfold getActiveValidatorIndices
  rw [mem_map]
  constructor
  · intro ⟨p, hp, heq⟩
    obtain ⟨hmem, hactive⟩ := mem_filter.mp hp
    rw [mem_zipIdx_iff_getElem?] at hmem
    rw [← heq]
    exact ⟨p.1, hmem, hactive⟩
  · intro ⟨v, hv, hactive⟩
    exact ⟨(v, i), mem_filter.mpr ⟨mem_zipIdx_iff_getElem?.mpr hv, hactive⟩, rfl⟩

theorem activeIndices_nodup (vals : List Validator) (minimumStake : Int) :
    (getActiveValidatorIndices vals minimumStake).Nodup := by
  have hsub : (getActiveValidatorIndices vals minimumStake).Sublist (vals.zipIdx.map Prod.snd) :=
    (filter_sublist).map _
  refine hsub.nodup ?_
  rw [zipIdx_map_snd]
  exact nodup_range' 1

theorem noteNode_lookup {info : ValidatorInfo} (h : (r.1.lookup i).isSome = true ∨ info.id = i) :
    ((noteNode operator r info).1.lookup i).isSome = true := by
  unfold noteNode
  by_cases hseen : (r.1.lookup info.id).isSome = true
  · rw [if_pos hseen]
    obtain hr | rfl := h
    · exact hr
    · exact hseen
  rw [if_neg hseen]
  by_cases hi : i = info.id
  · rw [hi, AList.lookup_insert]
    rfl
  · rw [AList.lookup_insert_ne hi]
    exact h.resolve_right (Ne.symm hi)

theorem foldl_noteNode_lookup {infos : List ValidatorInfo}
    (h : (r.1.lookup i).isSome = true ∨ ∃ info ∈ infos, info.id = i) :
    ((infos.foldl (noteNode operator) r).1.lookup i).isSome = true := by
  induction infos generalizing r with
  | nil => exact h.resolve_right fun ⟨_, hmem, _⟩ => (by cases hmem)
  | cons a infos ih =>
    refine ih ?_
    obtain hr | ⟨info, hmem, hid⟩ := h
    · exact .inl (noteNode_lookup (.inl hr))
    · obtain rfl | hmem := mem_cons.mp hmem
      · exact .inl (noteNode_lookup (.inr hid))
      · exact .inr ⟨info, hmem, hid⟩

/-- **What `getStochasticNodes` returns without an error**: exactly as many validators as asked for,
    all of them distinct and active, and none exempted. -/
theorem getStochasticNodes_spec {S : Shuffle} {seed : Bytes}
    (h : getStochasticNodes S vals minimumStake seed count exempted = .ok l) :
    (l.length : Int) = count ∧ l.Nodup ∧
      (∀ i ∈ l, ∃ v, vals[i]? = some v ∧ v.isActive minimumStake = true) ∧
      ∀ i ∈ l, exempted.lookup i = none := by
  obtain ⟨hsub, hfree, hcount⟩ :=
    @pick_spec exempted (shuffledList S vals minimumStake seed) count
  have hperm := S.perm (getActiveValidatorIndices vals minimumStake) seed
  unfold getStochasticNodes at h
  split at h
  next taken count' hpick =>
    rw [hpick] at hsub hfree hcount
    split at h
    · cases h
    next hzero =>
      cases h
      refine ⟨?_, hsub.nodup (hperm.nodup_iff.mpr (activeIndices_nodup _ _)), fun i hi => ?_, hfree⟩
      · rw [not_not.mp hzero, add_zero] at hcount
        exact hcount
      · exact mem_activeIndices.mp (hperm.mem_iff.mp (hsub.subset hi))

end

/-- The registry is in order: every validator is stored at the index that is its id, as genesis does
    it, no two have one KramaID, and the nodes of the sets are validators. -/
structure Registered (vals : List Validator) (sets : List NodeSet) : Prop where
  id_eq : ∀ (j : Nat) (w : Validator), vals[j]? = some w → w.id = j
  unique : (vals.map (·.kramaID)).Nodup
  known : ∀ set ∈ sets, ∀ info ∈ set.infos, ∃ w ∈ vals, w.toValidatorInfo = info

/-- In such a registry the id of a node is the position of the validator with its KramaID. -/
theorem Registered.id_of_kramaID {vals : List Validator} {sets : List NodeSet}
    (hreg : Registered vals sets) {set : NodeSet} (hset : set ∈ sets) {info : ValidatorInfo}
    (hinfo : info ∈ set.infos) {i : Nat} {v : Validator} (hv : vals[i]? = some v)
    (heq : info.kramaID = v.kramaID) : info.id = i := by
  obtain ⟨w, hw, rfl⟩ := hreg.known set hset info hinfo
  obtain ⟨j, hj⟩ := mem_iff_getElem?.mp hw
  have hlt : j < (vals.map (·.kramaID)).length := by
    rw [length_map]
    exact (List.getElem?_eq_some_iff.mp hj).1
  have hji : j = i := by
    refine (getElem?_inj hlt hreg.unique).mp ?_
    rw [getElem?_map, getElem?_map, hj, hv]
    exact congrArg some heq
  rw [hreg.id_eq j w hj, hji]

/-- **The draw for a committee**: whatever the registry, the seed, the context sets and the count
    are, `getStochasticNodes` fails or gives exactly as many validators as asked for, distinct and
    active, and none of them at an index that is the id of a node of the committee. In a registry in
    order none of them is a node of the committee. -/
theorem stochasticNodes_spec (S : Shuffle) (vals : List Validator) (minimumStake : Int)
    (seed : Bytes) (operator : KramaID) (c : ICSCommittee) (count : Int) :
    (∃ e, getStochasticNodes S vals minimumStake seed count (distinctNodes operator c.sets).1 =
      .error e) ∨
    ∃ l, getStochasticNodes S vals minimumStake seed count
      (distinctNodes operator c.sets).1 = .ok l ∧ (l.length : Int) = count ∧ l.Nodup ∧
      ∀ i ∈ l, ∃ v, vals[i]? = some v ∧ v.isActive minimumStake = true ∧
        ∀ set ∈ c.sets, (∀ info ∈ set.infos, info.id ≠ i) ∧
          (Registered vals c.sets → v.kramaID ∉ set.kramaIDs) := by
  cases hdraw : getStochasticNodes S vals minimumStake seed count
    (distinctNodes operator c.sets).1 with
  | error e => exact .inl ⟨e, rfl⟩
  | ok l =>
    obtain ⟨hlen, hnodup, hactive, hfree⟩ := getStochasticNodes_spec hdraw
    refine .inr ⟨l, rfl, hlen, hnodup, fun i hi => ?_⟩
    obtain ⟨v, hv, hact⟩ := hactive i hi
    refine ⟨v, hv, hact, fun set hset => ?_⟩
    have hne : ∀ info ∈ set.infos, info.id ≠ i := by
      intro info hinfo heq
      have hsome : ((distinctNodes operator _).1.lookup info.id).isSome :=
        foldl_noteNode_lookup (.inr ⟨info, mem_flatMap.mpr ⟨_, hset, hinfo⟩, rfl⟩)
      rw [heq, hfree i hi] at hsome
      cases hsome
    refine ⟨hne, fun hreg hmem => ?_⟩
    obtain ⟨info, hinfo, heq⟩ := mem_map.mp hmem
    exact hne info hinfo (hreg.id_of_kramaID hset hinfo hv heq)

namespace DrawSample

/-- A list drawn from its end. -/
def backwards : Shuffle := ⟨fun l _ => l.reverse, fun l _ => l.reverse_perm⟩

def committee (info : ValidatorInfo) : ICSCommittee :=
  ICSCommittee.new.appendNodeSet ⟨1⟩ (some (NodeSet.new [info] 1))

/-- Of four validators the first is not active. -/
def four : List Validator :=
  [⟨⟨0, [1], []⟩, 0⟩, ⟨⟨1, [2], []⟩, 9⟩, ⟨⟨2, [3], []⟩, 9⟩, ⟨⟨3, [4], []⟩, 9⟩]

/-- Two of them are drawn, and the node of the context set is not. -/
theorem two_of_four : ∃ l, getStochasticNodes backwards four 5 [] 2
    (distinctNodes [1] (committee ⟨1, [2], []⟩).sets).1 = .ok l ∧ l = [3, 2] ∧
    ∀ i ∈ l, ∃ v, four[i]? = some v ∧ v.kramaID ≠ [2] := by
  have hreg : Registered four (committee ⟨1, [2], []⟩).sets := by
    refine ⟨fun j w hw => ?_, by decide, by decide⟩
    rcases j with _ | _ | _ | _ | j <;> cases hw <;> rfl
  obtain ⟨e, he⟩ | ⟨l, hl, -, -, hdrawn⟩ :=
    stochasticNodes_spec backwards four 5 [] [1] (committee ⟨1, [2], []⟩) 2
  · cases he
  refine ⟨l, hl, by cases hl; rfl, fun i hi => ?_⟩
  obtain ⟨v, hv, -, hfree⟩ := hdrawn i hi
  have hout := (hfree _ mem_cons_self).2 hreg
  exact ⟨v, hv, fun heq => hout (by rw [heq]; decide)⟩

/-- Two validators at each other's index: the draw for a committee of the one gives that one. -/
theorem context_node_drawn : ∃ (vals : List Validator) (c : ICSCommittee) (l : List Nat),
    getStochasticNodes backwards vals 5 [] 1 (distinctNodes [] c.sets).1 = .ok l ∧
      ∃ i ∈ l, ∃ v, vals[i]? = some v ∧ ∃ set ∈ c.sets, v.kramaID ∈ set.kramaIDs := by
  refine ⟨[⟨⟨1, [9], []⟩, 9⟩, ⟨⟨0, [8], []⟩, 9⟩], committee ⟨1, [9], []⟩, [0], rfl, ?_⟩
  decide

end DrawSample

end GoMoi
