/-
  File:      GoMoi/Consensus/NodeSet.lean
  Subject:   The ICS committee of `consensus/types/nodeset.go`: node sets, flat indices, quorums
             and exclusion flags.

  A committee is a list of node sets, one for each distinct consensus-nodes hash of the
  participants, with the random set last. A vote names its signer by a FLAT index into the
  concatenation of the sets, so a validator that sits in several sets owns several flat indices.
  `GetKramaID` resolves a flat index to the validator and to the sets its vote counts for (the
  SLOTS): the set the index lies in, and every later context set that lists the same KramaID,
  once for each time it is listed.

  * `ICSCommittee` carries what `AppendNodeSet` keeps: the counts of sets and nodes, and that a
    recorded position is one of a set;
  * `participantQuorum`, `randomQuorumSize` -- two thirds of the recorded size plus one, in
    `uint32`;
  * `updateNodeset`, `incrementExcludedPSCount` -- the bookkeeping of the exclusion flags.

  Entries of `Sets` are never `nil`: `AppendNodeSet` is the only writer and skips `nil`.
-/
import GoMoi.Common.Types

namespace GoMoi

/-! ## 1. Node sets -/

/-- `type ValidatorInfo struct`, without the prepare message kept with it. -/
structure ValidatorInfo where
  id : Nat
  kramaID : KramaID
  publicKey : Bytes
  deriving DecidableEq, Repr

/-- `type Response struct`. -/
structure Response where
  bits : Option ArrayOfBits
  count : Nat
  deriving DecidableEq, Repr

/-- `type NodeSet struct`, with one field for each key of `Responses`. -/
structure NodeSet where
  infos : List ValidatorInfo
  voteCounter : Response
  majorityCounter : Response
  excludedFromICS : Bool
  setSizeWithOutDelta : UInt32
  deriving DecidableEq, Repr

namespace NodeSet

/-- `NewNodeSet`. -/
def new (vals : List ValidatorInfo) (required : UInt32) : NodeSet where
  infos := vals
  voteCounter := ⟨ArrayOfBits.new vals.length, 0⟩
  majorityCounter := ⟨ArrayOfBits.new vals.length, 0⟩
  excludedFromICS := false
  setSizeWithOutDelta := required

/-- `KramaIDs`. -/
def kramaIDs (ns : NodeSet) : List KramaID := ns.infos.map (·.kramaID)

/-- `count*2/3 + 1` in `uint32`. -/
def twoThirds (count : UInt32) : UInt32 := count * 2 / 3 + 1

/-- The votes a participant's set has to give. -/
def participantQuorum (ns : NodeSet) : UInt32 :=
  if ns.setSizeWithOutDelta = 0 then 0 else twoThirds ns.setSizeWithOutDelta

/-- The quorum of a random set is at least one vote, whatever size is recorded for it. -/
theorem twoThirds_pos (n : UInt32) : 0 < (twoThirds n).toNat := by
  unfold twoThirds
  rw [UInt32.toNat_add, UInt32.toNat_div, UInt32.toNat_mul]
  have h3 : (3 : UInt32).toNat = 3 := rfl
  have h1 : (1 : UInt32).toNat = 1 := rfl
  rw [h3, h1]
  omega

end NodeSet

/-! ## 2. The committee -/

/-- `type NodesetData struct`. -/
structure NodesetData where
  position : Nat
  psCount : Nat
  excludedPSCount : Nat
  deriving DecidableEq, Repr

/-- `type ICSCommittee struct`, with what its only constructor of sets keeps. -/
structure ICSCommittee where
  sets : List NodeSet
  consensusNodesHash : GoMap Hash NodesetData
  totalNodes : Nat
  size : Nat
  total_eq : totalNodes = (sets.map (·.infos.length)).sum
  size_eq : size = sets.length
  position_lt : ∀ h d, consensusNodesHash.lookup h = some d → d.position < sets.length

/-- The element at one position replaced by one that a function does not tell apart. -/
theorem map_modify_eq {α β : Type} (l : List α) (p : Nat) (f : α → α) (g : α → β)
    (h : ∀ a, g (f a) = g a) : (l.modify p f).map g = l.map g := by
  apply List.ext_getElem?
  intro n
  rw [List.getElem?_map, List.getElem?_map, List.getElem?_modify]
  by_cases hp : p = n
  · cases l[n]? with
    | none => simp
    | some a => simp [hp, h]
  · simp [hp]

namespace ICSCommittee

/-- `NewICSCommittee`. -/
def new : ICSCommittee where
  sets := []
  consensusNodesHash := ∅
  totalNodes := 0
  size := 0
  total_eq := rfl
  size_eq := rfl
  position_lt h d hd := by simp at hd

/-- `i.Sets[pos].ExcludedFromICS = val` at a position of a set. -/
def withExcluded (c : ICSCommittee) (pos : Nat) (val : Bool) : ICSCommittee where
  sets := c.sets.modify pos fun s => { s with excludedFromICS := val }
  consensusNodesHash := c.consensusNodesHash
  totalNodes := c.totalNodes
  size := c.size
  total_eq := by
    have h := map_modify_eq c.sets pos (fun s => { s with excludedFromICS := val })
      (fun s => s.infos.length) fun _ => rfl
    rw [h]
    exact c.total_eq
  size_eq := by rw [List.length_modify]; exact c.size_eq
  position_lt h d hd := by rw [List.length_modify]; exact c.position_lt h d hd

/-- `IsExcluded`. -/
def isExcluded (c : ICSCommittee) (pos : Nat) : Go Bool := do
  let s ← sliceAt c.sets pos
  pure s.excludedFromICS

/-- `AppendNodeSet`: a `nil` set is skipped, and a nil hash is not recorded. -/
def appendNodeSet (c : ICSCommittee) (h : Hash) : Option NodeSet → ICSCommittee
  | none => c
  | some data =>
    { sets := c.sets ++ [data]
      consensusNodesHash :=
        if h.isNil then c.consensusNodesHash
        else c.consensusNodesHash.insert h ⟨c.sets.length, 1, 0⟩
      totalNodes := c.totalNodes + data.infos.length
      size := c.size + 1
      total_eq := by simp [c.total_eq]
      size_eq := by simp [c.size_eq]
      position_lt := fun h' d hd => by
        rw [List.length_append, List.length_singleton]
        split at hd
        · exact Nat.lt_succ_of_lt (c.position_lt h' d hd)
        by_cases e : h' = h
        · subst e
          rw [AList.lookup_insert, Option.some.injEq] at hd
          subst hd
          exact Nat.lt_succ_self _
        · rw [AList.lookup_insert_ne e] at hd
          exact Nat.lt_succ_of_lt (c.position_lt h' d hd) }

/-- The record of a hash rewritten, its position kept. -/
def modifyData (c : ICSCommittee) (h : Hash) (f : NodesetData → NodesetData)
    (hf : ∀ d, (f d).position = d.position) : ICSCommittee where
  sets := c.sets
  consensusNodesHash := match c.consensusNodesHash.lookup h with
    | none => c.consensusNodesHash
    | some d => c.consensusNodesHash.insert h (f d)
  totalNodes := c.totalNodes
  size := c.size
  total_eq := c.total_eq
  size_eq := c.size_eq
  position_lt h' e he := by
    split at he
    · exact c.position_lt h' e he
    rename_i d hd
    by_cases heq : h' = h
    · subst heq
      rw [AList.lookup_insert, Option.some.injEq] at he
      subst he
      rw [hf]
      exact c.position_lt h' d hd
    · rw [AList.lookup_insert_ne heq] at he
      exact c.position_lt h' e he

/-- `IncrementPSCount`; a hash without a record is a nil pointer. -/
def incrementPSCount (c : ICSCommittee) (h : Hash) : Go ICSCommittee :=
  match c.consensusNodesHash.lookup h with
  | none => .error .nilDeref
  | some _ => .ok (c.modifyData h (fun d => { d with psCount := d.psCount + 1 }) fun _ => rfl)

/-- `IncrementExcludedPSCount`: the set is excluded once all participants counted so far are. -/
def incrementExcludedPSCount (c : ICSCommittee) (h : Hash) : Go ICSCommittee :=
  match c.consensusNodesHash.lookup h with
  | none => .error .nilDeref
  | some d =>
    let c' := c.modifyData h
      (fun d => { d with excludedPSCount := d.excludedPSCount + 1 }) fun _ => rfl
    if d.excludedPSCount + 1 = d.psCount then .ok (c'.withExcluded d.position true) else .ok c'

/-- `UpdateNodeset`: one participant of a stored tesseract, with the lock type recorded there. -/
def updateNodeset (c : ICSCommittee) (h : Hash) (consensusSet : Option NodeSet) (ps : State)
    (lockType : LockType) : Go ICSCommittee := do
  let c ← match c.consensusNodesHash.lookup h with
    | none =>
      -- first participant with these nodes: excluded if its account has no lock
      if lockType = noLock then do
        let s ← Go.deref consensusSet
        pure (c.appendNodeSet h (some { s with excludedFromICS := true }))
      else pure (c.appendNodeSet h consensusSet)
    | some d => do
      let nodeset ← sliceAt c.sets d.position
      let c := if nodeset.excludedFromICS ∧ lockType = mutateLock ∧ ps.stateHash ≠ nilHash
        then c.withExcluded d.position false else c
      c.incrementPSCount h
  if ps.stateHash = nilHash then c.incrementExcludedPSCount h else pure c

/-! ## 3. Quorums -/

/-- `ParticipantQuorum`. -/
def participantQuorum (c : ICSCommittee) (position : Nat) : Go UInt32 := do
  let set ← sliceAt c.sets position
  pure set.participantQuorum

/-- `RandomSet`: the set at `StochasticSetPosition`, the last one. -/
def randomSet (c : ICSCommittee) : Go NodeSet := sliceAt c.sets ((c.size : Int) - 1)

/-- `RandomQuorumSize`. -/
def randomQuorumSize (c : ICSCommittee) : Go UInt32 := do
  let s ← c.randomSet
  pure (NodeSet.twoThirds s.setSizeWithOutDelta)

/-! ## 4. Flat indices -/

/-- What `GetKramaID` returns for an index that resolves. -/
structure KramaSlot where
  slots : List Nat
  slotIndex : Nat
  kramaID : KramaID
  publicKey : Bytes
  deriving DecidableEq, Repr

/-- The inner loop of `GetKramaID`: the position `j` once for every entry with this KramaID. -/
def laterSlots : List NodeSet → Nat → KramaID → List Nat
  | [], _, _ => []
  | set :: rest, j, k =>
    ((set.infos.filter (·.kramaID = k)).map fun _ => j) ++ laterSlots rest (j + 1) k

/-- The outer loop of `GetKramaID`; the last set of the committee is never a later slot. -/
def getKramaIDFrom : List NodeSet → Nat → Nat → Option KramaSlot
  | [], _, _ => none
  | set :: rest, v, index =>
    match set.infos[index]? with
    | none => getKramaIDFrom rest (v + 1) (index - set.infos.length)
    | some info => some
        { slots := v :: laterSlots rest.dropLast (v + 1) info.kramaID
          slotIndex := index
          kramaID := info.kramaID
          publicKey := info.publicKey }

/-- `GetKramaID`; `none` stands for `(nil, -1, "", nil)`. -/
def getKramaID (c : ICSCommittee) (index : Int) : Option KramaSlot :=
  if index < 0 ∨ (c.totalNodes : Int) ≤ index then none
  else getKramaIDFrom c.sets 0 index.toNat

/-- The loop of `HasKramaID` from the set at flat index `offset` on. -/
def hasKramaIDFrom : List NodeSet → Nat → KramaID → Go (Int × Bytes × Bool)
  | [], _, _ => pure (-1, [], false)
  | set :: rest, offset, peerID =>
    match set.infos.zipIdx.find? (·.1.kramaID = peerID) with
    | none => hasKramaIDFrom rest (offset + set.infos.length) peerID
    | some (info, j) => do
      -- `GetIndex` of a `nil` array is false
      let voted ← match set.voteCounter.bits with
        | none => pure false
        | some b => b.getIndex j
      pure (int32 (offset + j), info.publicKey, voted)

/-- `HasKramaID`: the first flat index of a validator, its key, and whether it has responded. -/
def hasKramaID (c : ICSCommittee) (peerID : KramaID) : Go (Int × Bytes × Bool) :=
  hasKramaIDFrom c.sets 0 peerID

variable {sets : List NodeSet} {s : Nat}

theorem mem_laterSlots {j : Nat} {k : KramaID} (h : s ∈ laterSlots sets j k) :
    ∃ set, j ≤ s ∧ sets[s - j]? = some set ∧ k ∈ set.kramaIDs := by
  induction sets generalizing j with
  | nil => simp [laterSlots] at h
  | cons set rest ih =>
    rcases List.mem_append.mp h with h | h
    · obtain ⟨info, hinfo, rfl⟩ := List.mem_map.mp h
      obtain ⟨hm, hk⟩ := List.mem_filter.mp hinfo
      refine ⟨set, Nat.le_refl _, by simp, List.mem_map.mpr ⟨info, hm, by simpa using hk⟩⟩
    obtain ⟨set', hle, hget, hk⟩ := ih h
    refine ⟨set', by omega, ?_, hk⟩
    have : s - j = (s - (j + 1)) + 1 := by omega
    rw [this, List.getElem?_cons_succ]
    exact hget

/-- Resolution by position: an index resolves in a list of sets exactly below its node count. -/
theorem getKramaIDFrom_isSome (sets : List NodeSet) (v index : Nat) :
    (getKramaIDFrom sets v index).isSome = true ↔ index < (sets.map (·.infos.length)).sum := by
  induction sets generalizing v index with
  | nil => simp [getKramaIDFrom]
  | cons set rest ih =>
    rw [List.map_cons, List.sum_cons]
    unfold getKramaIDFrom
    split
    · rename_i hnone
      have hle : set.infos.length ≤ index := List.getElem?_eq_none_iff.mp hnone
      rw [ih]
      omega
    rename_i info hsome
    have hlt : index < set.infos.length := (List.getElem?_eq_some_iff.mp hsome).1
    simp only [Option.isSome_some, true_iff]
    omega

variable {k : KramaSlot} {index : Int}

theorem getKramaIDFrom_slots {v index : Nat} (h : getKramaIDFrom sets v index = some k) :
    ∀ s ∈ k.slots, ∃ set, v ≤ s ∧ sets[s - v]? = some set ∧ k.kramaID ∈ set.kramaIDs := by
  induction sets generalizing v index with
  | nil => simp [getKramaIDFrom] at h
  | cons set rest ih =>
    unfold getKramaIDFrom at h
    split at h
    · intro s hs
      obtain ⟨set', hle, hget, hk⟩ := ih h s hs
      refine ⟨set', by omega, ?_, hk⟩
      have : s - v = (s - (v + 1)) + 1 := by omega
      rw [this, List.getElem?_cons_succ]
      exact hget
    rename_i info hinfo
    cases h
    intro s hs
    rcases List.mem_cons.mp hs with rfl | hs
    · exact ⟨set, Nat.le_refl _, by simp,
        List.mem_map.mpr ⟨info, List.mem_of_getElem? hinfo, rfl⟩⟩
    -- a later slot lies in `rest.dropLast`, so in `rest`
    obtain ⟨set', hle, hget, hk⟩ := mem_laterSlots hs
    refine ⟨set', by omega, ?_, hk⟩
    have hlt := (List.getElem?_eq_some_iff.mp hget).1
    have : s - v = (s - (v + 1)) + 1 := by omega
    rw [this, List.getElem?_cons_succ]
    rw [List.getElem?_dropLast, if_pos (by simpa using hlt)] at hget
    exact hget

variable {c : ICSCommittee}

/-- **An index resolves exactly if it is below the number of nodes.** -/
theorem getKramaID_isSome (c : ICSCommittee) (index : Int) :
    (c.getKramaID index).isSome = true ↔ 0 ≤ index ∧ index < c.totalNodes := by
  unfold getKramaID
  by_cases hr : index < 0 ∨ (c.totalNodes : Int) ≤ index
  · rw [if_pos hr]
    simp only [Option.isSome_none, Bool.false_eq_true, false_iff]
    omega
  · rw [if_neg hr, getKramaIDFrom_isSome, ← c.total_eq]
    omega

/-- **Every slot of a resolved index is the position of a set that lists its validator.** -/
theorem getKramaID_slots (h : c.getKramaID index = some k) (hs : s ∈ k.slots) :
    ∃ set, c.sets[s]? = some set ∧ k.kramaID ∈ set.kramaIDs := by
  unfold getKramaID at h
  split at h
  · cases h
  · obtain ⟨set, _, hget, hk⟩ := getKramaIDFrom_slots h s hs
    exact ⟨set, hget, hk⟩

theorem getKramaID_slots_lt (h : c.getKramaID index = some k) (hs : s ∈ k.slots) : s < c.size := by
  obtain ⟨_, hget, _⟩ := getKramaID_slots h hs
  rw [c.size_eq]
  exact (List.getElem?_eq_some_iff.mp hget).1

/-- The slots, the validator and the key of a flat index, where it resolves. -/
def slotsOf (c : ICSCommittee) (i : Nat) : List Nat := ((c.getKramaID i).map (·.slots)).getD []

def ownerOf (c : ICSCommittee) (i : Nat) : KramaID := ((c.getKramaID i).map (·.kramaID)).getD []

def keyOf (c : ICSCommittee) (i : Nat) : Bytes := ((c.getKramaID i).map (·.publicKey)).getD []

/-- A signed index that resolves is a flat index, with the slots, validator and key above. -/
theorem getKramaID_eq_some (h : c.getKramaID index = some k) :
    ∃ i : Nat, index = i ∧ i < c.totalNodes ∧ c.slotsOf i = k.slots ∧ c.ownerOf i = k.kramaID ∧
      c.keyOf i = k.publicKey := by
  obtain ⟨h0, hlt⟩ := (c.getKramaID_isSome index).mp (by rw [h]; rfl)
  obtain ⟨i, rfl⟩ := Int.eq_ofNat_of_zero_le h0
  refine ⟨i, rfl, by omega, ?_, ?_, ?_⟩
  · simp [slotsOf, h]
  · simp [ownerOf, h]
  · simp [keyOf, h]

theorem slotsOf_mem {i : Nat} (hs : s ∈ c.slotsOf i) :
    ∃ set, c.sets[s]? = some set ∧ c.ownerOf i ∈ set.kramaIDs := by
  unfold slotsOf at hs
  unfold ownerOf
  rcases h : c.getKramaID i with _ | k
  · simp [h] at hs
  simp only [h, Option.map_some, Option.getD_some] at hs ⊢
  exact getKramaID_slots h hs

end ICSCommittee

end GoMoi
