/-
  File:      GoMoi/Consensus/Committee.lean
  Subject:   The committee a verifier rebuilds from a tesseract (`consensus/ics.go`), from its own
             store or from the contexts a peer sent along.

  Both builders walk the participants in the order of their identifiers, find the context under
  the hash the tesseract locked, resolve its consensus nodes and update the committee
  (`UpdateNodeset`); the random set comes last. They differ in where the context is from:
  `GetICSCommittee` reads the store, `GetICSCommitteeFromRawContext` the delta map of the message.

  * **`determined_iff`** -- for which deltas of a tesseract the second builder agrees with the first
    on every store that has the locked contexts. The delta bytes are never hashed, so this is a
    condition on what the delta has under the locked hashes.

  A delta map is keyed by the hexadecimal form of a hash; only the keys of non-nil hashes are read,
  so hashes are the keys here. The order of the participants map stands for the order in which
  `extractICSNodeset` happens to iterate over it.
-/
import GoMoi.Consensus.NodeSet

namespace GoMoi

open ICSCommittee AList

/-! ## 1. Validators and contexts -/

/-- The validators of `type SystemObject struct`. -/
structure SystemObject where
  vals : List ValidatorInfo

namespace SystemObject

/-- `Validator`. -/
def validator (so : SystemObject) (index : Nat) : Except Err ValidatorInfo :=
  match so.vals[index]? with
  | none => .error (.new "index validator index")
  | some v => .ok v

/-- `GetValidators`. -/
def getValidators (so : SystemObject) (indices : List Nat) : Except Err (List ValidatorInfo) :=
  indices.mapM so.validator

/-- `list[id]` in `GetValidatorsByKramaID`: of two validators with one KramaID the later is kept. -/
def byKramaID (so : SystemObject) (id : KramaID) : Option ValidatorInfo :=
  so.vals.reverse.find? (·.kramaID = id)

/-- `GetValidatorsByKramaID`. -/
def getValidatorsByKramaID (so : SystemObject) :
    List KramaID → Except Err (List ValidatorInfo)
  | [] => .ok []
  | id :: rest =>
    match so.byKramaID id with
    | none => .error (.sentinel .errKramaIDNotFound)
    | some val =>
      match so.getValidatorsByKramaID rest with
      | .error e => .error e
      | .ok vals => .ok (val :: vals)

/-- The resolved validators are those asked for, in this order. -/
theorem getValidatorsByKramaID_ids {so : SystemObject} {ids : List KramaID}
    {vals : List ValidatorInfo} (h : so.getValidatorsByKramaID ids = .ok vals) :
    vals.map (·.kramaID) = ids := by
  induction ids generalizing vals with
  | nil =>
    cases h
    rfl
  | cons id rest ih =>
    unfold getValidatorsByKramaID at h
    split at h
    · cases h
    rename_i val hval
    split at h
    · cases h
    rename_i tail htail
    cases h
    have hid : val.kramaID = id := by
      have := List.find?_some hval
      simpa using this
    rw [List.map_cons, ih htail, hid]

end SystemObject

/-- A node's data base of contexts, and the account a sub-account inherits its context from. -/
structure ContextStore where
  getContext : Identifier → Hash → Except Err Bytes
  inheritedAccount : Identifier → Except Err Identifier

/-- What both builders use: the decoder of contexts and the validators. -/
structure CommitteeEnv where
  fromBytes : Bytes → Except Err MetaContextObject
  systemObject : SystemObject

/-! ## 2. The two builders -/

/-- `Engine.NodeSet`: no set at all for no validators. -/
def Engine.nodeSet (validators : List ValidatorInfo) (setSizeWithoutDelta : UInt32) :
    Option NodeSet :=
  if validators = [] then none else some (NodeSet.new validators setSizeWithoutDelta)

/-- The set and the consensus-nodes hash of one participant. -/
abbrev Fetch : Type := ICSCommittee → Identifier → Hash → Except Err (Option NodeSet × Hash)

/-- The lock recorded for an account; Go reads a missing entry as the zero value. -/
def Tesseract.accountLock (ts : Tesseract) (id : Identifier) : LockType :=
  (ts.consensusInfo.accountLocks.lookup id).getD mutateLock

/-- The loop over the participants. -/
def rebuild (fetch : Fetch) (ts : Tesseract) : List Identifier → ICSCommittee →
    Go (Except Err ICSCommittee)
  | [], ics => pure (.ok ics)
  | id :: rest, ics =>
    match ts.state id with
    | none => rebuild fetch ts rest ics
    | some ps =>
      if ps.lockedContext = nilHash then rebuild fetch ts rest ics
      else match fetch ics id ps.lockedContext with
        | .error e => pure (.error e)
        | .ok (set, h) => do
          let ics ← ics.updateNodeset h set ps (ts.accountLock id)
          rebuild fetch ts rest ics

/-- The loop, and the random set after it. -/
def buildCommittee (E : CommitteeEnv) (fetch : Fetch) (ts : Tesseract) (info : CommitInfo) :
    Go (Except Err ICSCommittee) := do
  match ← rebuild fetch ts ts.accountIDs new with
  | .error e => pure (.error e)
  | .ok ics =>
    match E.systemObject.getValidators info.randomSet with
    | .error e => pure (.error e)
    | .ok vals =>
      pure (.ok (ics.appendNodeSet nilHash
        (Engine.nodeSet vals info.randomSetSizeWithoutDelta)))

/-- The account whose context a participant uses. -/
def ContextStore.baseAccount (S : ContextStore) (id : Identifier) : Except Err Identifier :=
  if id.isParticipantVariant then
    match S.inheritedAccount id with
    | .error e => .error (.wrap e "failed to fetch acc meta info")
    | .ok base => .ok base
  else .ok id

/-- `GetMetaContextObject`, without its cache, which holds what was decoded before. -/
def getMetaContextObject (E : CommitteeEnv) (S : ContextStore) (id : Identifier) (hash : Hash) :
    Except Err MetaContextObject :=
  match S.getContext id hash with
  | .error _ => .error (.sentinel .errContextStateNotFound)
  | .ok raw =>
    match E.fromBytes raw with
    | .error e => .error (.wrap e "MetaContextObject deserialization failed")
    | .ok m => .ok m

/-- `GetConsensusNodes`, with the validators and the hash of the context. -/
def getConsensusNodes (E : CommitteeEnv) (S : ContextStore) (id : Identifier) (hash : Hash) :
    Except Err (List ValidatorInfo × Hash) :=
  match S.baseAccount id with
  | .error e => .error e
  | .ok base =>
    match getMetaContextObject E S base hash with
    | .error e => .error (.wrap e "metaContextObject fetch failed")
    | .ok m =>
      match E.systemObject.getValidatorsByKramaID m.consensusNodes with
      | .error e => .error e
      | .ok vals => .ok (vals, m.consensusNodesHash)

/-- `fetchParticipantContextByHash`. -/
def fetchParticipantContextByHash (E : CommitteeEnv) (S : ContextStore) : Fetch :=
  fun ics id hash =>
    match getConsensusNodes E S id hash with
    | .error e => .error e
    | .ok (vals, h) =>
      if (ics.consensusNodesHash.lookup h).isSome then .ok (none, h)
      else .ok (some (NodeSet.new vals (UInt32.ofNat vals.length)), h)

/-- The body of the loop of `GetICSCommitteeFromRawContext`; a missing entry reads as no bytes. -/
def fetchRawContext (E : CommitteeEnv) (delta : GoMap Hash Bytes) : Fetch :=
  fun _ _ hash =>
    match E.fromBytes ((delta.lookup hash).getD []) with
    | .error e => .error e
    | .ok m =>
      match E.systemObject.getValidatorsByKramaID m.consensusNodes with
      | .error e => .error e
      | .ok vals =>
        .ok (Engine.nodeSet vals (UInt32.ofNat m.consensusNodes.length), m.consensusNodesHash)

/-- `GetICSCommittee`. -/
def getICSCommittee (E : CommitteeEnv) (S : ContextStore) (ts : Tesseract) (info : CommitInfo) :
    Go (Except Err ICSCommittee) :=
  buildCommittee E (fetchParticipantContextByHash E S) ts info

/-- `GetICSCommitteeFromRawContext`. The entries it deletes from the delta map afterwards are not
    read again. -/
def getICSCommitteeFromRawContext (E : CommitteeEnv) (delta : GoMap Hash Bytes) (ts : Tesseract)
    (info : CommitInfo) : Go (Except Err ICSCommittee) :=
  buildCommittee E (fetchRawContext E delta) ts info

/-- `extractICSNodeset`: the first locked context decides which builder is used. -/
def extractICSNodeset (E : CommitteeEnv) (S : ContextStore) (delta : GoMap Hash Bytes)
    (ts : Tesseract) (info : CommitInfo) : Go (Option (Except Err ICSCommittee)) :=
  match ts.participants.entries.find? fun e => e.2.lockedContext ≠ nilHash with
  | none => pure none
  | some e =>
    if (delta.lookup e.2.lockedContext).isSome then do
      let r ← getICSCommitteeFromRawContext E delta ts info
      pure (some r)
    else do
      let r ← getICSCommittee E S ts info
      pure (some r)

/-! ## 3. Two committees from one tesseract -/

section

variable (E : CommitteeEnv) (H : Bytes → Hash)

/-- The store has a context under every hash the tesseract locked, and it is the hash of its
    bytes. -/
def Stores (S : ContextStore) (ts : Tesseract) : Prop :=
  ∀ id ps, ts.state id = some ps → ps.lockedContext ≠ nilHash →
    ∃ base raw, S.baseAccount id = .ok base ∧ S.getContext base ps.lockedContext = .ok raw ∧
      H raw = ps.lockedContext

/-- Whatever the store: a committee built from the delta of the tesseract is the one the store
    gives. -/
def Determined (delta : GoMap Hash Bytes) (ts : Tesseract) : Prop :=
  ∀ info S c, Stores H S ts → getICSCommitteeFromRawContext E delta ts info = .ok (.ok c) →
    getICSCommittee E S ts info = .ok (.ok c)

/-- The delta gives `m` for a locked hash, and its nodes are known. -/
def Gives (delta : GoMap Hash Bytes) (locked : Hash) (m : MetaContextObject) : Prop :=
  E.fromBytes ((delta.lookup locked).getD []) = .ok m ∧
    ∃ vals, E.systemObject.getValidatorsByKramaID m.consensusNodes = .ok vals

/-- If the delta gives a context for each hash that the tesseract locked, these are the contexts
    with the hashes, and each has a consensus node. -/
def Faithful (delta : GoMap Hash Bytes) (ts : Tesseract) : Prop :=
  (∀ id ∈ ts.accountIDs, ∀ ps, ts.state id = some ps → ps.lockedContext ≠ nilHash →
    ∃ m, Gives E delta ps.lockedContext m) →
  ∀ id ∈ ts.accountIDs, ∀ ps, ts.state id = some ps → ps.lockedContext ≠ nilHash →
    ∀ raw m, H raw = ps.lockedContext → Gives E delta ps.lockedContext m →
      m.consensusNodes ≠ [] ∧ E.fromBytes raw = .ok m

end

variable {E : CommitteeEnv} {H : Bytes → Hash} {S : ContextStore} {delta : GoMap Hash Bytes}
  {ts : Tesseract} {info : CommitInfo} {c : ICSCommittee} {id : Identifier} {set : Option NodeSet}
  {locked : Hash} {h : Hash} {ps : State} {fetch : Fetch}

variable {ics : ICSCommittee}

theorem fetchRawContext_eq_ok {hash : Hash}
    (hf : fetchRawContext E delta ics id hash = .ok (set, h)) :
    ∃ m vals, E.fromBytes ((delta.lookup hash).getD []) = .ok m ∧
      E.systemObject.getValidatorsByKramaID m.consensusNodes = .ok vals ∧
      set = Engine.nodeSet vals (UInt32.ofNat m.consensusNodes.length) ∧
      h = m.consensusNodesHash := by
  unfold fetchRawContext at hf
  split at hf
  · cases hf
  rename_i m hm
  split at hf
  · cases hf
  rename_i vals hvals
  cases hf
  exact ⟨m, vals, hm, hvals, rfl, rfl⟩

theorem fetchParticipantContextByHash_of (ics : ICSCommittee) {base : Identifier} {hash : Hash}
    {raw : Bytes} {m : MetaContextObject} {vals : List ValidatorInfo}
    (hbase : S.baseAccount id = .ok base) (hraw : S.getContext base hash = .ok raw)
    (hm : E.fromBytes raw = .ok m)
    (hvals : E.systemObject.getValidatorsByKramaID m.consensusNodes = .ok vals) :
    fetchParticipantContextByHash E S ics id hash =
      if (ics.consensusNodesHash.lookup m.consensusNodesHash).isSome
      then .ok (none, m.consensusNodesHash)
      else .ok (some (NodeSet.new vals (UInt32.ofNat vals.length)), m.consensusNodesHash) := by
  simp [fetchParticipantContextByHash, getConsensusNodes, hbase, getMetaContextObject,
    hraw, hm, hvals]

/-- A loop over the delta that succeeds was given a context for each locked hash. -/
theorem rebuild_gives {ids : List Identifier}
    (h : rebuild (fetchRawContext E delta) ts ids ics = .ok (.ok c)) :
    ∀ id ∈ ids, ∀ ps, ts.state id = some ps → ps.lockedContext ≠ nilHash →
      ∃ m, Gives E delta ps.lockedContext m := by
  induction ids generalizing ics with
  | nil => simp
  | cons id rest ih =>
    rw [List.forall_mem_cons]
    rcases hps : ts.state id with _ | ps
    · simp only [rebuild, hps] at h
      exact ⟨by simp, ih h⟩
    simp only [rebuild, hps] at h
    by_cases hlocked : ps.lockedContext = nilHash
    · rw [if_pos hlocked] at h
      refine ⟨fun ps' hps' hne => ?_, ih h⟩
      cases hps'
      exact absurd hlocked hne
    rw [if_neg hlocked] at h
    split at h
    · cases h
    rename_i hf
    obtain ⟨m, vals, hm, hvals, -⟩ := fetchRawContext_eq_ok hf
    obtain ⟨_, -, h⟩ := Go.bind_eq_ok.mp h
    refine ⟨fun ps' hps' _ => ?_, ih h⟩
    cases hps'
    exact ⟨m, hm, vals, hvals⟩

section

variable (hfaith : ∀ raw m, H raw = ps.lockedContext → Gives E delta ps.lockedContext m →
  m.consensusNodes ≠ [] ∧ E.fromBytes raw = .ok m)
include hfaith

/-- **The step**: the two loops update the committee alike. -/
theorem updateNodeset_agree (hstore : Stores H S ts) (hps : ts.state id = some ps)
    (hlocked : ps.lockedContext ≠ nilHash)
    (hf : fetchRawContext E delta ics id ps.lockedContext = .ok (set, h)) (lock : LockType) :
    ∃ set', fetchParticipantContextByHash E S ics id ps.lockedContext = .ok (set', h) ∧
      ics.updateNodeset h set' ps lock = ics.updateNodeset h set ps lock := by
  obtain ⟨m, vals, hm, hvals, rfl, rfl⟩ := fetchRawContext_eq_ok hf
  obtain ⟨base, raw, hbase, hraw, hhash⟩ := hstore id ps hps hlocked
  obtain ⟨hne, hdec⟩ := hfaith raw m hhash ⟨hm, vals, hvals⟩
  have hids := SystemObject.getValidatorsByKramaID_ids hvals
  have hlen : vals.length = m.consensusNodes.length := by rw [← hids, List.length_map]
  have hvne : vals ≠ [] := by
    rintro rfl
    exact hne hids.symm
  rw [fetchParticipantContextByHash_of ics hbase hraw hdec hvals]
  cases hd : ics.consensusNodesHash.lookup m.consensusNodesHash with
  | some d => exact ⟨none, rfl, by rw [updateNodeset, updateNodeset, hd]⟩ -- not looked at again
  | none => exact ⟨_, rfl, by rw [Engine.nodeSet, if_neg hvne, hlen]⟩

end

/-- **The run**: a loop over the delta that succeeds is one over the store. -/
theorem rebuild_agree (hstore : Stores H S ts) {ids : List Identifier}
    (hfaith : ∀ id ∈ ids, ∀ ps, ts.state id = some ps → ps.lockedContext ≠ nilHash →
      ∀ raw m, H raw = ps.lockedContext → Gives E delta ps.lockedContext m →
        m.consensusNodes ≠ [] ∧ E.fromBytes raw = .ok m)
    (h : rebuild (fetchRawContext E delta) ts ids ics = .ok (.ok c)) :
    rebuild (fetchParticipantContextByHash E S) ts ids ics = .ok (.ok c) := by
  induction ids generalizing ics with
  | nil => exact h
  | cons id rest ih =>
    obtain ⟨hid, hrest⟩ := List.forall_mem_cons.mp hfaith
    have ih := fun ics => @ih ics hrest
    rcases hps : ts.state id with _ | ps
    · simp only [rebuild, hps] at h ⊢
      exact ih _ h
    simp only [rebuild, hps] at h ⊢
    by_cases hlocked : ps.lockedContext = nilHash
    · rw [if_pos hlocked] at h ⊢
      exact ih _ h
    rw [if_neg hlocked] at h ⊢
    split at h
    · cases h
    rename_i set hash hf
    obtain ⟨_, hf', hup⟩ :=
      updateNodeset_agree (hid ps hps hlocked) hstore hps hlocked hf (ts.accountLock id)
    rw [Go.bind_eq_ok] at h
    obtain ⟨_, hics, h⟩ := h
    rw [hf']
    simp only [hup, hics]
    exact ih _ h

section

variable (hfaith : Faithful E H delta ts)
include hfaith

theorem determined_of_faithful : Determined E H delta ts := by
  intro info S c hstore h
  unfold getICSCommitteeFromRawContext buildCommittee at h
  rw [Go.bind_eq_ok] at h
  obtain ⟨r, hr, h⟩ := h
  unfold getICSCommittee buildCommittee
  rw [Go.bind_eq_ok]
  cases r with
  | error e => cases h
  | ok ics => exact ⟨.ok ics, rebuild_agree hstore (hfaith (rebuild_gives hr)) hr, h⟩

/-- The committee the syncer extracts is the store's, whichever builder the delta selects. -/
theorem extractICSNodeset_eq (hstore : Stores H S ts)
    (h : extractICSNodeset E S delta ts info = .ok (some (.ok c))) :
    getICSCommittee E S ts info = .ok (.ok c) := by
  unfold extractICSNodeset at h
  split at h
  · cases h
  split at h
  · rw [Go.bind_eq_ok] at h
    obtain ⟨r, hr, hret⟩ := h
    cases hret
    exact determined_of_faithful hfaith info S c hstore hr
  rw [Go.bind_eq_ok] at h
  obtain ⟨r, hr, hret⟩ := h
  cases hret
  exact hr

end

/-! ## 4. The condition is exact -/

/-- A tesseract with one participant, which locks one context and gets a new state. -/
def oneParticipant (locked : Hash) : Tesseract where
  participants := (∅ : ParticipantsState).insert nilIdentifier ⟨1, nilHash, locked, none, ⟨1⟩⟩
  interactionsHash := nilHash
  receiptsHash := nilHash
  epoch := 0
  timestamp := 0
  fuelUsed := 0
  fuelLimit := 0
  consensusInfo := ⟨[], nilHash, nilHash, 1, ∅, ∅, ∅, nilHash, []⟩
  sealBytes := []
  sealBy := []
  commitInfo := none

/-- Commit information without a random set. -/
def noRandomSet : CommitInfo := ⟨none, [], [], 1, [], 0⟩

/-- A store that has one context under every key. -/
def storeOf (raw : Bytes) : ContextStore := ⟨fun _ _ => .ok raw, .ok⟩

theorem oneParticipant_state (h : (oneParticipant locked).state id = some ps) :
    ps.lockedContext = locked ∧ (storeOf []).baseAccount id = .ok nilIdentifier := by
  by_cases hid : id = nilIdentifier
  · subst hid
    simp only [Tesseract.state, oneParticipant, lookup_insert, Option.some.injEq] at h
    subst h
    exact ⟨rfl, rfl⟩
  · rw [Tesseract.state, oneParticipant, lookup_insert_ne hid, lookup_empty] at h
    cases h

theorem stores_oneParticipant (H : Bytes → Hash) (raw : Bytes) :
    Stores H (storeOf raw) (oneParticipant (H raw)) := by
  intro id ps hps _
  obtain ⟨hlocked, hbase⟩ := oneParticipant_state hps
  exact ⟨nilIdentifier, raw, hbase, rfl, hlocked.symm⟩

/-- With one participant a builder appends the set it fetched, and nothing else. -/
theorem buildCommittee_oneParticipant (hl : locked ≠ nilHash) :
    buildCommittee E fetch (oneParticipant locked) noRandomSet =
      .ok ((fetch new nilIdentifier locked).map fun r => new.appendNodeSet r.2 r.1) := by
  have hids : (oneParticipant locked).accountIDs = [nilIdentifier] := rfl
  have hps : (oneParticipant locked).state nilIdentifier =
      some ⟨1, nilHash, locked, none, ⟨1⟩⟩ := rfl
  simp only [buildCommittee, hids, rebuild, hps, if_neg hl]
  cases fetch new nilIdentifier locked <;> rfl

/-- One appended set determines the set and its hash. -/
theorem appendNodeSet_new_inj {h' : Hash} {s : NodeSet}
    (heq : new.appendNodeSet h (some s) = new.appendNodeSet h' set) : set = some s ∧ h = h' := by
  rcases set with _ | _
  · exact absurd (congrArg (List.length ∘ sets) heq) (by
      simp [appendNodeSet, new])
  have hsets := congrArg sets heq
  have hmap := congrArg consensusNodesHash heq
  simp only [appendNodeSet, new, List.nil_append, List.cons.injEq, and_true] at hsets hmap
  refine ⟨by rw [hsets], ?_⟩
  by_contra hne
  -- the record of one hash would be missing on the other side
  have hl := congrArg (AList.lookup h) hmap
  have hl' := congrArg (AList.lookup h') hmap
  by_cases hn : h.isNil = true
  · by_cases hn' : h'.isNil = true
    · simp only [Hash.isNil, decide_eq_true_eq] at hn hn'
      exact hne (hn.trans hn'.symm)
    · rw [if_pos hn, if_neg hn', lookup_insert, lookup_empty] at hl'
      cases hl'
  rw [if_neg hn, lookup_insert] at hl
  by_cases hn' : h'.isNil = true
  · rw [if_pos hn', lookup_empty] at hl
    cases hl
  · rw [if_neg hn', lookup_insert_ne hne, lookup_empty] at hl
    cases hl

/-- **A committee from the delta is determined by the locked contexts if the delta is faithful to
    them**, and, where one context is locked, only then. -/
theorem determined_iff (E : CommitteeEnv) (H : Bytes → Hash) (delta : GoMap Hash Bytes) :
    (∀ ts, Faithful E H delta ts → Determined E H delta ts) ∧
    ∀ locked, locked ≠ nilHash → Determined E H delta (oneParticipant locked) →
      Faithful E H delta (oneParticipant locked) := by
  refine ⟨fun ts => determined_of_faithful, fun locked hnil hdet _ id _ ps hps _ raw m hraw => ?_⟩
  obtain ⟨rfl, -⟩ := oneParticipant_state hps
  rintro ⟨hm, vals, hvals⟩
  rw [← hraw] at hdet hnil hm
  have hfetch : fetchRawContext E delta new nilIdentifier (H raw) =
      .ok (Engine.nodeSet vals (UInt32.ofNat m.consensusNodes.length), m.consensusNodesHash) := by
    simp [fetchRawContext, hm, hvals]
  have hstored := hdet noRandomSet (storeOf raw) _
    (stores_oneParticipant H raw) ((buildCommittee_oneParticipant hnil).trans (by rw [hfetch]; rfl))
  -- the store's builder succeeded, so the context decodes there too
  cases hdec : E.fromBytes raw with
  | error e =>
    have hbad : fetchParticipantContextByHash E (storeOf raw) new nilIdentifier
        (H raw) = .error (.wrap (.wrap e "MetaContextObject deserialization failed")
          "metaContextObject fetch failed") := by
      simp only [fetchParticipantContextByHash, getConsensusNodes, getMetaContextObject, storeOf,
        ContextStore.baseAccount, hdec]
      rfl
    rw [getICSCommittee, buildCommittee_oneParticipant hnil, hbad] at hstored
    cases hstored
  | ok m' =>
  rcases hvals' : E.systemObject.getValidatorsByKramaID m'.consensusNodes with e | vals'
  · have hbad : fetchParticipantContextByHash E (storeOf raw) new nilIdentifier
        (H raw) = .error e := by
      simp only [fetchParticipantContextByHash, getConsensusNodes, getMetaContextObject, storeOf,
        ContextStore.baseAccount, hdec]
      simp [hvals', show nilIdentifier.isParticipantVariant = false from rfl]
    rw [getICSCommittee, buildCommittee_oneParticipant hnil, hbad] at hstored
    cases hstored
  have hbase : (storeOf raw).baseAccount nilIdentifier = .ok nilIdentifier := rfl
  have hraw : (storeOf raw).getContext nilIdentifier (H raw) = .ok raw := rfl
  have hgood := fetchParticipantContextByHash_of new hbase hraw hdec hvals'
  have hnew : (new.consensusNodesHash.lookup m'.consensusNodesHash).isSome =
      false := rfl
  rw [getICSCommittee, buildCommittee_oneParticipant hnil, hgood, hnew] at hstored
  simp only [Except.map, Bool.false_eq_true, if_false, Except.ok.injEq] at hstored
  obtain ⟨hset, hhash⟩ := appendNodeSet_new_inj hstored
  unfold Engine.nodeSet at hset
  split at hset
  · cases hset
  rename_i hvne
  have hinfos : vals = vals' := congrArg NodeSet.infos (Option.some.inj hset)
  have hids := SystemObject.getValidatorsByKramaID_ids hvals
  have hids' := SystemObject.getValidatorsByKramaID_ids hvals'
  have hnodes : m'.consensusNodes = m.consensusNodes := by rw [← hids', ← hids, hinfos]
  refine ⟨fun hempty => hvne ?_, ?_⟩
  · rw [hempty] at hids
    exact List.map_eq_nil_iff.mp hids
  cases m
  cases m'
  simp only at hnodes hhash
  rw [hnodes, hhash]

namespace Sample

/-- Two validators; a context is one byte that names one of them. -/
def committeeEnv : CommitteeEnv where
  fromBytes
    | [b] => .ok ⟨[[b]], ⟨BitVec.ofNat 256 (10 + b.toNat)⟩⟩
    | _ => .error (.new "not a context")
  systemObject := ⟨[⟨0, [1], [7]⟩, ⟨1, [2], [8]⟩]⟩

def contextHash : Bytes → Hash
  | [b] => ⟨BitVec.ofNat 256 (100 + b.toNat)⟩
  | _ => ⟨1⟩

/-- Some bytes under the hash of the context of validator 1. -/
def deltaOf (raw : Bytes) : GoMap Hash Bytes := (∅ : GoMap Hash Bytes).insert (contextHash [1]) raw

def randomZero : CommitInfo := ⟨none, [], [], 1, [0], 1⟩

end Sample

open Sample

/-- A peer replaces the members of a context set: the bytes it sends hash to another value than the
    tesseract locked, and the committee is built from them. -/
theorem forged_delta_committee :
    ∃ (E : CommitteeEnv) (H : Bytes → Hash) (delta : GoMap Hash Bytes) (S : ContextStore)
      (ts : Tesseract) (info : CommitInfo) (c c' : ICSCommittee),
      Stores H S ts ∧ (∃ h d, delta.lookup h = some d ∧ H d ≠ h) ∧
        getICSCommitteeFromRawContext E delta ts info = .ok (.ok c) ∧
        getICSCommittee E S ts info = .ok (.ok c') ∧
        c.sets.map (·.kramaIDs) = [[[2]], [[1]]] ∧ c'.sets.map (·.kramaIDs) = [[[1]], [[1]]] ∧
        ¬ Determined E H delta ts := by
  have hforged : ∃ c, getICSCommitteeFromRawContext committeeEnv (deltaOf [2])
      (oneParticipant (contextHash [1])) randomZero = .ok (.ok c) ∧
      c.sets.map (·.kramaIDs) = [[[2]], [[1]]] := ⟨_, rfl, rfl⟩
  have hstored : ∃ c, getICSCommittee committeeEnv (storeOf [1])
      (oneParticipant (contextHash [1])) randomZero = .ok (.ok c) ∧
      c.sets.map (·.kramaIDs) = [[[1]], [[1]]] := ⟨_, rfl, rfl⟩
  obtain ⟨c, hc, hmembers⟩ := hforged
  obtain ⟨c', hc', hmembers'⟩ := hstored
  have hstores := stores_oneParticipant contextHash [1]
  refine ⟨_, contextHash, _, _, _, _, c, c', hstores, ⟨contextHash [1], [2], rfl, ?_⟩,
    hc, hc', hmembers, hmembers', fun hdet => ?_⟩
  · decide
  have := hdet _ _ _ hstores hc
  rw [hc'] at this
  cases this
  rw [hmembers] at hmembers'
  exact absurd hmembers' (by decide)

theorem contextHash_inj {raw : Bytes} (h : contextHash raw = contextHash [1]) : raw = [1] := by
  rcases raw with _ | ⟨b, _ | ⟨_, _⟩⟩
  · cases h
  · have hnat := congrArg (fun h => h.bits.toNat) h
    have hlt := b.toNat_lt
    simp only [contextHash, BitVec.toNat_ofNat, UInt8.toNat_one] at hnat
    rw [Nat.mod_eq_of_lt (by omega), Nat.mod_eq_of_lt (by decide)] at hnat
    rw [show b = 1 from UInt8.toNat_inj.mp (Nat.add_left_cancel hnat)]
  · cases h

/-- The context under its own hash: the committee is built from the delta. -/
theorem extractICSNodeset_eq_stored :
    ((deltaOf [1]).lookup (contextHash [1])).isSome = true ∧
    ∃ c, getICSCommittee committeeEnv (storeOf [1])
      (oneParticipant (contextHash [1])) randomZero = .ok (.ok c) := by
  have hfaith : Faithful committeeEnv contextHash (deltaOf [1])
    (oneParticipant (contextHash [1])) := by
    intro _ id _ ps hps _ raw m hraw hm
    rw [(oneParticipant_state hps).1] at hraw hm
    obtain ⟨hm, -⟩ := hm
    cases hm
    exact ⟨by simp, by rw [contextHash_inj hraw]; rfl⟩
  exact ⟨rfl, _, extractICSNodeset_eq hfaith (stores_oneParticipant contextHash [1]) rfl⟩

end GoMoi
