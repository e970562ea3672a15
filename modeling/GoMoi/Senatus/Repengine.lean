/-
  File:      GoMoi/Senatus/Repengine.lean
  Subject:   The reputation engine: updates of peers, the background flush, the peer count.

  The LRU cache and the dirty entries hold a record by its pointer, and so does a call: it looks its
  peer up (`lookUp`) and changes what it found later, when it takes the lock (`finish`). Between the
  two other calls may run, and the two halves of a round of `dbWorker`, which take the lock one
  after the other: `flushDirtyEntries` writes the dirty entries, and after a success
  `cleanUpDirtyStorage` drops all there are. `DecodedPeerID` is a parameter, an NTQ is the number it
  stands for, and `Registered`, which is not stored, is left out. A call of `AddNewPeerWithPeerID`
  brings its own record.

  * **`kept_iff`** -- no update is lost iff every call changes the record its peer then has, and at
    each clean-up the database has every dirty record;
  * **`count_iff`** -- the count is the number of known peers iff a call adds to it just for a peer
    unknown when it ends, and none is forgotten.
-/
import GoMoi.Common.Types
import GoMoi.Lib.Run
import Mathlib.Data.Finset.Card
import Mathlib.Data.UInt

namespace GoMoi

open List AList

/-! ## 1. The engine -/

structure NodeMetaInfo where
  addrs : List String := []
  kramaID : KramaID
  ntq : Rat := 0
  rtt : Int64 := 0
  walletCount : Int32 := 0
  peerSignature : Bytes := []
  deriving DecidableEq

def defaultPeerNTQ : Rat := 1 / 2

/-- What `AddNewPeerWithPeerID` assigns to a record that is there. -/
def NodeMetaInfo.mergeInto (data info : NodeMetaInfo) : NodeMetaInfo where
  addrs := if data.addrs.length ≠ 0 then data.addrs else info.addrs
  kramaID := if data.kramaID ≠ [] then data.kramaID else info.kramaID
  ntq := if data.ntq ≠ 0 ∧ data.ntq ≠ defaultPeerNTQ then data.ntq else info.ntq
  rtt := if data.rtt ≠ 0 then data.rtt else info.rtt
  walletCount := if data.walletCount ≠ 0 then data.walletCount else info.walletCount
  peerSignature := if data.peerSignature.length ≠ 0 then data.peerSignature else info.peerSignature

/-- What the three updates share: the peer, what is done to a record, the record that is made where
    there is none and what that adds to the count. `AddNewPeerWithPeerID` (`add`) puts the record
    into the cache and replaces no dirty entry. -/
structure RepUpdate (PeerID : Type) where
  peerID : PeerID
  change : NodeMetaInfo → NodeMetaInfo
  new : NodeMetaInfo
  count : UInt64
  add : Bool

structure ReputationEngine (PeerID : Type) where
  db : GoMap PeerID NodeMetaInfo
  /-- The records of a peer in memory, by their address. -/
  infos : PeerID → ℕ → NodeMetaInfo
  next : ℕ
  cache : GoMap PeerID ℕ
  dirtyEntries : GoMap PeerID ℕ
  peerCount : UInt64
  /-- `dbWorker` has flushed and cleans up next. -/
  flushed : Bool
  /-- The calls that have looked up their peer, with what they found. -/
  calls : ℕ → Option (RepUpdate PeerID × Option ℕ)

inductive RepCall (PeerID : Type)
  | addNewPeerWithPeerID (peerID : PeerID) (data : NodeMetaInfo)
  | updateNTQ (kramaID : KramaID) (ntq : Rat)
  | updateWalletCount (kramaID : KramaID) (delta : Int32)

/-- The two halves of a call, the steps of `dbWorker` and the evictions of the cache. Of a flush
    that fails some records may have reached the database. -/
inductive RepEvent (PeerID : Type)
  | lookUp (t : ℕ) (c : RepCall PeerID)
  | finish (t : ℕ)
  | flushDirtyEntries (failed : Option (List PeerID))
  | cleanUpDirtyStorage
  | evict (peerID : PeerID)

variable {PeerID : Type} [DecidableEq PeerID] (decode : KramaID → Option PeerID)

/-- The update a call makes. `UpdateNTQ` does not count a new peer. -/
def RepCall.update : RepCall PeerID → Option (RepUpdate PeerID)
  | .addNewPeerWithPeerID peerID data => some ⟨peerID, data.mergeInto, data, 1, true⟩
  | .updateNTQ kramaID ntq =>
    (decode kramaID).map (⟨·, ({ · with ntq }), { kramaID, ntq }, 0, false⟩)
  | .updateWalletCount kramaID delta =>
    (decode kramaID).map (⟨·, fun info => { info with walletCount := info.walletCount + delta },
      { kramaID, walletCount := delta, ntq := defaultPeerNTQ }, 1, false⟩)

/-- `u` applied to the record of its peer. -/
def RepUpdate.apply (u : RepUpdate PeerID) (book : PeerID → Option NodeMetaInfo) :
    PeerID → Option NodeMetaInfo :=
  Function.update book u.peerID (some ((book u.peerID).elim u.new u.change))

namespace ReputationEngine

variable (r : ReputationEngine PeerID)

/-- A record is written or made. -/
def set (p : PeerID) (a : ℕ) (info : NodeMetaInfo) : PeerID → ℕ → NodeMetaInfo :=
  Function.update r.infos p (Function.update (r.infos p) a info)

def nodeMetaInfo (peerID : PeerID) : Option ℕ × ReputationEngine PeerID :=
  match (r.cache.lookup peerID).or (r.dirtyEntries.lookup peerID) with
  | some a => (some a, r)
  | none =>
    match r.db.lookup peerID with
    | none => (none, r)
    | some info => (some r.next, { r with
        infos := r.set peerID r.next info
        next := r.next + 1
        cache := r.cache.insert peerID r.next })

def addToDirtyEntriesList (peerID : PeerID) (a : ℕ) : GoMap PeerID ℕ :=
  if peerID ∈ r.dirtyEntries then r.dirtyEntries else r.dirtyEntries.insert peerID a

/-- The second half of a call, with the record it found. -/
def finish (u : RepUpdate PeerID) : Option ℕ → ReputationEngine PeerID
  | some a => { r with
      infos := r.set u.peerID a (u.change (r.infos u.peerID a))
      dirtyEntries := r.addToDirtyEntriesList u.peerID a
      cache := if u.add then r.cache.insert u.peerID a else r.cache }
  | none => { r with
      infos := r.set u.peerID r.next u.new
      next := r.next + 1
      dirtyEntries := if u.add then r.addToDirtyEntriesList u.peerID r.next
        else r.dirtyEntries.insert u.peerID r.next
      cache := if u.add then r.cache.insert u.peerID r.next else r.cache
      peerCount := r.peerCount + u.count }

def flushDirtyEntries (failed : Option (List PeerID)) : ReputationEngine PeerID :=
  let write := fun (dirty : GoMap PeerID ℕ) =>
    dirty.entries.foldl (fun db e => db.insert e.1 (r.infos e.1 e.2)) r.db
  match failed with
  | none => { r with db := write r.dirtyEntries, flushed := true }
  | some done => { r with
      db := write (r.dirtyEntries.filterMap fun p a => if p ∈ done then some a else none) }

def deletePeers (ids : List KramaID) : ReputationEngine PeerID :=
  match ids.mapM decode with
  | none => r
  | some peers => { r with db := peers.foldl (fun db p => db.erase p) r.db }

def step : RepEvent PeerID → ReputationEngine PeerID
  | .lookUp t c =>
    match c.update decode with
    | none => r
    | some u =>
      let (found, r) := r.nodeMetaInfo u.peerID
      { r with calls := Function.update r.calls t (some (u, found)) }
  | .finish t =>
    match r.calls t with
    | none => r
    | some (u, found) => { r.finish u found with calls := Function.update r.calls t none }
  | .flushDirtyEntries failed => if r.flushed then r else r.flushDirtyEntries failed
  | .cleanUpDirtyStorage => if r.flushed then { r with dirtyEntries := ∅, flushed := false } else r
  | .evict peerID => { r with cache := r.cache.erase peerID }

/-- `NewReputationEngine` on a database, the update of the own record apart. -/
def start (db : GoMap PeerID NodeMetaInfo) : ReputationEngine PeerID :=
  ⟨db, fun _ _ => { kramaID := [] }, 0, ∅, ∅, .ofNat db.keys.length, false, fun _ => none⟩

/-! ## 2. Updates and the flush -/

/-- The record of a peer: the dirty one, else the one in the database. -/
def durable (p : PeerID) : Option NodeMetaInfo :=
  match r.dirtyEntries.lookup p with
  | some a => some (r.infos p a)
  | none => r.db.lookup p

/-- The event loses no update: a call applies its update, and nothing else changes a record. -/
def Kept : RepEvent PeerID → Prop
  | .finish t => (r.step decode (.finish t)).durable =
      ((r.calls t).map (·.1.apply r.durable)).getD r.durable
  | e => (r.step decode e).durable = r.durable

/-- What a call found is still the record of its peer, or that makes no difference. -/
def Timely (u : RepUpdate PeerID) (found : Option ℕ) : Prop :=
  match found, r.dirtyEntries.lookup u.peerID with
  | some a, some b => a = b ∨ r.infos u.peerID b = u.change (r.infos u.peerID b)
  | some a, none => u.change (r.infos u.peerID a) = (r.db.lookup u.peerID).elim u.new u.change
  | none, some b =>
    (if u.add then r.infos u.peerID b else u.new) = u.change (r.infos u.peerID b)
  | none, none => u.new = (r.db.lookup u.peerID).elim u.new u.change

def Covered : RepEvent PeerID → Prop
  | .finish t => ∀ u found, r.calls t = some (u, found) → r.Timely u found
  | .cleanUpDirtyStorage => r.flushed = true →
      ∀ p a, r.dirtyEntries.lookup p = some a → r.db.lookup p = some (r.infos p a)
  | _ => True

/-- The records a map holds are below `n`. -/
def Under (m : GoMap PeerID ℕ) (n : ℕ) : Prop := ∀ p a, m.lookup p = some a → a < n

/-- The next record is a new one. -/
structure Below : Prop where
  cache : Under r.cache r.next
  dirty : Under r.dirtyEntries r.next
  calls : ∀ t u a, r.calls t = some (u, some a) → a < r.next

variable {r decode} {u : RepUpdate PeerID}

@[simp]
theorem set_apply (p q : PeerID) (a b : ℕ) (info : NodeMetaInfo) :
    r.set p a info q b = if q = p ∧ b = a then info else r.infos q b := by
  unfold set
  rcases eq_or_ne q p with rfl | hq
  · simp [Function.update_apply]
  · simp [hq]

theorem lookup_addToDirtyEntriesList (p q : PeerID) (a : ℕ) :
    (r.addToDirtyEntriesList p a).lookup q =
      if q = p then (r.dirtyEntries.lookup p).or (some a) else r.dirtyEntries.lookup q := by
  unfold addToDirtyEntriesList
  simp only [← lookup_isSome]
  rcases eq_or_ne q p with rfl | hq
  · cases h : r.dirtyEntries.lookup q <;> simp [h]
  · split <;> simp [hq]

theorem Under.succ {m : GoMap PeerID ℕ} {n : ℕ} (h : Under m n) : Under m (n + 1) :=
  fun p a ha => Nat.lt_succ_of_lt (h p a ha)

theorem Under.insert {m : GoMap PeerID ℕ} {n a : ℕ} (h : Under m n) (ha : a < n) (p : PeerID) :
    Under (m.insert p a) n := by
  intro q b hb
  rcases GoMap.of_lookup_insert hb with ⟨-, rfl⟩ | hb
  · exact ha
  · exact h q b hb

theorem Below.nodeMetaInfo (h : r.Below) (p : PeerID) :
    (r.nodeMetaInfo p).2.durable = r.durable ∧ (r.nodeMetaInfo p).2.Below ∧
      ∀ a, (r.nodeMetaInfo p).1 = some a → a < (r.nodeMetaInfo p).2.next := by
  unfold ReputationEngine.nodeMetaInfo
  split
  case h_1 a ha =>
    refine ⟨rfl, h, fun b hb => ?_⟩
    rcases Option.or_eq_some_iff.mp (ha.trans hb) with hc | ⟨-, hd⟩
    · exact h.cache p b hc
    · exact h.dirty p b hd
  case h_2 =>
  split
  · exact ⟨rfl, h, by simp⟩
  have hnew := Nat.lt_succ_self r.next
  refine ⟨funext fun q => ?_, ⟨h.cache.succ.insert hnew p, h.dirty.succ, fun t u a hc => ?_⟩, ?_⟩
  · unfold durable
    rcases hq : r.dirtyEntries.lookup q with _ | a
    · rfl
    · simp [(h.dirty q a hq).ne]
  · exact Nat.lt_succ_of_lt (h.calls t u a hc)
  · rintro a ⟨⟩
    exact hnew

theorem Below.finish (h : r.Below) {found : Option ℕ} (hfound : ∀ a, found = some a → a < r.next) :
    (r.finish u found).Below := by
  have hadd {n a : ℕ} (hn : Under r.dirtyEntries n) (ha : a < n) :
      Under (r.addToDirtyEntriesList u.peerID a) n := by
    unfold addToDirtyEntriesList
    split
    · exact hn
    · exact hn.insert ha u.peerID
  cases found with
  | some a =>
    have ha := hfound a rfl
    refine ⟨?_, hadd h.dirty ha, h.calls⟩
    dsimp only [ReputationEngine.finish]
    split
    · exact h.cache.insert ha u.peerID
    · exact h.cache
  | none =>
    have ha := Nat.lt_succ_self r.next
    refine ⟨?_, ?_, fun t u a hc => Nat.lt_succ_of_lt (h.calls t u a hc)⟩
    all_goals
      dsimp only [ReputationEngine.finish]
      split
    · exact h.cache.succ.insert ha u.peerID
    · exact h.cache.succ
    · exact hadd h.dirty.succ ha
    · exact h.dirty.succ.insert ha u.peerID

/-- **The second half of a call** applies its update iff what it found is still the record. -/
theorem Below.durable_finish (h : r.Below) (found : Option ℕ) :
    (r.finish u found).durable = u.apply r.durable ↔ r.Timely u found := by
  have hother : ∀ q ≠ u.peerID, (r.finish u found).durable q = u.apply r.durable q := by
    intro q hq
    rw [RepUpdate.apply, Function.update_of_ne hq]
    cases found <;> cases hadd : u.add <;>
      simp [durable, ReputationEngine.finish, lookup_addToDirtyEntriesList, hadd, hq]
  have hown : (r.finish u found).durable = u.apply r.durable ↔
      (r.finish u found).durable u.peerID = u.apply r.durable u.peerID :=
    ⟨(congrFun · _), fun heq => funext fun q => (eq_or_ne q u.peerID).elim (· ▸ heq) (hother q)⟩
  rw [hown, RepUpdate.apply, Function.update_self]
  unfold Timely durable
  rcases hd : r.dirtyEntries.lookup u.peerID with _ | b
  · cases found <;> cases hadd : u.add <;>
      simp [ReputationEngine.finish, lookup_addToDirtyEntriesList, hadd, hd]
  have hb := h.dirty u.peerID b hd
  cases found with
  | none =>
    cases hadd : u.add <;>
      simp [ReputationEngine.finish, lookup_addToDirtyEntriesList, hadd, hd, hb.ne]
  | some a =>
    rcases eq_or_ne b a with rfl | hba
    · simp [ReputationEngine.finish, lookup_addToDirtyEntriesList, hd]
    · simp [ReputationEngine.finish, lookup_addToDirtyEntriesList, hd, hba, hba.symm]

theorem durable_flush (failed : Option (List PeerID)) :
    (r.flushDirtyEntries failed).durable = r.durable := by
  have hwrite (dirty : GoMap PeerID ℕ) (p : PeerID) :=
    GoMap.lookup_foldl_entries (fun db e => db.insert e.1 (r.infos e.1 e.2))
      (fun p _ a => r.infos p a) (fun m e k => by
        rcases eq_or_ne k e.1 with rfl | hk
        · simp
        · simp [hk]) dirty r.db p
  funext p
  unfold durable
  cases failed <;> simp only [flushDirtyEntries] <;>
    rcases hp : r.dirtyEntries.lookup p with _ | a <;>
    simp [hwrite, GoMap.lookup_filterMap, hp]

/-- **One event.** -/
theorem Below.step (h : r.Below) (e : RepEvent PeerID) :
    (r.Kept decode e ↔ r.Covered e) ∧ (r.step decode e).Below := by
  cases e with
  | lookUp t c =>
    simp only [Kept, Covered, ReputationEngine.step]
    cases c.update decode with
    | none => exact ⟨iff_of_true rfl trivial, h⟩
    | some u =>
      obtain ⟨hdur, hbelow, hfound⟩ := h.nodeMetaInfo u.peerID
      refine ⟨iff_of_true hdur trivial, hbelow.cache, hbelow.dirty, fun t' u' a hc => ?_⟩
      dsimp only at hc ⊢
      rw [Function.update_apply] at hc
      split at hc
      · exact hfound a (congrArg Prod.snd (Option.some.inj hc))
      · exact hbelow.calls t' u' a hc
  | finish t =>
    simp only [Kept, Covered, ReputationEngine.step]
    rcases hcall : r.calls t with _ | ⟨u, found⟩
    · exact ⟨iff_of_true rfl (by simp), h⟩
    have hb := h.finish (u := u) fun a ha => h.calls t u a (ha ▸ hcall)
    refine ⟨(h.durable_finish found).trans (by simp), hb.cache, hb.dirty, fun t' u' a hc => ?_⟩
    dsimp only at hc ⊢
    rw [Function.update_apply] at hc
    split at hc
    · cases hc
    · exact hb.calls t' u' a (by cases found <;> exact hc)
  | flushDirtyEntries failed =>
    simp only [Kept, Covered, ReputationEngine.step]
    split
    · exact ⟨iff_of_true rfl trivial, h⟩
    · refine ⟨iff_of_true (durable_flush failed) trivial, ?_⟩
      cases failed <;> exact ⟨h.cache, h.dirty, h.calls⟩
  | cleanUpDirtyStorage =>
    simp only [Kept, Covered, ReputationEngine.step]
    rcases hf : r.flushed with _ | _
    · exact ⟨iff_of_true rfl (by simp), h⟩
    refine ⟨⟨fun hk _ p a hp => ?_, fun hk => funext fun p => ?_⟩,
      h.cache, by simp [Under], h.calls⟩
    · have hdur : r.durable p = some (r.infos p a) := by simp [durable, hp]
      exact (congrFun hk p).trans hdur
    · unfold durable
      rcases hp : r.dirtyEntries.lookup p with _ | a
      · rfl
      · exact hk rfl p a hp
  | evict p =>
    exact ⟨iff_of_true rfl trivial, fun q a hq => h.cache q a (GoMap.of_lookup_erase hq),
      h.dirty, h.calls⟩

/-- The peers in the cache, the dirty entries or the database. -/
def known (r : ReputationEngine PeerID) : Finset PeerID :=
  (r.cache.keys ++ r.dirtyEntries.keys ++ r.db.keys).toFinset

/-- The events and `DeletePeers`. -/
def act (decode : KramaID → Option PeerID) (r : ReputationEngine PeerID) :
    RepEvent PeerID ⊕ List KramaID → ReputationEngine PeerID
  | .inl e => r.step decode e
  | .inr ids => r.deletePeers decode ids

/-- `TotalPeerCount` is right. -/
def Counted (r : ReputationEngine PeerID) : Prop := r.peerCount.toNat = r.known.card

/-- A call adds one to the count just for a peer that is unknown when it ends, within the range of
    the count, and no peer is dropped from the only place that has it. -/
def CountSafe (decode : KramaID → Option PeerID) (r : ReputationEngine PeerID) :
    RepEvent PeerID ⊕ List KramaID → Prop
  | .inl (.lookUp _ _) => True
  | .inl (.finish t) => ∀ u found, r.calls t = some (u, found) →
      if u.peerID ∈ r.known then found.isSome ∨ u.count = 0
      else found = none ∧ u.count = 1 ∧ r.known.card + 1 < 2 ^ 64
  | .inl (.flushDirtyEntries _) => True
  | .inl .cleanUpDirtyStorage => r.flushed = true → ∀ p ∈ r.dirtyEntries, p ∈ r.cache ∨ p ∈ r.db
  | .inl (.evict p) => p ∈ r.cache → p ∈ r.dirtyEntries ∨ p ∈ r.db
  | .inr ids => ∀ peers, ids.mapM decode = some peers →
      ∀ p ∈ peers, p ∈ r.db → p ∈ r.cache ∨ p ∈ r.dirtyEntries

theorem mem_known {p : PeerID} : p ∈ r.known ↔ p ∈ r.cache ∨ p ∈ r.dirtyEntries ∨ p ∈ r.db := by
  simp [known, AList.mem_keys]

theorem known_flush (failed : Option (List PeerID)) :
    (r.flushDirtyEntries failed).known = r.known := by
  have hdur (r : ReputationEngine PeerID) (p : PeerID) :
      p ∈ r.known ↔ p ∈ r.cache ∨ (r.durable p).isSome := by
    rw [mem_known, durable, ← lookup_isSome, ← lookup_isSome (s := r.dirtyEntries),
      ← lookup_isSome (s := r.db)]
    split <;> simp [*]
  ext p
  rw [hdur, hdur, durable_flush]
  cases failed <;> rfl

theorem known_nodeMetaInfo (p : PeerID) : (r.nodeMetaInfo p).2.known = r.known ∧
    (r.nodeMetaInfo p).2.peerCount = r.peerCount := by
  unfold nodeMetaInfo
  split
  · exact ⟨rfl, rfl⟩
  split
  · exact ⟨rfl, rfl⟩
  next info hinfo =>
  refine ⟨Finset.ext fun q => ?_, rfl⟩
  have hp : p ∈ r.db := lookup_isSome.mp (hinfo ▸ rfl)
  rw [mem_known, mem_known]
  simp only [AList.mem_insert]
  grind

theorem known_finish (found : Option ℕ) :
    (r.finish u found).known = insert u.peerID r.known ∧ (r.finish u found).peerCount =
      if found.isSome then r.peerCount else r.peerCount + u.count := by
  refine ⟨Finset.ext fun q => ?_, by cases found <;> rfl⟩
  rw [Finset.mem_insert, mem_known, mem_known]
  cases found <;> unfold finish addToDirtyEntriesList <;> grind [AList.mem_insert]

/-- Where peers are dropped and none is counted. -/
theorem Counted.iff_subset {r' : ReputationEngine PeerID} (h : r.Counted)
    (hc : r'.peerCount = r.peerCount) (hsub : r'.known ⊆ r.known) :
    r'.Counted ↔ ∀ p ∈ r.known, p ∈ r'.known := by
  unfold Counted at *
  rw [hc, h]
  exact ⟨fun e => (Finset.eq_of_subset_of_card_le hsub e.le).ge,
    fun hs => congrArg _ (Finset.Subset.antisymm hs hsub)⟩

theorem Counted.finish_iff (h : r.Counted) (found : Option ℕ) : (r.finish u found).Counted ↔
    if u.peerID ∈ r.known then found.isSome ∨ u.count = 0
    else found = none ∧ u.count = 1 ∧ r.known.card + 1 < 2 ^ 64 := by
  obtain ⟨hknown, hcount⟩ := known_finish (r := r) (u := u) found
  unfold Counted at *
  have hlt := u.count.toNat_lt
  have hlt' := r.peerCount.toNat_lt
  rw [hknown, hcount]
  by_cases hp : u.peerID ∈ r.known
  · rw [if_pos hp, Finset.insert_eq_of_mem hp]
    cases found with
    | none =>
      simp only [Option.isSome_none, Bool.false_eq_true, if_false, false_or, UInt64.toNat_add, h,
        ← UInt64.toNat_inj]
      simp
      omega
    | some a => simp [h]
  · rw [if_neg hp, Finset.card_insert_of_notMem hp]
    cases found with
    | none =>
      simp only [Option.isSome_none, Bool.false_eq_true, if_false, UInt64.toNat_add, h,
        ← UInt64.toNat_inj]
      simp
      omega
    | some a => simp [h]

theorem mem_foldl_erase (l : List PeerID) (db : GoMap PeerID NodeMetaInfo) {p : PeerID} :
    p ∈ l.foldl (fun db p => db.erase p) db ↔ p ∉ l ∧ p ∈ db := by
  induction l generalizing db with
  | nil => simp
  | cons q l ih =>
    rw [foldl_cons, ih, mem_erase, mem_cons]
    tauto

/-- **One event.** -/
theorem Counted.act_iff (h : r.Counted) (e : RepEvent PeerID ⊕ List KramaID) :
    (r.act decode e).Counted ↔ r.CountSafe decode e := by
  rcases e with (⟨t, c⟩ | t | failed | _ | p) | ids
  all_goals simp only [act, CountSafe, step, deletePeers]
  · cases c.update decode with
    | none => simpa using h
    | some u =>
      obtain ⟨hknown, hcount⟩ := known_nodeMetaInfo (r := r) u.peerID
      refine iff_of_true ?_ trivial
      unfold Counted at *
      exact (congrArg _ hcount).trans (h.trans (congrArg _ hknown.symm))
  · rcases r.calls t with _ | ⟨u, found⟩
    · simpa using h
    · exact (h.finish_iff found).trans (by simp)
  · split
    · simpa using h
    · refine iff_of_true ?_ trivial
      rw [Counted, known_flush]
      cases failed <;> exact h
  · split
    · refine (h.iff_subset (by rfl) fun p hp => ?_).trans ?_
      all_goals
        simp only [mem_known, AList.notMem_empty] at *
        grind
    · simp_all
  · refine (h.iff_subset (by rfl) fun p hp => ?_).trans ?_
    all_goals
      simp only [mem_known, mem_erase] at *
      grind
  · rcases ids.mapM decode with _ | peers
    · simpa using h
    refine (h.iff_subset (by rfl) fun p hp => ?_).trans ?_
    all_goals
      simp only [mem_known, mem_foldl_erase] at *
      grind

/-- **The peer count.** For every database and every interleaving of updates and deletions, the
    count is the number of known peers throughout iff a call adds one to it just for a peer unknown
    when it ends and no peer is dropped from the only place that has it. -/
theorem count_iff (decode : KramaID → Option PeerID) (db : GoMap PeerID NodeMetaInfo)
    (es : List (RepEvent PeerID ⊕ List KramaID)) :
    ((start db).Counted ∧ Along (act decode) (fun r e => (r.act decode e).Counted) (start db) es) ↔
      db.keys.length < 2 ^ 64 ∧ Along (act decode) (CountSafe decode) (start db) es := by
  have hstart : (start db).Counted ↔ db.keys.length < 2 ^ 64 := by
    have hcard : (start db).known.card = db.keys.length := toFinset_card_of_nodup db.nodupKeys
    rw [Counted, hcard]
    exact Nat.mod_eq_iff_lt (by decide)
  rw [← hstart]
  exact and_congr_right fun h => Along.congr (I := Counted) (fun _ e h => (h.act_iff e).mpr)
    (fun _ e h => h.act_iff e) es h

/-- `UpdateNTQ` of a peer nobody knows leaves the count at zero. -/
theorem count_low : ¬ Counted (((start ∅).act (some ·) (.inl (.lookUp 0 (.updateNTQ [1] 1)))).act
    (some ·) (.inl (.finish 0))) := by
  unfold Counted
  decide

end ReputationEngine

end GoMoi
