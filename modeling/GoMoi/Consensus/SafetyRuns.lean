/-
  File:      GoMoi/Consensus/SafetyRuns.lean
  Subject:   The last view of an account over a whole run of the engine.

  The store is shared by all instances of the agreement protocol and by the certificates learnt
  from peers. Its calls, in any order, are the events of a machine.

  * `ConsensusSafety.Step` -- a call of `UpdateSafetyInfo` by an instance, or one round of
    `validateQcAndUpdateSafety`; `validateQcAndUpdateSafety_run` -- the whole loop is a run;
  * `Covers` -- the view of a certificate is not below the last view of any account it is entered
    for;
  * **`lastView_run`** -- in a run whose certificates are all covering the last view of no account
    decreases;
  * `peer_qc_lowers_lastView` -- a certificate from a peer that passes the guard, since it is newer
    for the account the peer reports on, and lowers the last view of another account.
-/
import GoMoi.Consensus.Safety
import GoMoi.Consensus.KbftRuns

namespace GoMoi

namespace ConsensusSafety

open Proc

/-! ## 1. The machine -/

/-- The calls that change safety data. -/
inductive Event where
  /-- an instance has called `UpdateSafetyInfo` -/
  | kbft (p : Proposal) (qc : Qc)
  /-- one certificate of a peer's view of the account `id` -/
  | peer (id : Identifier) (accMetaInfo : Option AccountMetaInfo) (peerID : KramaID)
      (isProposal : Bool) (qc : Option Qc)

section

variable (K : SafetyEnv)

/-- One call. -/
def call (a : Answers) : Event → Proc SafetyDB (Option Err)
  | .kbft p qc => updateSafetyInfo K a p qc
  | .peer id accMetaInfo peerID isProposal qc => learnQc K a id accMetaInfo peerID isProposal qc

/-- The machine. What a call has written stays, also if it panics. -/
def Step (s : SafetyDB) (e : Answers × Event) (s' : SafetyDB) : Prop :=
  ∃ r, call K e.1 e.2 s = (r, s')

end

variable {K : SafetyEnv} {a : Answers} {id : Identifier} {acc : Option AccountMetaInfo}
  {peerID : KramaID} {isProposal : Bool} {r : Except Panic (Option Err)} {R : SafetyDB → Prop}
  {qc : Qc} {tsHash : Hash}

theorem validateQcs_run {answers : Nat → Answers} {qcs : List (Option Qc)} {s s' : SafetyDB}
    (h : validateQcs K id acc peerID isProposal answers qcs s = (r, s')) :
    ∃ es, Run (Step K) s es s' := by
  induction qcs generalizing answers s with
  | nil =>
    cases h
    exact ⟨[], .start⟩
  | cons qc rest ih =>
    simp only [validateQcs, bind] at h
    generalize hcall : learnQc K (answers 0) id acc peerID isProposal qc s = out at h
    obtain ⟨res, s1⟩ := out
    have hstep : Step K s (answers 0, .peer id acc peerID isProposal qc) s1 := ⟨res, hcall⟩
    rcases res with p | _ | e
    · cases h
      exact ⟨_, .cons hstep .start⟩
    · obtain ⟨_, hes⟩ := ih h
      exact ⟨_, .cons hstep hes⟩
    · cases h
      exact ⟨_, .cons hstep .start⟩

/-- **The loop over a peer's certificates is a run.** -/
theorem validateQcAndUpdateSafety_run {answers : Nat → Answers} {remote : ViewInfo}
    {s s' : SafetyDB}
    (h : validateQcAndUpdateSafety K answers remote peerID isProposal s = (r, s')) :
    ∃ es, Run (Step K) s es s' :=
  validateQcs_run h

/-! ## 2. Last views -/

/-- The last view that is stored for an account, if its entry can be decoded. -/
def lastViewOf (E : SafetyCodec) (s : SafetyDB) (id : Identifier) : Option UInt64 :=
  match s.safetyData.lookup id with
  | none => none
  | some raw =>
    match E.depolorize raw with
    | .error _ => none
    | .ok sd => sd.lastView.toOption

/-- No account reports an older view than before. -/
def NeverLower (E : SafetyCodec) (s s' : SafetyDB) : Prop :=
  ∀ id v, lastViewOf E s id = some v → ∃ v', lastViewOf E s' id = some v' ∧ v ≤ v'

/-- The certificate is not older than what is stored for the accounts the tesseract locks. -/
def Covers (E : SafetyCodec) (s : SafetyDB) (ts : Tesseract) (qc : Qc) : Prop :=
  ∀ id lock, ts.consensusInfo.accountLocks.lookup id = some lock → lock ≠ noLock →
    ∀ v, lastViewOf E s id = some v → v ≤ qc.view

/-- The certificate a call may enter is covering. A peer's certificate is entered only for a
    tesseract that is new to the store. -/
def Covered (E : SafetyCodec) (s : SafetyDB) (a : Answers) : Event → Prop
  | .kbft p qc => ∀ ts, p.tesseract = some ts → Covers E s ts qc
  | .peer _ _ peerID _ qc => ∀ q ts, qc = some q → q.type = PREVOTE →
      a.lockedTS q.tsHash = some ts ∨ a.rpcGetLockedTesseract peerID q.tsHash = .ok (some ts) →
      Covers E s ts q

section

variable {E : SafetyCodec} {s s' : SafetyDB}

theorem NeverLower.refl (s : SafetyDB) : NeverLower E s s := fun _ v h => ⟨v, h, UInt64.le_refl v⟩

theorem NeverLower.trans {s1 s2 s3 : SafetyDB} (h : NeverLower E s1 s2) (h' : NeverLower E s2 s3) :
    NeverLower E s1 s3 := by
  intro id v hv
  obtain ⟨v', hv', hle⟩ := h id v hv
  obtain ⟨v'', hv'', hle'⟩ := h' id v' hv'
  exact ⟨v'', hv'', UInt64.le_trans hle hle'⟩

variable {raw : Bytes} {sd : SafetyData} {v : UInt64}

theorem lastViewOf_set (hraw : E.depolorize raw = .ok sd) (hv : sd.lastView = .ok v) :
    lastViewOf E (s.setSafetyData id raw) id = some v := by
  simp [lastViewOf, SafetyDB.setSafetyData, hraw, hv, Except.toOption]

theorem lastViewOf_set_ne {id' : Identifier} (hne : id' ≠ id) :
    lastViewOf E (s.setSafetyData id raw) id' = lastViewOf E s id' := by
  simp [lastViewOf, SafetyDB.setSafetyData, AList.lookup_insert_ne hne]

/-- An entry that is not older than the one it replaces. -/
theorem NeverLower.set (hraw : E.depolorize raw = .ok sd) (hv : sd.lastView = .ok v)
    (hle : ∀ u, lastViewOf E s id = some u → u ≤ v) : NeverLower E s (s.setSafetyData id raw) := by
  intro id' u hu
  by_cases hid : id' = id
  · subst hid
    exact ⟨v, lastViewOf_set hraw hv, hle u hu⟩
  · exact ⟨u, by rw [lastViewOf_set_ne hid, hu], UInt64.le_refl u⟩

end

/-! ## 3. One call -/

variable {s : SafetyDB}

/-- Nothing is written, or an entry for `id` that ends in the certificate. -/
def Enters (E : SafetyCodec) (qc : Qc) (id : Identifier) (s s' : SafetyDB) : Prop :=
  s' = s ∨ ∃ raw sd, E.depolorize raw = .ok sd ∧ sd.lastView = .ok qc.view ∧
    s' = s.setSafetyData id raw

/-- Nothing is written, or an entry of `id` that meets `P`. -/
def Writes (E : SafetyCodec) (P : SafetyData → Prop) (id : Identifier) (s s' : SafetyDB) : Prop :=
  s' = s ∨ ∃ raw sd, E.depolorize raw = .ok sd ∧ P sd ∧ s' = s.setSafetyData id raw

theorem setSafetyData_writes (hlaw : K.codec.Lawful) {P : SafetyData → Prop} {data : SafetyData}
    (hp : P data) : wp (setSafetyData K a id data) (fun _ => Writes K.codec P id s) R s := by
  unfold setSafetyData SafetyCodec.bytes
  rcases hraw : K.codec.polorize data with e | raw
  · exact .inl rfl
  cases a.writeSafety id with
  | some e => exact .inl rfl
  | none => exact .inr ⟨raw, data, hlaw data raw hraw, hp, rfl⟩

/-- **One account**: what is written ends in the certificate, whether an entry was read or not. -/
theorem updateLock_spec (hlaw : K.codec.Lawful) :
    wp (updateLock K a qc tsHash id) (fun _ => Enters K.codec qc id s) (· = s) s := by
  simp only [updateLock, getSafetyData, wp_bind, wp_self, wp_pure]
  split
  · exact setSafetyData_writes hlaw (SafetyData.lastView_snoc (l := []) rfl)
  · rw [wp_bind]
    refine wp_ofGo.mpr ⟨fun data hdata => ?_, fun _ _ => rfl⟩
    exact setSafetyData_writes hlaw (SafetyData.lastView_updateQc hdata)

section

variable {E : SafetyCodec} {qc : Qc} {id : Identifier} {s' : SafetyDB}

/-- A covering certificate lowers nothing. -/
theorem Enters.neverLower (h : Enters E qc id s s')
    (hle : ∀ v, lastViewOf E s id = some v → v ≤ qc.view) : NeverLower E s s' := by
  rcases h with rfl | ⟨_, _, hraw, hview, rfl⟩
  · exact .refl s'
  · exact .set hraw hview hle

/-- ... and is covering afterwards for the accounts it was covering for. -/
theorem Enters.covering (h : Enters E qc id s s') {id' : Identifier}
    (hle : ∀ v, lastViewOf E s id' = some v → v ≤ qc.view) :
    ∀ v, lastViewOf E s' id' = some v → v ≤ qc.view := by
  rcases h with rfl | ⟨_, _, hraw, hview, rfl⟩
  · exact hle
  intro v hv
  by_cases hid : id' = id
  · rw [hid, lastViewOf_set hraw hview] at hv
    cases hv
    exact UInt64.le_refl _
  · rw [lastViewOf_set_ne hid] at hv
    exact hle v hv

end

/-- The loop over the locks keeps what a round keeps. -/
theorem updateLocks_leaves {I : SafetyDB → Prop} {locks : List (Σ _ : Identifier, LockType)}
    (hround : ∀ e ∈ locks, e.2 ≠ noLock → ∀ s, I s → leaves (updateLock K a qc tsHash e.1) I s)
    (hs : I s) : leaves (updateLocks K a qc tsHash locks) I s := by
  induction locks generalizing s with
  | nil => exact hs
  | cons e rest ih =>
    have hrest := fun e' he' => hround e' (List.mem_cons_of_mem e he')
    simp only [updateLocks, wp_ite, wp_bind]
    refine ⟨fun _ => ih hrest hs, fun hlock => ?_⟩
    refine wp_post (hround e List.mem_cons_self hlock s hs) fun err s1 h1 => ?_
    cases err with
    | some err => exact h1
    | none => exact ih hrest h1

theorem storeProposal_safetyData {ts : Tesseract} :
    Fixes SafetyDB.safetyData (storeProposal K a ts tsHash) := by
  unfold storeProposal
  rcases K.codec.polorizeProposal ts with e | _
  · exact .pure _
  cases a.writeProposal tsHash with
  | some e => exact .pure _
  | none => exact .bind (.assign fun _ => rfl) .pure

/-- `UpdateSafetyInfo` keeps what the rounds for its tesseract keep, if the proposals do not matter;
    `J` holds between the rounds. -/
theorem updateSafetyInfo_leaves {I : SafetyDB → Prop} {p : Proposal} (hs : I s)
    (hI : ∀ s s', s'.safetyData = s.safetyData → I s → I s')
    (hrounds : ∀ ts tsHash, p.tesseract = some ts → ts.hash K.node.codec = .ok tsHash →
      ∃ J : SafetyDB → Prop, J s ∧ ∀ e ∈ ts.consensusInfo.accountLocks.entries, e.2 ≠ noLock →
        ∀ s, I s ∧ J s → leaves (updateLock K a qc tsHash e.1) (fun s => I s ∧ J s) s) :
    leaves (updateSafetyInfo K a p qc) I s := by
  simp only [updateSafetyInfo, wp_bind]
  refine wp_ofGo.mpr ⟨fun ts hts => ?_, fun _ _ => hs⟩
  refine wp_ofGo.mpr ⟨fun tsHash hhash => ?_, fun _ _ => hs⟩
  obtain ⟨J, hJ, hround⟩ := hrounds ts tsHash (Go.deref_eq_ok.mp hts) hhash
  refine wp_mono (updateLocks_leaves hround ⟨hs, hJ⟩) (fun err s1 h1 => ?_) fun _ h => h.1
  rcases err with _ | e
  swap
  · exact h1.1
  simp only [wp_ite, wp_pure]
  exact ⟨fun _ => wp_state.mpr (hI s1 _ (storeProposal_safetyData s1) h1.1), fun _ => h1.1⟩

/-- **`UpdateSafetyInfo`** with a covering certificate. -/
theorem updateSafetyInfo_spec (hlaw : K.codec.Lawful) {p : Proposal}
    (hcovers : ∀ ts, p.tesseract = some ts → Covers K.codec s ts qc) :
    leaves (updateSafetyInfo K a p qc) (NeverLower K.codec s) s := by
  refine updateSafetyInfo_leaves (.refl s) (fun s1 s2 heq h => ?_) fun ts tsHash hts _ =>
    ⟨fun s => Covers K.codec s ts qc, hcovers ts hts, fun e he hlock s1 h => ?_⟩
  · intro id v hv
    unfold lastViewOf at h ⊢
    exact heq ▸ h id v hv
  have hle := h.2 e.1 e.2 (AList.mem_lookup_iff.mpr he) hlock
  refine wp_mono (updateLock_spec hlaw) (fun _ s2 h2 => ⟨h.1.trans (h2.neverLower hle), ?_⟩)
    fun s2 hs2 => hs2 ▸ h
  exact fun id lock hid hlock' => h2.covering (h.2 id lock hid hlock')

/-- `GetLatestSafetyInfo` reads. -/
theorem getLatestSafetyInfo_state (b : Answers) : Fixes (fun s : SafetyDB => s)
    (getLatestSafetyInfo K b id) := by
  intro s
  unfold getLatestSafetyInfo
  rcases b.getAccountMetaInfo id with e | metaInfo
  · rfl
  have hread : Fixes (fun s : SafetyDB => s) (getSafetyData K b metaInfo.id) := fun _ => rfl
  refine hread.bind (fun r => ?_) s
  cases r with
  | ok info => exact .pure _
  | error err => exact .ite (.pure _) (.pure _)

variable {Q : Except Err (Option Tesseract × Bool) → SafetyDB → Prop}

/-- `getTS` reads; a tesseract that is new to the store comes from the cache or from the peer. -/
theorem wp_getTS {msgType : ConsensusMsgType} {kramaID : KramaID}
    (hread : ∀ r, (∀ ts, r = .ok (some ts, true) →
      a.lockedTS tsHash = some ts ∨ a.rpcGetLockedTesseract kramaID tsHash = .ok (some ts)) → Q r s)
    (hpanic : R s) : wp (getTS K a msgType tsHash kramaID isProposal) Q R s := by
  have herror : ∀ e, Q (.error e) s := fun e => hread _ nofun
  have hstored : ∀ ts, Q (.ok (ts, false)) s := fun ts => hread _ nofun
  unfold getTS
  rcases a.getTesseract tsHash with e | ts
  swap
  · exact hstored _
  simp only [getTesseract, wp_bind, wp_self, wp_pure]
  split
  · exact hstored _
  rcases hcache : a.lockedTS tsHash with _ | ts
  swap
  · refine hread _ fun ts' h => ?_
    cases h
    exact .inl hcache
  simp only [wp_ite, wp_pure]
  refine ⟨fun _ => herror _, fun _ => ?_⟩
  rcases hrpc : a.rpcGetLockedTesseract kramaID tsHash with e | _ | _
  · exact herror e
  · exact hstored none
  simp only [wp_bind]
  refine wp_ofGo.mpr ⟨fun _ _ => ?_, fun _ _ => hpanic⟩
  simp only [wp_ite, wp_pure]
  refine ⟨fun _ => herror _, fun _ => hread _ fun ts' h => ?_⟩
  cases h
  exact .inr hrpc

/-- The guard reads only. -/
theorem wp_isNewer {Q : Except Err Bool → SafetyDB → Prop} {ts : Tesseract} (hread : ∀ r, Q r s)
    (hpanic : R s) : wp (isNewer K a id acc ts qc) Q R s := by
  unfold isNewer
  rcases acc with _ | _
  · exact hread _
  simp only [wp_ite, wp_pure, wp_bind]
  refine ⟨fun _ => hread _, fun _ => ?_⟩
  refine wp_mono (wp_state (I := (· = s)).mpr (getLatestSafetyInfo_state a s)) (fun r s1 hs1 => ?_)
    fun s1 hs1 => hs1 ▸ hpanic
  subst hs1
  rcases r with e | _
  · exact hread _
  rw [wp_bind]
  exact wp_ofGo.mpr ⟨fun _ _ => hread _, fun _ _ => hpanic⟩

/-- **One certificate of a peer**, if it is covering where it may be entered. -/
theorem learnQc_spec (hlaw : K.codec.Lawful) {qc : Option Qc}
    (hcovered : Covered K.codec s a (.peer id acc peerID isProposal qc)) :
    leaves (learnQc K a id acc peerID isProposal qc) (NeverLower K.codec s) s := by
  have hrefl : NeverLower K.codec s s := .refl s
  simp only [learnQc, wp_bind]
  refine wp_ofGo.mpr ⟨fun q hq => ?_, fun _ _ => hrefl⟩
  simp only [wp_ite, wp_pure, wp_bind]
  refine ⟨fun _ => hrefl, fun _ => wp_getTS (fun r hr => ?_) hrefl⟩
  rcases r with e | ⟨_, shouldStore⟩
  · exact hrefl
  simp only [wp_bind]
  refine wp_ofGo.mpr ⟨fun ts' hts => wp_ofGo.mpr ⟨fun ics _ => ?_, fun _ _ => hrefl⟩,
    fun _ _ => hrefl⟩
  rcases ics with e | _
  · exact hrefl
  simp only [wp_bind]
  refine wp_ofGo.mpr ⟨fun verdict _ => ?_, fun _ _ => hrefl⟩
  simp only [wp_ite, wp_pure, wp_bind]
  refine ⟨fun _ => hrefl, fun _ => ⟨fun _ => hrefl, fun _ => ⟨fun _ => hrefl, fun hnew =>
    wp_isNewer (fun r => ?_) hrefl⟩⟩⟩
  rcases r with e | _ | _
  · exact hrefl
  · exact hrefl
  -- the tesseract is new to the store, and the certificate a PREVOTE one
  obtain ⟨rfl, htype⟩ : shouldStore = true ∧ q.type = PREVOTE := by simpa using hnew
  obtain rfl := Go.deref_eq_ok.mp hts
  refine updateSafetyInfo_spec hlaw fun ts'' hts'' => ?_
  cases hts''
  exact hcovered q ts' (Go.deref_eq_ok.mp hq) htype (hr ts' rfl)

/-! ## 4. Runs -/

theorem step_neverLower (hlaw : K.codec.Lawful) {s' : SafetyDB} {e : Answers × Event}
    (h : Guarded (fun s e => Covered K.codec s e.1 e.2) (Step K) s e s') :
    NeverLower K.codec s s' := by
  obtain ⟨hcovered, r, hcall⟩ := h
  obtain ⟨a, e⟩ := e
  have hspec : leaves (call K a e) (NeverLower K.codec s) s := by
    cases e with
    | kbft p qc => exact updateSafetyInfo_spec hlaw hcovered
    | peer id acc peerID isProposal qc => exact learnQc_spec hlaw hcovered
  rw [wp_state, hcall] at hspec
  exact hspec

/-- **In a run whose certificates are all covering no account ever reports an older view.** -/
theorem lastView_run (hlaw : K.codec.Lawful) {es : List (Answers × Event)} {s₀ s : SafetyDB}
    (h : Run (Guarded (fun s e => Covered K.codec s e.1 e.2) (Step K)) s₀ es s) :
    NeverLower K.codec s₀ s :=
  h.related NeverLower.refl (fun _ _ _ => NeverLower.trans) fun _ _ _ => step_neverLower hlaw

/-! ## 5. Two accounts -/

/-- An encoding of the entries of a table by their number. -/
def tableCodec (table : List SafetyData) : SafetyCodec where
  polorize sd :=
    if sd ∈ table then .ok [UInt8.ofNat (table.idxOf sd)] else .error (.new "no encoding")
  depolorize raw :=
    match raw with
    | [n] => (table[n.toNat]?).elim (.error (.new "no data")) .ok
    | _ => .error (.new "no data")
  polorizeProposal _ := .ok []
  depolorizeProposal _ := .error (.new "no proposal")

theorem tableCodec_lawful {table : List SafetyData} (hlen : table.length < 256) :
    (tableCodec table).Lawful := by
  intro sd raw h
  simp only [tableCodec] at h
  split at h
  · rename_i hmem
    cases h
    have hlt := List.idxOf_lt_length_of_mem hmem
    have hnat : (UInt8.ofNat (table.idxOf sd)).toNat = table.idxOf sd := by
      exact Nat.mod_eq_of_lt (by omega)
    simp [tableCodec, hnat, List.getElem?_eq_getElem hlt]
  · cases h

namespace Pair

def first : Identifier := ⟨BitVec.ofNat 256 (2 ^ 32)⟩

def second : Identifier := ⟨BitVec.ofNat 256 (2 ^ 33)⟩

/-- The PREVOTE certificate for the tesseract below, signed for both its sets. -/
def qcAt (view : UInt64) : Qc :=
  ⟨PREVOTE, view, ⟨1⟩, some ⟨2, [3]⟩,
    [2, UInt8.ofNat view.toNat, 1, 2, UInt8.ofNat view.toNat, 1]⟩

/-- Safety data with one certificate. -/
def stored (view : UInt64) : SafetyData := ⟨[some (qcAt view)], [⟨1⟩], ⟨1⟩⟩

def table : List SafetyData := [stored 1, stored 2, stored 3, stored 5, (stored 5).append (qcAt 3)]

/-- A tesseract that locks both accounts. -/
def tesseract : Tesseract where
  participants := ((∅ : ParticipantsState).insert first ⟨2, nilHash, ⟨9⟩, none, ⟨1⟩⟩).insert
    second ⟨2, nilHash, ⟨9⟩, none, ⟨1⟩⟩
  interactionsHash := nilHash
  receiptsHash := nilHash
  epoch := 0
  timestamp := 0
  fuelUsed := 0
  fuelLimit := 0
  consensusInfo := ⟨[1], nilHash, nilHash, 3, ∅, ∅,
    ((∅ : GoMap Identifier LockType).insert first mutateLock).insert second mutateLock, nilHash, []⟩
  sealBytes := []
  sealBy := []
  commitInfo := some ⟨none, [1], [], 3, [0], 1⟩

/-- Every context lists the one validator `[1]`. -/
def committeeEnv : CommitteeEnv where
  fromBytes _ := .ok ⟨[[1]], ⟨11⟩⟩
  systemObject := ⟨[⟨0, [1], List.replicate Crypto.blsPublicKeyLength 0⟩]⟩

def env : SafetyEnv where
  node :=
    { codec := KBFT.Solo.codec
      prims := KBFT.Solo.prims
      sargaAccountID := nilIdentifier
      hasAccMetaInfoAt := fun _ _ => false
      getPublicKeys := fun _ => .ok []
      isAccountRegistered := fun _ => (true, none)
      isAccountRegisteredAt := fun _ _ => (true, none)
      getTesseract := fun _ => .error (.new "no tesseract")
      signatureVerifier := Crypto.verifyAggregateSignature KBFT.Solo.prims }
  codec := tableCodec table
  fetchICSCommittee ts info := do getICSCommittee committeeEnv (storeOf []) ts (← Go.deref info)

/-- Nothing fails; both accounts are at height 1, and the peer has the tesseract. -/
def answers : Answers where
  readSafety _ := none
  writeSafety _ := none
  readProposal _ := none
  writeProposal _ := none
  getAccountMetaInfo id := .ok ⟨id, 1, nilHash, nilHash, nilHash, nilIdentifier⟩
  getCommitInfo _ := .error (.new "no commit info")
  getTesseract _ := .error (.new "no tesseract")
  lockedTS _ := none
  rpcGetLockedTesseract _ _ := .ok (some tesseract)

/-- View 1 is stored for the first account, and the entry `n` of the table for the second. -/
def db (n : UInt8) : SafetyDB where
  safetyData := ((∅ : GoMap Identifier Bytes).insert first [0]).insert second [n]
  proposalInfo := ∅

/-- The peer reports the certificate of view 3 for the first account. -/
def event : Event :=
  .peer first (some ⟨first, 1, nilHash, nilHash, nilHash, nilIdentifier⟩) [1] true
  (some (qcAt 3))

/-- In the store with view 2 for the second account, the certificate of view 3 is covering. -/
theorem covered : Covered env.codec (db 1) answers event := by
  rintro q _ hq _ - id _ _ _ v hv
  cases hq
  by_cases hsecond : id = second
  · subst hsecond
    obtain rfl : v = 2 := Option.mem_unique hv (by decide +kernel)
    decide
  by_cases hfirst : id = first
  · subst hfirst
    obtain rfl : v = 1 := Option.mem_unique hv (by decide +kernel)
    decide
  · rw [lastViewOf, db, AList.lookup_insert_ne hsecond, AList.lookup_insert_ne hfirst,
      AList.lookup_empty] at hv
    cases hv

end Pair

open Pair

/-- The certificate of view 3 raises both accounts, from the views 1 and 2. -/
theorem peer_qc_raises_lastView :
    ∃ s', Run (Guarded (fun s e => Covered env.codec s e.1 e.2) (Step env)) (db 1)
        [(answers, event)] s' ∧
      lastViewOf env.codec s' first = some 3 ∧
      lastViewOf env.codec s' second = some 3 ∧ NeverLower env.codec (db 1) s' := by
  have hrun : Run (Guarded (fun s e => Covered env.codec s e.1 e.2) (Step env))
      (db 1) [(answers, event)] (call env answers event (db 1)).2 :=
    .snoc .start _ ⟨covered, _, rfl⟩
  exact ⟨_, hrun, by decide +kernel, by decide +kernel,
    lastView_run (tableCodec_lawful (by decide)) hrun⟩

/-- **A certificate from a peer lowers the last view of an account**: it is newer for the account
    the peer reports on, which is at view 1, and is entered for the other account too, which is at
    5. -/
theorem peer_qc_lowers_lastView :
    ∃ s' es, validateQcAndUpdateSafety env (fun _ => answers)
        ⟨first, [some (qcAt 3)]⟩ [1] true (db 3) = (.ok none, s') ∧
      Run (Step env) (db 3) es s' ∧
      lastViewOf env.codec (db 3) second = some 5 ∧
      lastViewOf env.codec s' second = some 3 ∧ ¬ NeverLower env.codec (db 3) s' := by
  have hcall : validateQcAndUpdateSafety env (fun _ => answers)
      ⟨first, [some (qcAt 3)]⟩ [1] true (db 3) =
        (.ok none, (validateQcAndUpdateSafety env (fun _ => answers)
          ⟨first, [some (qcAt 3)]⟩ [1] true (db 3)).2) :=
    Prod.ext (by decide +kernel) rfl
  obtain ⟨es, hes⟩ := validateQcAndUpdateSafety_run hcall
  have hbefore : lastViewOf env.codec (db 3) second = some 5 := by decide +kernel
  have hafter : lastViewOf env.codec (validateQcAndUpdateSafety env (fun _ => answers)
      ⟨first, [some (qcAt 3)]⟩ [1] true (db 3)).2 second = some 3 := by
    decide +kernel
  refine ⟨_, es, hcall, hes, hbefore, hafter, fun hnever => ?_⟩
  obtain ⟨v, hv, hle⟩ := hnever _ _ hbefore
  cases hv
  exact absurd hle (by decide)

end ConsensusSafety

end GoMoi
