/-
  File:      GoMoi/Ixpool/Operations.lean
  Subject:   What the pool checks of an interaction before it takes it (`validateIx` in
             `ixpool/ixpool.go`, the `Validate` methods in `common/ixpayload.go`).

  Every type of operation has rules for its payload, and `validateOperations` is a loop over the
  operations. But every case of its `switch` returns, the one that finds nothing wrong as well, so
  the loop ends in its first round and the other operations are not looked at.

  An error of `GetBalance` is dropped, and what comes with it is used: zero if there is no state,
  but nil if the state has no balance of the fuel token. The verifier is `Verify` of
  `crypto/vault.go`, which adds to the length byte of a signature in a byte.

  * **`operationsValid_iff`** -- all operations of an accepted interaction follow their rules if
    those after the first do;
  * **`validateIx_returns_iff`** -- the check returns unless it comes to a nil balance, or to a
    signature with such a length.

  `KramaID.Validate` (`common/identifiers/krama.go`) decodes a peer identifier of libp2p and is a
  parameter.
-/
import GoMoi.Common.LeaderCandidate
import GoMoi.Crypto.Vault
import GoMoi.Ixpool.Signatures
import GoMoi.State.Fuel

namespace GoMoi

/-! ## 1. The rules of the payloads -/

/-- `Validate` of `ParticipantID`, `AssetID` and `LogicID`: the tag is of the kind and of version 0,
    and no flag of the mask is set. -/
def Identifier.isValid (id : Identifier) (kind : Nat) (flagMask : BitVec 8) : Bool :=
  decide (id.kind = kind) && decide (id.bits.extractLsb' 248 4 = 0) &&
    decide (id.bits.extractLsb' 240 8 &&& flagMask = 0)

def Identifier.isParticipantID (id : Identifier) : Bool := id.isValid kindParticipant 0b01111111

def Identifier.isAssetID (id : Identifier) : Bool := id.isValid kindAsset 0b01111100

def Identifier.isLogicID (id : Identifier) : Bool := id.isValid kindLogic 0b01111000

/-- `MASX`. -/
def masX : UInt16 := 0xffff

/-- `ValidAssetStandards`. -/
def validAssetStandards : List UInt16 := [0, 1, 2, masX]

/-- `AssetCreatePayload.Validate`. -/
def AssetCreatePayload.validate (ac : AssetCreatePayload) : Option Err :=
  if ac.symbol = [] then some (.sentinel .errInvalidAssetSymbol)
  else if ac.standard ∉ validAssetStandards then some (.sentinel .errInvalidAssetStandard)
  else if ac.standard = masX then
    match ac.logic with
    | none => some (.sentinel .errInvalidLogicPayload)
    | some logic => if logic.manifest.length = 0 then some (.sentinel .errEmptyManifest) else none
  else none

/-- `ParticipantCreatePayload.Weight`: the sum wraps. -/
def ParticipantCreatePayload.weight (register : ParticipantCreatePayload) : UInt64 :=
  register.keysPayload.foldl (fun weight key => weight + key.weight) 0

/-- `ParticipantCreatePayload.Validate`. -/
def ParticipantCreatePayload.validate (register : ParticipantCreatePayload)
    (kmoiTokenAssetID : AssetID) (senderID : Identifier) : Option Err :=
  if register.id = nilIdentifier ∨ !register.id.isParticipantID ∨ senderID = register.id then
    some (.sentinel .errInvalidIdentifier)
  else match register.value with
    | none => some (.sentinel .errInvalidValue)
    | some value =>
      if value.assetID ≠ kmoiTokenAssetID then some (.sentinel .errInvalidAssetID)
      else if value.callsite.length = 0 then some (.sentinel .errInvalidValue)
      else if register.weight < minWeight then some (.sentinel .errInvalidWeight)
      else if register.keysPayload.any (·.signatureAlgorithm ≠ 0) then
        some (.sentinel .errInvalidSignatureAlgorithm)
      else none

/-- `AccountConfigurePayload.Validate`. -/
def AccountConfigurePayload.validate (configure : AccountConfigurePayload) : Option Err :=
  if (configure.add.length > 0 ∧ configure.revoke.length > 0) ∨
      (configure.add.length = 0 ∧ configure.revoke.length = 0) then
    some (.sentinel .errInvalidAccountConfigure)
  else if configure.add.any (·.signatureAlgorithm > 0) then
    some (.sentinel .errInvalidSignatureAlgorithm)
  else none

/-- `AccountInheritPayload.Validate`. -/
def AccountInheritPayload.validate (inherit : AccountInheritPayload)
    (kmoiTokenAssetID : AssetID) (senderID : Identifier) : Option Err :=
  if senderID.isParticipantVariant then some (.sentinel .errSenderAccount)
  else if inherit.targetAccount = nilIdentifier then some (.sentinel .errInvalidIdentifier)
  else if inherit.targetAccount.kind ≠ kindLogic then some (.sentinel .errInvalidTargetAccount)
  else match inherit.value with
    | none => some (.sentinel .errInvalidValue)
    | some value =>
      if value.assetID ≠ kmoiTokenAssetID then some (.sentinel .errInvalidAssetID)
      else if value.callsite.length = 0 then some (.sentinel .errInvalidCallSite)
      else none

/-- `AssetActionPayload.Validate`. -/
def AssetActionPayload.validate (action : AssetActionPayload) : Option Err :=
  if !action.assetID.isAssetID then some (.sentinel .errInvalidAssetID)
  else if action.callsite = [] then some (.sentinel .errInvalidCallSite)
  else none

/-- `register.Amount == nil || register.Amount.Sign() <= 0`. -/
def checkAmount (amount : Option Int) : Option Err :=
  if amount.all (· ≤ 0) then some (.sentinel .errInvalidValue) else none

/-- `LogicPayload.ValidateLogicDeploy`. -/
def LogicPayload.validateLogicDeploy (payload : LogicPayload) : Option Err :=
  if payload.manifest.length = 0 then some (.sentinel .errEmptyManifest) else none

/-- `LogicPayload.ValidateLogicInteract`. -/
def LogicPayload.validateLogicInteract (payload : LogicPayload) : Option Err :=
  if payload.callsite.length = 0 then some (.sentinel .errInvalidCallSite)
  else if payload.logicID = nilIdentifier then some (.sentinel .errMissingLogicID)
  else if !payload.logicID.isLogicID then some (.sentinel .errInvalidLogicID)
  else none

/-! ## 2. The pool -/

/-- What the pool asks: its configuration and the latest state. Where the pool drops an error, what
    it goes on with; a balance may be nil. -/
structure PoolEnv extends SigEnv where
  kmoiTokenAssetID : AssetID
  priceLimit : Int
  getSequenceID : Identifier → UInt64 → UInt64
  getBalance : Identifier → AssetID → Option Int
  isAccountRegistered : Identifier → Except Err Bool
  isLogicRegistered : LogicID → Option Err
  kramaIDValidate : KramaID → Option Err

namespace PoolEnv

variable (env : PoolEnv)

/-- `GuardianRegisterPayload.Validate`. -/
def validateGuardianRegister (register : GuardianRegisterPayload) : Option Err :=
  if env.kramaIDValidate register.kramaID ≠ none then some (.sentinel .errInvalidKramaID)
  else if register.walletID = nilIdentifier then some (.sentinel .errInvalidIdentifier)
  else if register.consensusKey = none then some (.new "invalid consensus key")
  else if register.kycProof = none then some (.new "invalid kyc proof")
  else checkAmount register.amount

/-- `GuardianActionPayload.Validate`. -/
def validateGuardianAction (action : GuardianActionPayload) : Option Err :=
  if env.kramaIDValidate action.kramaID ≠ none then some (.sentinel .errInvalidKramaID)
  else checkAmount action.amount

/-- `validateLogicInteractPayload`. -/
def validateLogicInteract (payload : LogicPayload) : Option Err :=
  payload.validateLogicInteract.or (env.isLogicRegistered payload.logicID)

/-- One round of the loop of `validateOperations`: the rules for the type of the operation. A
    payload of another type is not found, but of the three payloads of participants the one for
    creation is read without a check. -/
def validateOperation (ix : Interaction) (op : IxOp) : Go (Option Err) :=
  let notFound : Go (Option Err) := .ok (some (.new "payload not found"))
  if op.type = ixParticipantCreate then
    match op.payload with
    | .participantCreate p => .ok (p.validate env.kmoiTokenAssetID ix.senderID)
    | .accountConfigure _ | .accountInherit _ => .error .nilDeref
    | _ => notFound
  else if op.type = ixAccountConfigure then
    match op.payload with
    | .accountConfigure p => .ok p.validate
    | _ => notFound
  else if op.type = ixAccountInherit then
    match op.payload with
    | .accountInherit p => .ok (p.validate env.kmoiTokenAssetID ix.senderID)
    | _ => notFound
  else if op.type = ixAssetAction then
    match op.payload with
    | .assetAction p => .ok p.validate
    | _ => notFound
  else if op.type = ixAssetCreate then
    match op.payload with
    | .assetCreate p => .ok p.validate
    | _ => notFound
  else if op.type = ixGuardianRegister then
    match op.payload with
    | .guardianRegister p => .ok (env.validateGuardianRegister p)
    | _ => notFound
  else if op.type = ixGuardianStake ∨ op.type = ixGuardianUnstake ∨ op.type = ixGuardianWithdraw ∨
      op.type = ixGuardianClaim then
    match op.payload with
    | .guardianAction p => .ok (env.validateGuardianAction p)
    | _ => notFound
  else if op.type = ixLogicDeploy then
    match op.payload with
    | .logic p => .ok p.validateLogicDeploy
    | _ => notFound
  else if op.type = ixLogicInvoke ∨ op.type = ixLogicEnlist then
    match op.payload with
    | .logic p => .ok (env.validateLogicInteract p)
    | _ => notFound
  else .ok (some (.sentinel .errInvalidInteractionType))

/-- `validateOperations`. Every case of the `switch` returns, so there is no second round. -/
def validateOperations (ix : Interaction) : Go (Option Err) :=
  match ix.ops with
  | [] => .ok none
  | op :: _ => env.validateOperation ix op

/-- `checkForParticipants`, in the order of one iteration over the map. -/
def checkForParticipants (ix : Interaction) : Option Err :=
  ix.ps.entries.findSome? fun ps =>
    if ps.2.isGenesis then none
    else if ps.1 = nilIdentifier then some (.sentinel .errInvalidIdentifier)
    else match env.isAccountRegistered ps.1 with
      | .ok true => none
      | _ => some (.sentinel .errAccountNotFound)

/-- `IxMaxSize`. -/
def ixMaxSize : Nat := 128 * 1024

/-- `validateIx`. -/
def validateIx (ix : Interaction) : Go (Option Err) :=
  if ix.size > ixMaxSize then .ok (some (.sentinel .errOversizedData))
  else if ix.senderID = nilIdentifier then .ok (some (.sentinel .errInvalidIdentifier))
  else if ix.fuelPrice ≠ env.priceLimit then .ok (some (.sentinel .errUnderpriced))
  else if env.getSequenceID ix.senderID ix.senderKeyID > ix.inner.sender.sequenceID then
    .ok (some (.sentinel .errSequenceIDTooLow))
  else match env.getBalance ix.senderID env.kmoiTokenAssetID with
    | none => .error .nilDeref
    | some moiBal =>
      if moiBal < ix.cost then .ok (some (.sentinel .errInsufficientFunds))
      else do
        match ← env.verifySignatures ix with
        | some err => .ok (some err)
        | none => match env.checkForParticipants ix with
          | some err => .ok (some err)
          | none => env.validateOperations ix

/-! ## 3. What acceptance says about the operations -/

variable {env} {ix : Interaction}

theorem validateOperations_of_accepted (h : env.validateIx ix = .ok none) :
    env.validateOperations ix = .ok none := by
  unfold validateIx at h
  repeat' split at h
  all_goals try cases h
  all_goals
    obtain ⟨r, -, h⟩ := Go.bind_eq_ok.mp h
    cases r with
    | none =>
      first
      | exact h
      | cases h
    | some err => cases h

/-- **The operations of an accepted interaction** all follow their rules exactly if those after the
    first do. -/
theorem operationsValid_iff (h : env.validateIx ix = .ok none) :
    (∀ op ∈ ix.ops, env.validateOperation ix op = .ok none) ↔
      ∀ op ∈ ix.ops.tail, env.validateOperation ix op = .ok none := by
  have hops := validateOperations_of_accepted h
  unfold validateOperations at hops
  rcases hlist : ix.ops with _ | ⟨_, _⟩
  · simp
  rw [hlist] at hops
  rw [List.forall_mem_cons, List.tail_cons]
  exact and_iff_right hops

end PoolEnv

namespace OperationSample

open SignatureSample

/-- A pool that knows every account. -/
def pool : PoolEnv where
  toSigEnv := env
  kmoiTokenAssetID := ⟨0⟩
  priceLimit := 0
  getSequenceID _ _ := 0
  getBalance _ _ := some 0
  isAccountRegistered _ := .ok true
  isLogicRegistered _ := none
  kramaIDValidate _ := none

def addKey : IxOp :=
  ⟨nilIdentifier, ixAccountConfigure, .accountConfigure { add := [⟨[9], 500, 0⟩], revoke := [] }⟩

/-- A logic without a manifest. -/
def deployNothing : IxOp :=
  ⟨⟨2⟩, ixLogicDeploy, .logic ⟨[], nilIdentifier, [], [], []⟩⟩

def submitted (ops : List IxOp) : Interaction := { ix both with ops := ops }

theorem submitted_twice_valid :
    pool.validateIx (submitted [addKey, addKey]) = .ok none ∧
      ∀ op ∈ [addKey, addKey], pool.validateOperation (submitted [addKey, addKey]) op =
        .ok none := by
  have hacc : pool.validateIx (submitted [addKey, addKey]) = .ok none := by decide
  exact ⟨hacc, (PoolEnv.operationsValid_iff hacc).mpr (by decide)⟩

/-- The pool takes the second operation with the first, though alone it is refused. -/
theorem deployNothing_accepted :
    pool.validateIx (submitted [addKey, deployNothing]) = .ok none ∧
      pool.validateOperation (submitted [addKey, deployNothing]) deployNothing =
        .ok (some (.sentinel .errEmptyManifest)) := by
  decide

end OperationSample

/-! ## 4. Whether the check returns -/

/-- An interaction that `NewInteraction` has made. -/
structure DecodedIx (E : IxEnv) extends Interaction where
  order : List Identifier
  made : newInteraction E order inner signatures = .ok (.ok toInteraction)

section

variable {E : IxEnv}

theorem DecodedIx.read (ix : DecodedIx E) :
    ∃ ps ps', E.readOps ix.inner.sender ps ix.inner.ixOps = .ok (ix.ops, ps') := by
  have h := ix.made
  unfold newInteraction at h
  dsimp only at h
  repeat' split at h
  all_goals try cases h
  next hread _ _ _ =>
    obtain ⟨r, -, h⟩ := Go.bind_eq_ok.mp h
    rcases r with e | _
    · cases h
    have hix := Except.ok.inj (Except.ok.inj h)
    exact ⟨_, _, hread.trans (congrArg (fun ix : Interaction => Except.ok (ix.ops, _)) hix)⟩

theorem readOp_participantCreate {sender : Sender} {ps ps' : ParticipantInfos} {raw : IxOpRaw}
    {op : IxOp} (h : E.readOp sender ps raw = .ok (op, ps'))
      (htype : op.type = ixParticipantCreate) :
    ∃ p, op.payload = .participantCreate p := by
  unfold IxEnv.readOp at h
  simp only [bind, Except.bind, pure, Except.pure, throw, throwThe, MonadExceptOf.throw] at h
  repeat' split at h
  all_goals cases h
  all_goals first
    | exact ⟨_, rfl⟩
    | contradiction

namespace PoolEnv

open Object

/-- `StateManager.GetBalance` of the latest state, as the pool takes it: nil if `BalanceOf`
    fails. -/
def latestBalance (B : Backend) (latest : Identifier → Except Err Receiver) (id : Identifier)
    (assetID : AssetID) : Option Int :=
  match latest id with
  | .error _ => some 0
  | .ok so => match (balanceOf B assetID defaultTokenID so).1 with
    | .ok r => r.toOption
    | .error _ => none

/-- The checks before that of the balance pass. -/
def ReachesBalance (env : PoolEnv) (ix : Interaction) : Prop :=
  ix.size ≤ ixMaxSize ∧ ix.senderID ≠ nilIdentifier ∧ ix.fuelPrice = env.priceLimit ∧
    env.getSequenceID ix.senderID ix.senderKeyID ≤ ix.inner.sender.sequenceID

theorem validateOperations_returns (env : PoolEnv) (ix : DecodedIx E) :
    ∃ r, env.validateOperations ix.toInteraction = .ok r := by
  obtain ⟨_, _, hread⟩ := ix.read
  unfold validateOperations
  rcases hraw : ix.inner.ixOps with _ | ⟨_, _⟩
  · rw [hraw] at hread
    rw [← (Prod.mk.inj (Except.ok.inj hread)).1]
    exact ⟨_, rfl⟩
  rw [hraw] at hread
  obtain ⟨⟨_, _⟩, hop, hread⟩ := Go.bind_eq_ok.mp hread
  obtain ⟨⟨_, _⟩, -, hread⟩ := Go.bind_eq_ok.mp hread
  rw [← (Prod.mk.inj (Except.ok.inj hread)).1]
  have hpayload := readOp_participantCreate hop
  simp only [validateOperation]
  split
  next htype =>
    obtain ⟨p, hp⟩ := hpayload htype
    rw [hp]
    exact ⟨_, rfl⟩
  next =>
    repeat' split
    all_goals exact ⟨_, rfl⟩

theorem validateIx_returns (env : PoolEnv) (ix : DecodedIx E) :
    (∃ r, env.validateIx ix.toInteraction = .ok r) ↔ (env.ReachesBalance ix.toInteraction →
      ∃ moiBal, env.getBalance ix.senderID env.kmoiTokenAssetID = some moiBal ∧
        (ix.cost ≤ moiBal → ∃ r, env.verifySignatures ix.toInteraction = .ok r)) := by
  have hops := env.validateOperations_returns ix
  unfold validateIx ReachesBalance
  split_ifs with h1 h2 h3 h4
  iterate 4 simp [*]
  rcases env.getBalance ix.senderID env.kmoiTokenAssetID with _ | moiBal
  · simp [*]
  by_cases hcost : moiBal < ix.cost
  · refine iff_of_true ?_ fun _ => ⟨moiBal, rfl, fun h => absurd hcost (not_lt.mpr h)⟩
    simp only [if_pos hcost]
    exact ⟨_, rfl⟩
  simp only [if_neg hcost]
  rcases env.verifySignatures ix.toInteraction with p | _ | err
  · simp [*, bind, Except.bind]
  · refine iff_of_true ?_ fun _ => ⟨moiBal, rfl, fun _ => ⟨_, rfl⟩⟩
    show ∃ r, (match env.checkForParticipants ix.toInteraction with
      | some err => .ok (some err)
      | none => env.validateOperations ix.toInteraction : Go (Option Err)) = .ok r
    split
    · exact ⟨_, rfl⟩
    · exact hops
  · exact iff_of_true ⟨_, rfl⟩ fun _ => ⟨moiBal, rfl, fun _ => ⟨_, rfl⟩⟩

end PoolEnv

namespace SigEnv

/-- The length byte of the signature, with two added to it, is below two. -/
def Overlong : Bytes → Prop
  | _ :: n :: rest => n.toNat ≤ rest.length ∧ 254 ≤ n.toNat
  | _ => False

theorem unmarshalSignature_returns (s : Bytes) :
    (∃ r, Crypto.unmarshalSignature s = .ok r) ↔ ¬ Overlong s := by
  rcases s with _ | ⟨a, _ | ⟨n, rest⟩⟩
  · exact iff_of_true ⟨_, rfl⟩ id
  · exact iff_of_true ⟨_, rfl⟩ id
  have hwraps : (n + 2).toNat < 2 ↔ 254 ≤ n.toNat := by
    have := n.toNat_lt
    rw [UInt8.toNat_add]
    show (n.toNat + 2) % 2 ^ 8 < 2 ↔ _
    omega
  simp only [Crypto.unmarshalSignature, Overlong, hwraps]
  by_cases hshort : rest.length < n.toNat
  · rw [if_pos hshort]
    exact iff_of_true ⟨_, rfl⟩ fun h => absurd hshort (not_lt.mpr h.1)
  rw [if_neg hshort]
  by_cases hlong : 254 ≤ n.toNat
  · rw [if_pos hlong]
    exact iff_of_false (Go.not_ok _) fun h => h ⟨not_lt.mp hshort, hlong⟩
  · rw [if_neg hlong]
    exact iff_of_true ⟨_, rfl⟩ fun h => hlong h.2

theorem verify_returns (P : Primitives) (raw s key : Bytes) :
    (∃ r, Crypto.verify P raw s key = .ok r) ↔ ¬ Overlong s := by
  rw [← unmarshalSignature_returns, Crypto.verify]
  rcases Crypto.unmarshalSignature s with p | e | sig
  · exact iff_of_false (Go.not_ok p) (Go.not_ok p)
  · exact iff_of_true ⟨_, rfl⟩ ⟨_, rfl⟩
  refine iff_of_true ?_ ⟨_, rfl⟩
  simp only [bind, Except.bind]
  repeat' split
  all_goals exact ⟨_, rfl⟩

variable (env : SigEnv) (raw : Bytes)

/-- Of the signatures of an account, none is overlong up to the first that does not verify. -/
def Sized (keys : AccountKeys) (id : Identifier) : List IxSignature → Prop
  | [] => True
  | sig :: sigs =>
    if sig.id ≠ id then Sized keys id sigs
    else sig.keyID.toNat < keys.length →
      ¬ Overlong sig.signature ∧ (env.Verified raw keys sig → Sized keys id sigs)

/-- Nor of those of the accounts that have to sign, up to the first that has not. -/
def SizedAll (sigs : List IxSignature) : List Identifier → Prop
  | [] => True
  | id :: ids => (∀ keys, env.accountKeys id = .ok keys → env.Sized raw keys id sigs) ∧
    (env.verifyParticipantSignatures id raw sigs = .ok none → SizedAll sigs ids)

variable {env raw} {P : Primitives} (hP : env.verifier = Crypto.verify P) {sigs : List IxSignature}
include hP

theorem weighSignatures_returns {keys : AccountKeys} {id : Identifier}
    (hkeys : env.accountKeys id = .ok keys) (w : UInt64) :
    (∃ r, env.weighSignatures id raw keys sigs w = .ok r) ↔ env.Sized raw keys id sigs := by
  induction sigs generalizing w with
  | nil => exact iff_of_true ⟨_, rfl⟩ trivial
  | cons sig sigs ih =>
    unfold weighSignatures Sized
    by_cases hid : sig.id = id
    swap
    · rw [if_pos hid, if_pos hid]
      exact ih w
    rw [if_neg (not_not.mpr hid), if_neg (not_not.mpr hid)]
    rcases hk : keys[sig.keyID.toNat]? with _ | key
    · have hge := List.getElem?_eq_none_iff.mp hk
      exact iff_of_true ⟨_, rfl⟩ fun h => absurd h (not_lt.mpr hge)
    have hlt := (List.getElem?_eq_some_iff.mp hk).1
    have hpk : env.getPublicKey id sig.keyID = .ok key.publicKey := by
      simp [getPublicKey, hkeys, hk]
    have hver : env.Verified raw keys sig ↔
        Crypto.verify P raw sig.signature key.publicKey = .ok (true, none) := by
      rw [Verified, hk, hP]
      simp
    simp only [hpk, hP, hlt, true_implies, hver, ← verify_returns P raw sig.signature key.publicKey]
    rcases Crypto.verify P raw sig.signature key.publicKey with p | r
    · exact iff_of_false (Go.not_ok p) fun h => Go.not_ok p h.1
    by_cases hr : r = (true, none)
    · subst hr
      simpa [bind, Except.bind] using ih _
    · simp [bind, Except.bind, hr, pure, Except.pure]

theorem verifyParticipantSignatures_returns (id : Identifier) :
    (∃ r, env.verifyParticipantSignatures id raw sigs = .ok r) ↔
      ∀ keys, env.accountKeys id = .ok keys → env.Sized raw keys id sigs := by
  unfold verifyParticipantSignatures
  rcases hkeys : env.accountKeys id with err | keys
  · exact iff_of_true ⟨_, rfl⟩ (by simp)
  simp only [Except.ok.injEq, forall_eq', ← weighSignatures_returns hP hkeys 0]
  rcases env.weighSignatures id raw keys sigs 0 with p | err | w
  · exact iff_of_false (Go.not_ok p) (Go.not_ok p)
  · exact iff_of_true ⟨_, rfl⟩ ⟨_, rfl⟩
  · exact iff_of_true ⟨_, rfl⟩ ⟨_, rfl⟩

theorem verifyNotaries_returns (participants : List IxParticipant) :
    (∃ r, env.verifyNotaries raw sigs participants = .ok r) ↔
      env.SizedAll raw sigs ((participants.filter IxParticipant.notary).map IxParticipant.id) := by
  induction participants with
  | nil => exact iff_of_true ⟨_, rfl⟩ trivial
  | cons ps participants ih =>
    unfold verifyNotaries
    rcases hn : ps.notary with _ | _
    · simpa [hn] using ih
    rw [if_pos rfl, List.filter_cons_of_pos hn, List.map_cons, SizedAll, ← ih,
      ← verifyParticipantSignatures_returns hP]
    rcases env.verifyParticipantSignatures ps.id raw sigs with p | _ | err
    · exact iff_of_false (Go.not_ok p) fun h => Go.not_ok p h.1
    · simp [bind, Except.bind]
    · exact iff_of_true ⟨_, rfl⟩ ⟨⟨_, rfl⟩, by simp⟩

/-- **The check of the signatures returns** unless it comes to one that is overlong. -/
theorem verifySignatures_returns (ix : Interaction) :
    (∃ r, env.verifySignatures ix = .ok r) ↔ ∀ raw, env.payloadForSignature ix.inner = .ok raw →
      ix.hasSenderKeyIDSignature → env.SizedAll raw ix.signatures ix.signers := by
  unfold verifySignatures
  rcases hraw : env.payloadForSignature ix.inner with err | raw
  · exact iff_of_true ⟨_, rfl⟩ (by simp)
  simp only [Except.ok.injEq, forall_eq']
  rcases ix.hasSenderKeyIDSignature with _ | _
  · exact iff_of_true ⟨_, rfl⟩ (by simp)
  rw [Interaction.signers, SizedAll, ← verifyNotaries_returns hP,
    ← verifyParticipantSignatures_returns hP]
  rcases env.verifyParticipantSignatures ix.senderID raw ix.signatures with p | _ | err
  · exact iff_of_false (Go.not_ok p) fun h => Go.not_ok p (h rfl).1
  · simp [bind, Except.bind]
  · exact iff_of_true ⟨_, rfl⟩ fun _ => ⟨⟨_, rfl⟩, by simp⟩

end SigEnv

namespace PoolEnv

open Object

variable (B : Backend) (latest : Identifier → Except Err Receiver)

theorem latestBalance_ne_none (id : Identifier) (assetID : AssetID) :
    latestBalance B latest id assetID ≠ none ↔ ∀ so, latest id = .ok so →
      committedBalance B so.object assetID defaultTokenID ≠ none := by
  unfold latestBalance
  rcases latest id with e | so
  · simp
  have hspec : Proc.wp (balanceOf B assetID defaultTokenID) _ _ so := balanceOf_spec
  unfold Proc.wp at hspec
  split at hspec
  next r s' hbal => simp [hbal, hspec.2]
  next => exact hspec.elim

/-- **The pool's check of an interaction returns** exactly if, unless it stops before the balance,
    the sender has no state or its committed state has a balance of the fuel token, and, if the
    balance covers the cost, no signature that it comes to is overlong. -/
theorem validateIx_returns_iff (P : Primitives) (env : PoolEnv) (ix : DecodedIx E) :
    let pool := { env with getBalance := latestBalance B latest, verifier := Crypto.verify P }
    (∃ r, pool.validateIx ix.toInteraction = .ok r) ↔
      (env.ReachesBalance ix.toInteraction →
        (∀ so, latest ix.senderID = .ok so →
          committedBalance B so.object env.kmoiTokenAssetID defaultTokenID ≠ none) ∧
        ∀ moiBal raw, latestBalance B latest ix.senderID env.kmoiTokenAssetID = some moiBal →
          ix.cost ≤ moiBal → env.payloadForSignature ix.inner = .ok raw →
            ix.hasSenderKeyIDSignature → pool.SizedAll raw ix.signatures ix.signers) := by
  intro pool
  have hverifier : pool.toSigEnv.verifier = Crypto.verify P := rfl
  have hsigs := SigEnv.verifySignatures_returns hverifier ix.toInteraction
  rw [validateIx_returns, ← latestBalance_ne_none, hsigs]
  refine imp_congr_right fun _ => ?_
  show (∃ moiBal, latestBalance B latest ix.senderID env.kmoiTokenAssetID = some moiBal ∧ _) ↔ _
  rcases latestBalance B latest ix.senderID env.kmoiTokenAssetID with _ | moiBal
  · simp
  · simp only [Option.some.injEq, exists_eq_left', ne_eq, reduceCtorEq, not_false_eq_true, true_and]
    exact ⟨fun h m raw hm hc => h (hm ▸ hc) raw, fun h hc raw => h moiBal raw rfl hc⟩

end PoolEnv

end

namespace OperationSample

open SignatureSample

/-- Of every account, a state without the fuel token. -/
def latest (_ : Identifier) : Except Err Receiver := .ok ⟨SnapshotSample.object, .empty⟩

/-- An interaction that follows the rules, from an account without the fuel token: the balance is
    nil, and the check dereferences it. -/
theorem no_fuel_token_panics :
    let sarga := namedAccounts.sargaAccountID
    let ixData : IxData := { (ix both).inner with
      participants := [⟨account, mutateLock, false⟩, ⟨sarga, mutateLock, false⟩] }
    ∃ ix, newInteraction bareIxEnv [sarga, account] ixData both = .ok (.ok ix) ∧
      { pool with
        getBalance := PoolEnv.latestBalance SnapshotSample.backend latest }.validateIx ix =
          .error .nilDeref :=
  ⟨_, rfl, rfl⟩

end OperationSample

end GoMoi
