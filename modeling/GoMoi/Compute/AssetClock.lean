/-
  File:      GoMoi/Compute/AssetClock.lean
  Subject:   Which calls of the asset engine depend on the clock of the node.

  Two replicas execute the same call at different times. The time is read once, in
  `validateAssetConsume`, and compared with the expiry of a mandate; the time of the tesseract,
  which is the same for both, is not looked at.

  * `EngineOp.checkedExpiry` -- the expiry that a call compares with the time: that of the mandate
    of a transfer by mandate which has passed the checks before;
  * `clock_free_iff` -- the two replicas get the same result, error and memory exactly if their
    times lie on the same side of it;
  * a mandate that one replica finds valid and the other one expired.
-/
import GoMoi.Compute.AssetEngine

namespace GoMoi

open Engine Proc EngineOp

/-! ## 1. The expiry that is checked -/

/-- The expiry a call compares with the time, if it gets there. -/
def EngineOp.checkedExpiry (X : EngineEnv) (t : Transition) (m : Memory) : EngineOp → Option UInt64
  | .transfer assetID tokenID operatorID benefactorID beneficiaryID value access =>
    match t.objects.lookup operatorID, t.objects.lookup beneficiaryID, sargaObject X t,
      t.objects.lookup benefactorID with
    | some _, some beneficiary, .ok sarga, some benefactor =>
      if benefactorID = nilIdentifier then none
      else
        match (findMandate X operatorID beneficiary benefactor sarga assetID tokenID value access
            (newAmount value m).2).1 with
        | .ok (.ok mandate) => some mandate.expiresAt
        | _ => none
    | _, _, _, _ => none
  | _ => none

/-! ## 2. After the comparison -/

section

variable (X : EngineEnv) {operatorID : Identifier} {beneficiary benefactor sarga : Ptr Object}
  {assetID : AssetID} {tokenID : TokenID} {value : Int} {access : Access}

/-- The rest of a transfer whose mandate has not expired. -/
def unexpired (mandate : AmountWithExpiry (Ptr Int)) (value : Int) (k : Engine Outcome) :
    Engine Outcome := do
  if (← amount mandate.amount) < value then
    return (fuelAsset, some (.sentinel .errInsufficientFunds))
  else k

omit X in
/-- A check that begins with a call. -/
theorem checked_bind {A : Type} (x : Engine A) (f : A → Engine (Option Err)) (k : Engine Outcome)
    (m : Memory) : checked fuelAsset (x >>= f) k m =
      (x >>= fun a => checked fuelAsset (f a) k) m := by
  simp only [checked, bind]
  cases x m with
  | mk r m' => cases r <;> rfl

/-- The check, taken apart at the comparison. -/
theorem checked_consume (now : UInt64) (k : Engine Outcome) (m : Memory) :
    checked fuelAsset (validateAssetConsume X now operatorID beneficiary benefactor sarga assetID
        tokenID value access) k m
      = match findMandate X operatorID beneficiary benefactor sarga assetID tokenID value
        access m with
        | (.ok (.ok mandate), m') =>
          if mandate.expiresAt < now then
            (.ok (fuelAsset, some (.sentinel .errMandateExpired)), m')
          else unexpired mandate value k m'
        | (.ok (.error err), m') => (.ok (fuelAsset, some err), m')
        | (.error p, m') => (.error p, m') := by
  unfold validateAssetConsume
  rw [checked_bind]
  cases hf : findMandate X operatorID beneficiary benefactor sarga assetID tokenID value
    access m with
  | mk r m' =>
    rcases r with p | found
    · exact bind_of_error hf
    refine (bind_of_ok hf).trans ?_
    rcases found with _ | mandate
    · rfl
    simp only
    by_cases he : mandate.expiresAt < now
    · rw [if_pos he, if_pos he]
      rfl
    rw [if_neg he, if_neg he, checked_bind]
    refine congrArg (fun f => (amount mandate.amount >>= f) m') (funext fun n => ?_)
    by_cases hn : n < value
    · rw [if_pos hn, if_pos hn]
      rfl
    · rw [if_neg hn, if_neg hn]
      rfl

end

/-- An error that is not the expiry of a mandate. -/
def NotExpired (err : Option Err) : Prop := err ≠ some (.sentinel .errMandateExpired)

theorem call_returns {A : Type} {P : A → Prop} {p : Ptr Object} {x : Method A}
    (h : Proc.Returns P x) : Proc.Returns P (Memory.call p x) := by
  intro m a m' ha
  unfold Memory.call at ha
  rcases hp : m.objects.read p with _ | object
  · rw [hp] at ha
    cases ha
  rw [hp] at ha
  have hx : (x ⟨object, m.heap⟩).1 = .ok a := congrArg Prod.fst ha
  exact h ⟨object, m.heap⟩ a _ (Prod.ext hx rfl)

/-- A call that ends with one error or with the result of its body. -/
theorem withAsset_returns {A : Type} {P : Except Err A → Prop} {B : Backend} {assetID : AssetID}
    {body : Ptr AssetObject → Method (Except Err A)}
      (hnone : P (.error (.sentinel .errAssetNotFound)))
    (hbody : ∀ p, Proc.Returns P (body p)) : Proc.Returns P (Object.withAsset B assetID body) := by
  refine .bind fun found => ?_
  cases found with
  | error e => exact .pure hnone
  | ok p => exact hbody p

section

variable {B : Backend} {assetID : AssetID} {tokenID : TokenID} {value : Ptr Int}

/-- Errors of the methods below. -/
def ErrorNotExpired {A : Type} (r : Except Err A) : Prop :=
  r ≠ .error (.sentinel .errMandateExpired)

theorem subBalance_returns :
    Proc.Returns ErrorNotExpired (Object.subBalance B assetID tokenID value) := by
  refine withAsset_returns nofun fun p => .bind fun ao => ?_
  cases ao.balance.lookup tokenID with
  | none => exact .pure nofun
  | some bal => exact .bind fun _ => .bind fun _ => .pure nofun

theorem subMandateBalance_returns {operatorID : Identifier} :
    Proc.Returns ErrorNotExpired (Object.subMandateBalance B assetID tokenID operatorID value) := by
  refine withAsset_returns nofun fun p => .bind fun ao => ?_
  cases ao.mandate.at? operatorID tokenID with
  | none => exact .pure nofun
  | some mandate => exact .bind fun _ => .bind fun _ => .pure nofun

theorem consumeMandate_returns {operatorID : Identifier} :
    Proc.Returns ErrorNotExpired (Object.consumeMandate B assetID tokenID operatorID value) := by
  refine .bind_of subMandateBalance_returns fun r hr => ?_
  cases r with
  | error e => exact .pure (fun h => hr (by cases h; rfl))
  | ok _ => exact subBalance_returns

theorem addToken_returns {metadata : Option (Ptr MetaData)} {p : Ptr AssetObject} :
    Proc.Returns NotExpired (Object.addToken assetID tokenID value metadata p) := by
  have hstore : Proc.Returns NotExpired (Object.storeMetaData assetID tokenID metadata p) := by
    cases metadata with
    | none => exact .bind fun _ => .pure nofun
    | some m => exact .bind fun _ => .bind fun _ => .pure nofun
  refine .bind fun ao => ?_
  cases ao.balance.lookup tokenID with
  | none => exact .bind fun _ => hstore
  | some bal => exact .bind fun _ => .bind fun _ => .bind fun _ => hstore

theorem addBalance_returns {metadata : Option (Ptr MetaData)} :
    Proc.Returns NotExpired (Object.addBalance B assetID tokenID value metadata) := by
  have hinsert : ∀ p, Proc.Returns NotExpired (Object.insertNewAssetObject B assetID p) := by
    intro p
    refine .bind fun found => ?_
    cases found with
    | ok q => exact .pure nofun
    | error e => exact .bind fun _ => .pure nofun
  refine .bind fun found => ?_
  cases found with
  | ok p => exact addToken_returns
  | error e =>
    refine .bind fun p => .bind_of (hinsert p) fun err herr => ?_
    cases err with
    | none => exact addToken_returns
    | some err => exact .pure herr

end

/-- Past the comparison no call says that a mandate has expired. -/
theorem unexpired_returns (X : EngineEnv) {operatorID : Identifier}
    {benefactor beneficiary : Ptr Object}
    {assetID : AssetID} {tokenID : TokenID} {value : Ptr Int} {n : Int}
    {mandate : AmountWithExpiry (Ptr Int)} :
    Proc.Returns (fun o : Outcome => NotExpired o.2) (unexpired mandate n (finish fuelAsset
      (Engine.consumeMandate X operatorID benefactor beneficiary assetID tokenID value))) := by
  refine .bind fun held => ?_
  by_cases hn : held < n
  · rw [if_pos hn]
    exact .pure nofun
  rw [if_neg hn]
  refine .bind_of ?_ fun err herr => .pure herr
  refine .bind_of (call_returns consumeMandate_returns) fun taken htaken => ?_
  cases taken with
  | error e => exact .pure (fun h => htaken (by cases h; rfl))
  | ok metadata => exact call_returns addBalance_returns

/-! ## 3. Two replicas -/

theorem transfer_clock (X : EngineEnv) (t : Transition) (m : Memory) {assetID : AssetID}
    {tokenID : TokenID} {operatorID benefactorID beneficiaryID : Identifier} {value : Int}
    {access : Access} (now now' : UInt64) :
    (transfer assetID tokenID operatorID benefactorID beneficiaryID value access).run X now t m
        = (transfer assetID tokenID operatorID benefactorID beneficiaryID value access).run X
          now' t m ↔
      ∀ expiresAt,
        (transfer assetID tokenID operatorID benefactorID beneficiaryID value
          access).checkedExpiry X t m = some expiresAt → (expiresAt < now ↔ expiresAt < now') := by
  have hread : amount (m.heap.amounts.alloc value).1 (newAmount value m).2
      = (.ok value, (newAmount value m).2) := by
    have hcell : (newAmount value m).2.heap.amounts.read (m.heap.amounts.alloc value).1 =
      some value := Cells.read_alloc_new
    unfold amount
    rw [hcell]
    rfl
  have hrun : ∀ now, (transfer assetID tokenID operatorID benefactorID beneficiaryID value
      access).run X now t m = _ :=
    fun now => (bind_of_ok (s := m) (x := newAmount value) rfl).trans (bind_of_ok hread)
  rw [hrun, hrun]
  unfold withObject checkedExpiry
  cases hoperator : t.objects.lookup operatorID with
  | none => simp [hoperator]
  | some operator =>
  cases hbeneficiary : t.objects.lookup beneficiaryID with
  | none => simp [hoperator, hbeneficiary]
  | some beneficiary =>
  cases sargaObject X t with
  | error err => simp [hoperator, hbeneficiary]
  | ok sarga =>
  by_cases hnil : benefactorID = nilIdentifier
  · subst hnil
    cases hbenefactor : t.objects.lookup nilIdentifier with
    | none => simp [hoperator, hbeneficiary, hbenefactor]
    | some benefactor => simp [hoperator, hbeneficiary, hbenefactor]
  rcases hbenefactor : t.objects.lookup benefactorID with _ | benefactor
  · simp [hoperator, hbeneficiary, hnil, hbenefactor]
  simp only [hoperator, hbeneficiary, hnil, hbenefactor, if_false]
  rw [checked_consume, checked_consume]
  cases findMandate X operatorID beneficiary benefactor sarga assetID tokenID value access
      (newAmount value m).2 with
  | mk r m' =>
    rcases r with p | found
    · simp
    rcases found with _ | mandate
    · simp
    simp only [Option.some.injEq, forall_eq']
    -- the replica that goes on does not say that the mandate has expired
    have hne : ∀ k, unexpired mandate value (finish fuelAsset (Engine.consumeMandate X
        operatorID benefactor beneficiary assetID tokenID k)) m'
        ≠ (.ok (fuelAsset, some (.sentinel .errMandateExpired)), m') :=
      fun k h => unexpired_returns X m' _ m' h rfl
    by_cases h1 : mandate.expiresAt < now
    · by_cases h2 : mandate.expiresAt < now'
      · simp [h1, h2]
      · simp only [h1, h2, if_true, if_false, iff_false, not_true]
        exact fun h => hne _ h.symm
    by_cases h2 : mandate.expiresAt < now'
    · simp only [h1, h2, if_true, if_false, iff_true]
      exact ⟨fun h => absurd h (hne _), fun h => h.elim⟩
    · simp [h1, h2]

/-- **The clock.** Two replicas that carry out a call on the same memory at two times get the same
    result, the same error and the same memory exactly if the times lie on the same side of the
    expiry that the call checks. -/
theorem clock_free_iff (X : EngineEnv) (t : Transition) (m : Memory) (op : EngineOp)
    (now now' : UInt64) :
    op.run X now t m = op.run X now' t m ↔
      ∀ expiresAt, op.checkedExpiry X t m = some expiresAt →
        (expiresAt < now ↔ expiresAt < now') := by
  cases op with
  | transfer assetID tokenID operatorID benefactorID beneficiaryID value access =>
    exact transfer_clock X t m now now'
  | createAsset => simp [checkedExpiry, run]
  | mint => simp [checkedExpiry, run]
  | burn => simp [checkedExpiry, run]
  | approve => simp [checkedExpiry, run]
  | revoke => simp [checkedExpiry, run]
  | lockup => simp [checkedExpiry, run]
  | release => simp [checkedExpiry, run]
  | setMetaData => simp [checkedExpiry, run]
  | setTokenMetaData => simp [checkedExpiry, run]

/-! ## 4. A mandate that expires between two replicas -/

namespace ClockSample

open EngineSample

/-- The manager has ten tokens, and a mandate over them for the operator that expires at 100. -/
def committed (id : Identifier) (asset : AssetID) : Option AssetData :=
  if id = manager ∧ asset = assetID then
    some { AssetOf.new none with
      balance := AList.singleton defaultTokenID 10
      mandate := AList.singleton operator (AList.singleton defaultTokenID ⟨10, 100⟩) }
  else none

/-- The operator takes four tokens of the manager. -/
def taking : EngineOp :=
  .transfer assetID defaultTokenID operator manager operator 4 access

/-- The error of the call at a time, if it returns. -/
def errorAt (now : UInt64) : Option (Option Err) :=
  match (taking.run (env committed) now transition memory).1 with
  | .ok o => some o.2
  | .error _ => none

/-- **One second apart**: at 100 the transfer succeeds, at 101 it fails. -/
theorem expires_between :
    errorAt 100 = some none ∧ errorAt 101 = some (some (.sentinel .errMandateExpired)) ∧
      taking.run (env committed) 100 transition memory
        ≠ taking.run (env committed) 101 transition memory := by
  have h100 : errorAt 100 = some none := by decide +kernel
  have h101 : errorAt 101 = some (some (.sentinel .errMandateExpired)) := by decide +kernel
  refine ⟨h100, h101, fun h => ?_⟩
  have hsame : errorAt 100 = errorAt 101 := by
    unfold errorAt
    rw [h]
  cases hsame

end ClockSample

end GoMoi
