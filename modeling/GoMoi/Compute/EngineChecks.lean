/-
  File:      GoMoi/Compute/EngineChecks.lean
  Subject:   What the checks of the asset engine let through.

  A check reads the asset objects of the accounts and changes nothing: it may decode an asset object
  that nobody points to. One lemma for each check: what is known of the books if it passes.

  * `fetchHasBalance_looks`, … -- the readers of an object;
  * `validateAssetTransfer_calm`, … -- the checks.
-/
import GoMoi.Compute.Books

namespace GoMoi

open Proc

/-! ## 1. Readers -/

section

variable {B : Backend} {a : AssetID} {tok : TokenID} {s : Receiver} {id : Identifier} {n : Int}

theorem Receiver.Sound.unmoved (hs : s.Sound) : s.Unmoved s := ⟨rfl, .refl hs.separate⟩

/-- The asset object fetched by a method that only looks. -/
theorem getAssetObject_looks {A : Type} {P : A → Heap → Prop}
    {f : Except Err (Ptr AssetObject) → Method A} (hs : s.Sound)
    (herror : ∀ e, Looks P (f (.error e)) s)
    (hok : ∀ q s', Work a Nowhere Nowhere s s' q → s'.heap.holdOf q = s.holding B a →
      wp (f (.ok q)) (fun r s'' => s'' = s' ∧ P r s'.heap) (fun s'' => s'' = s') s') :
    Looks P (Object.getAssetObject B a true >>= f) s := by
  refine wp_seq_total (getAssetObject_work hs) fun r s' hr => ?_
  rcases r with e | q
  · obtain ⟨rfl, -, -⟩ := hr.1 e rfl
    exact herror e
  obtain ⟨hw, hobj, hview, hi⟩ := hr.2 q rfl
  refine wp_mono (hok q s' hw (holdOf_of_view hview)) (fun r s'' h => ?_) fun s'' h => ?_
  · obtain ⟨rfl, hP⟩ := h
    exact ⟨⟨hobj, hi⟩, hP⟩
  · subst h
    exact ⟨hobj, hi⟩

/-- `HasBalance`. -/
theorem hasBalance_spec {s0 : Receiver} {q : Ptr AssetObject} (hw : Work a Nowhere Nowhere s0 s q) :
    wp (Object.hasBalance q tok n) (fun r s' => s' = s ∧ (r = none →
      ∃ k, (s.heap.holdOf q).amount (.balance tok) = some k ∧ n ≤ k)) (fun s' => s' = s) s := by
  refine Object.wp_asset_bind (fun ao hao => ?_) rfl
  rcases hbal : ao.balance.lookup tok with _ | bal
  · exact ⟨rfl, by simp⟩
  obtain ⟨k, hk, hamount⟩ := hw.amount_some (.balance tok) hao hbal
  simp only [wp_bind, Object.wp_amount, wp_ite, wp_pure]
  refine ⟨fun k' hk' => ⟨fun _ => ⟨trivial, by simp⟩, fun hlt => ⟨trivial, fun _ => ?_⟩⟩,
    fun _ => trivial⟩
  obtain rfl := Option.mem_unique hk' hk
  exact ⟨k', hamount, by omega⟩

/-- **`FetchAssetObject` and `HasBalance`.** -/
theorem fetchHasBalance_looks (hs : s.Sound) : Looks (fun r _ => r = none →
    ∃ k, (s.holding B a).amount (.balance tok) = some k ∧ n ≤ k)
    (Object.fetchHasBalance B a tok n) s := by
  refine getAssetObject_looks hs (fun e => ⟨hs.unmoved, nofun⟩) fun q s' hw hhold => ?_
  rw [← hhold]
  exact hasBalance_spec hw

/-- **`GetProperties`.** -/
theorem getProperties_looks (hs : s.Sound) : Looks (fun r _ => ∀ properties, r = .ok properties →
    (s.holding B a).supply = properties.map fun d => ⟨d.circulatingSupply, d.maxSupply⟩)
    (Object.getProperties B a) s := by
  refine getAssetObject_looks hs (fun e => ⟨hs.unmoved, nofun⟩) fun q s' hw hhold => ?_
  simp only [wp_bind, Object.wp_asset, wp_pure]
  refine ⟨fun ao hao => ⟨trivial, fun properties h => ?_⟩, fun _ => trivial⟩
  cases h
  rw [← hhold, Heap.holdOf_eq hao]
  rfl

/-- What a reader of a reserved amount knows. -/
abbrev Reads (H : Holding) (pl : Purse) : Except Err (AmountWithExpiry (Ptr Int)) → Heap → Prop :=
  fun r h => ∀ reserved, r = .ok reserved →
    ∃ k, h.amounts.read reserved.amount = some k ∧ H.amount pl = some k

/-- **`GetLockup`.** -/
theorem getLockup_looks (hs : s.Sound) :
    Looks (Reads (s.holding B a) (.lockup id tok)) (Object.getLockup B a tok id) s := by
  refine getAssetObject_looks hs (fun e => ⟨hs.unmoved, nofun⟩) fun q s' hw hhold => ?_
  refine Object.wp_asset_bind (fun ao hao => ?_) rfl
  rcases hlock : ao.lockup.at? id tok with _ | _
  · exact ⟨rfl, nofun⟩
  refine ⟨rfl, fun reserved h => ?_⟩
  cases h
  rw [← hhold]
  refine hw.amount_some (.lockup id tok) hao ?_
  rw [AssetOf.amountAt, hlock]
  rfl

/-- **`GetMandate`**, which is asked only whether there is one. -/
theorem getMandate_looks (hs : s.Sound) :
    Looks (fun _ _ => True) (Object.getMandate B a tok id) s := by
  refine getAssetObject_looks hs (fun e => ⟨hs.unmoved, trivial⟩) fun q s' hw hhold => ?_
  refine Object.wp_asset_bind (fun ao hao => ?_) rfl
  cases ao.mandate.at? id tok <;> exact ⟨rfl, trivial⟩

end

/-! ## 2. Checks -/

section

variable {X : EngineEnv} {t : Transition} {base L : Ledger} {m : Memory} {A C : Type}
  {P : A → Heap → Prop} {P' : C → Heap → Prop} {B : Backend} {p : Ptr Object}
  {x : Engine (Option Err)}

theorem Calm.bind {x : Engine A} {f : A → Engine C} (hx : Calm B t base L P x m)
    (hf : ∀ r m', At B t base L m' → P r m'.heap → Calm B t base L P' (f r) m') :
    Calm B t base L P' (x >>= f) m := by
  refine wp_seq hx fun r m' h => ?_
  exact wp_mono (hf r m' h.1.books h.2) (fun _ _ h' => ⟨h.1.trans h'.1, h'.2⟩)
    fun _ h' => h.1.trans h'

theorem Calm.pure (hat : At B t base L m) {r : A} (hr : P r m.heap) :
    Calm B t base L P (pure r) m := ⟨.refl hat, hr⟩

/-- A call on an object that has nothing to do with assets. -/
theorem Calm.outside {x : Method A} (hat : At B t base L m) (hx : Outside x) :
    Calm B t base L (fun _ _ => True) (Memory.call p x) m := by
  have hsame := hat.outside (p := p) hx
  unfold Calm
  simp only [and_true]
  exact wp_state.mpr hsame

open Engine

theorem identifier_calm {id : Identifier} (hat : At B t base L m)
    (hid : t.objects.lookup id = some p) :
    Calm B t base L (fun r _ => r = id) (identifier p) m := by
  obtain ⟨o, ho, hoid, -⟩ := hat.world.objects id p hid
  unfold Calm identifier
  rw [Memory.wp_call ho]
  exact ⟨hat.looks ho ⟨rfl, .refl hat.world.separate⟩, hoid⟩

theorem isAccountRegistered_outside (id : Identifier) :
    Outside (Object.isAccountRegistered X id) := by
  refine .bind (Object.fixes_getStorageEntry (fun _ _ _ => rfl) _ _) fun r => ?_
  cases r with
  | ok value => exact .pure _
  | error e => exact .ite (.pure _) (.pure _)

variable {operatorID benefactorID beneficiaryID : Identifier}
  {operator benefactor beneficiary : Ptr Object} {sarga assetacc : Ptr Object} {a : AssetID}
  {tok : TokenID} {n : Int} {access : Access} {e : Err} {K c : Prop}

/-- A check that fails. -/
theorem Calm.reject (hat : At B t base L m) :
    Calm B t base L (fun r _ => r = none → K) (Pure.pure (some e)) m := .pure hat nofun

/-- `if c { return e }`. -/
theorem Calm.guard [Decidable c] (hat : At B t base L m)
    (h : ¬ c → Calm B t base L (fun r _ => r = none → K) x m) :
    Calm B t base L (fun r _ => r = none → K) (if c then Pure.pure (some e) else x) m := by
  by_cases hc : c
  · rw [if_pos hc]
    exact .reject hat
  · rw [if_neg hc]
    exact h hc

/-- The same test, the other way round. -/
theorem Calm.unless [Decidable c] (hat : At B t base L m)
    (h : c → Calm B t base L (fun r _ => r = none → K) x m) :
    Calm B t base L (fun r _ => r = none → K) (if c then x else Pure.pure (some e)) m := by
  by_cases hc : c
  · rw [if_pos hc]
    exact h hc
  · rw [if_neg hc]
    exact .reject hat

/-- **`validateAssetTransfer`.** -/
theorem validateAssetTransfer_calm (hat : At X.backend t base L m)
    (hop : t.objects.lookup operatorID = some operator)
    (hben : t.objects.lookup beneficiaryID = some beneficiary) :
    Calm X.backend t base L (fun r _ => r = none →
        hasMutateAccess access [operatorID, beneficiaryID] = true ∧ 1 ≤ n ∧
          ∃ k, L.balance operatorID a tok = some k ∧ n ≤ k)
      (validateAssetTransfer X operator beneficiary sarga a tok n access) m := by
  refine .guard hat fun hn => ?_
  refine (identifier_calm hat hben).bind fun r m1 hat1 hr => ?_
  rw [hr]
  refine (identifier_calm hat1 hop).bind fun r m2 hat2 hr => ?_
  rw [hr]
  refine .unless hat2 fun hacc => ?_
  refine (Calm.outside hat2 (isAccountRegistered_outside _)).bind fun reg m3 hat3 _ => ?_
  rcases reg with e | known
  · exact .reject hat3
  rcases known with _ | _
  · exact .reject hat3
  refine hat3.look hop fun s hs hh => ?_
  refine wp_post (fetchHasBalance_looks hs) fun r s' h => ⟨h.1, fun hr => ?_⟩
  obtain ⟨k, hk, hle⟩ := h.2 hr
  rw [hh a] at hk
  exact ⟨hacc, by omega, k, hk, hle⟩

/-- The mandate found by `validateAssetConsume`. -/
theorem findMandate_calm (hat : At X.backend t base L m)
    (hben : t.objects.lookup beneficiaryID = some beneficiary)
    (hfac : t.objects.lookup benefactorID = some benefactor) :
    Calm X.backend t base L (fun r h => ∀ mandate, r = .ok mandate →
        hasMutateAccess access [beneficiaryID, benefactorID] = true ∧
          (∃ k, L.balance benefactorID a tok = some k ∧ n ≤ k) ∧
          ∃ k, h.amounts.read mandate.amount = some k ∧
            (L benefactorID a).amount (.mandate operatorID tok) = some k)
      (findMandate X operatorID beneficiary benefactor sarga a tok n access) m := by
  refine (identifier_calm hat hben).bind fun r m1 hat1 hr => ?_
  rw [hr]
  refine (Calm.outside hat1 (Object.fixes_getStorageEntry (fun _ _ _ => rfl) _ _)).bind
    fun entry m2 hat2 _ => ?_
  rcases entry with e | _
  · exact .pure hat2 nofun
  refine (identifier_calm hat2 hfac).bind fun r m3 hat3 hr => ?_
  rw [hr]
  by_cases hacc : hasMutateAccess access [beneficiaryID, benefactorID] = true
  case neg =>
    rw [if_neg hacc]
    exact .pure hat3 nofun
  rw [if_pos hacc]
  refine hat3.look hfac fun s hs hh => ?_
  refine getAssetObject_looks hs (fun e => ⟨hs.unmoved, nofun⟩)
    fun q s' hw hhold => ?_
  refine wp_seq (hasBalance_spec hw) fun r s'' h => ?_
  obtain ⟨rfl, hbal⟩ := h
  rcases r with _ | err
  swap
  · exact ⟨rfl, nofun⟩
  obtain ⟨k, hk, hle⟩ := hbal rfl
  rw [hhold, hh a] at hk
  refine Object.wp_asset_bind (fun ao hao => ?_) rfl
  rcases hman : ao.mandate.at? operatorID tok with _ | _
  · exact ⟨rfl, nofun⟩
  refine ⟨rfl, fun reserved h => ⟨hacc, ⟨k, hk, hle⟩, ?_⟩⟩
  cases h
  rw [← hh a, ← hhold]
  refine hw.amount_some (.mandate operatorID tok) hao ?_
  rw [AssetOf.amountAt, hman]
  rfl

/-- The amount behind a pointer, once it has been read. -/
theorem amount_calm {x : Ptr Int} {k : Int} (hat : At B t base L m)
    (hx : m.heap.amounts.read x = some k) : Calm B t base L (fun r _ => r = k) (amount x) m := by
  unfold Calm wp amount
  rw [hx]
  exact ⟨.refl hat, rfl⟩

section

variable (hat : At X.backend t base L m)
include hat

/-- **`validateAssetConsume`.** -/
theorem validateAssetConsume_calm {now : UInt64}
    (hben : t.objects.lookup beneficiaryID = some beneficiary)
    (hfac : t.objects.lookup benefactorID = some benefactor) :
    Calm X.backend t base L (fun r _ => r = none →
        hasMutateAccess access [beneficiaryID, benefactorID] = true ∧
          (∃ k, L.balance benefactorID a tok = some k ∧ n ≤ k) ∧
          ∃ k, (L benefactorID a).amount (.mandate operatorID tok) = some k ∧ n ≤ k)
      (validateAssetConsume X now operatorID beneficiary benefactor sarga a tok n access) m := by
  refine (findMandate_calm hat hben hfac).bind fun r m1 hat1 hr => ?_
  rcases r with err | mandate
  · exact .reject hat1
  obtain ⟨hacc, hbal, k, hread, hk⟩ := hr mandate rfl
  refine .guard hat1 fun hexp => ?_
  refine (amount_calm hat1 hread).bind fun r m2 hat2 hr => ?_
  exact .guard hat2 fun hlt => .pure hat2 fun _ => ⟨hacc, hbal, k, hk, by omega⟩

/-- **`validateAssetApprove`.** -/
theorem validateAssetApprove_calm (hfac : t.objects.lookup benefactorID = some benefactor) :
    Calm X.backend t base L (fun r _ => r = none →
        hasMutateAccess access [benefactorID] = true ∧ 1 ≤ n)
      (validateAssetApprove X benefactor a tok n access) m := by
  refine (identifier_calm hat hfac).bind fun r m1 hat1 hr => ?_
  rw [hr]
  refine .unless hat1 fun hacc => ?_
  refine .guard hat1 fun hn => ?_
  refine hat1.look hfac fun s hs hh => ?_
  exact wp_post (fetchHasBalance_looks hs) fun r s' h => ⟨h.1, fun _ => ⟨hacc, by omega⟩⟩

/-- **`validateAssetRevoke`.** -/
theorem validateAssetRevoke_calm (hfac : t.objects.lookup benefactorID = some benefactor) :
    Calm X.backend t base L (fun r _ => r = none → hasMutateAccess access [benefactorID] = true)
      (validateAssetRevoke X benefactor beneficiaryID a tok access) m := by
  refine (identifier_calm hat hfac).bind fun r m1 hat1 hr => ?_
  rw [hr]
  refine .unless hat1 fun hacc => ?_
  refine (hat1.look hfac fun s hs _ => getMandate_looks hs).bind fun r m2 hat2 _ => ?_
  cases r with
  | error err => exact .reject hat2
  | ok mandate => exact .pure hat2 fun _ => hacc

/-- What is known of the properties of an asset. -/
theorem getProperties_calm {acc : Identifier} (hacc : t.objects.lookup acc = some assetacc) :
    Calm X.backend t base L (fun r _ => ∀ properties, r = .ok properties →
        (L acc a).supply = properties.map fun d => ⟨d.circulatingSupply, d.maxSupply⟩)
      (Memory.call assetacc (Object.getProperties X.backend a)) m := by
  refine hat.look hacc fun s hs hh => ?_
  rw [← hh a]
  exact getProperties_looks hs

end

/-- A nil record of an asset is dereferenced. -/
theorem Calm.deref {D : Type} {d : Option D} (hat : At B t base L m) :
    Calm B t base L (fun r _ => d = some r) (ofGo (Go.deref d)) m := by
  cases d with
  | none => exact .refl hat
  | some d => exact ⟨.refl hat, rfl⟩

section

variable (hat : At X.backend t base L m)
include hat

/-- **`validateAssetMint`.** -/
theorem validateAssetMint_calm {senderID : Identifier} (hacc : t.objects.lookup a = some assetacc) :
    Calm X.backend t base L (fun r _ => r = none →
        hasMutateAccess access [a, beneficiaryID] = true ∧ 1 ≤ n ∧
          ∃ s, (L a a).supply = some s ∧ s.circulating + n ≤ s.max)
      (validateAssetMint X senderID beneficiaryID assetacc a n access) m := by
  refine .unless hat fun haccess => ?_
  refine (getProperties_calm (a := a) hat hacc).bind fun r m1 hat1 hr => ?_
  rcases r with e | properties
  · exact .reject hat1
  have hsupply := hr properties rfl
  refine .guard hat1 fun hn => ?_
  refine (Calm.deref hat1).bind fun d m2 hat2 hd => ?_
  rw [hd] at hsupply
  refine .guard hat2 fun hman => ?_
  exact .guard hat2 fun hmax => .pure hat2 fun _ =>
    ⟨haccess, by omega, _, hsupply, Int.not_lt.mp hmax⟩

section

variable (hfac : t.objects.lookup benefactorID = some benefactor)
include hfac

/-- `validateAssetBurn`, on the asset object of the benefactor. -/
theorem validateBurnBalance_calm :
    Calm X.backend t base L (fun r _ => r = none →
        1 ≤ n ∧ ∃ k, L.balance benefactorID a tok = some k ∧ n ≤ k)
      (validateBurnBalance X benefactor a tok n) m := by
  refine hat.look hfac fun s hs hh => ?_
  refine getAssetObject_looks hs (fun e => ⟨hs.unmoved, by simp⟩) fun q s' hw hhold => ?_
  refine Object.wp_asset_bind (fun ao hao => ?_) rfl
  rcases hbal : ao.balance.lookup tok with _ | bal
  · exact ⟨rfl, by simp⟩
  obtain ⟨k, hk, hamount⟩ := hw.amount_some (.balance tok) hao hbal
  rw [hhold, hh a] at hamount
  simp only [wp_bind, Object.wp_amount, wp_ite, wp_pure]
  refine ⟨fun _ => ⟨trivial, by simp⟩, fun hn => ⟨fun k' hk' => ⟨fun _ =>
    ⟨trivial, by simp⟩, fun hlt => ⟨trivial, fun _ => ⟨by omega, k, hamount, ?_⟩⟩⟩,
    fun _ => trivial⟩⟩
  obtain rfl := Option.mem_unique hk' hk
  omega

/-- **`validateAssetBurn`.** -/
theorem validateAssetBurn_calm (hacc : t.objects.lookup a = some assetacc) :
    Calm X.backend t base L (fun r _ => r = none →
        hasMutateAccess access [a, benefactorID] = true ∧ (∃ s, (L a a).supply = some s) ∧
          1 ≤ n ∧ ∃ k, L.balance benefactorID a tok = some k ∧ n ≤ k)
      (validateAssetBurn X benefactor assetacc a tok n access) m := by
  refine (identifier_calm hat hfac).bind fun r m1 hat1 hr => ?_
  rw [hr]
  refine .unless hat1 fun haccess => ?_
  refine (getProperties_calm (a := a) hat1 hacc).bind fun r m2 hat2 hr => ?_
  rcases r with e | properties
  · exact .reject hat2
  have hsupply := hr properties rfl
  refine (Calm.deref hat2).bind fun d m3 hat3 hd => ?_
  rw [hd] at hsupply
  refine .guard hat3 fun hman => ?_
  exact wp_post (validateBurnBalance_calm hat3 hfac)
    fun r m4 h => ⟨h.1, fun hr => ⟨haccess, ⟨_, hsupply⟩, h.2 hr⟩⟩

/-- **`validateAssetLockup`.** -/
theorem validateAssetLockup_calm :
    Calm X.backend t base L (fun r _ => r = none →
        hasMutateAccess access [benefactorID] = true ∧ 1 ≤ n ∧
          ∃ k, L.balance benefactorID a tok = some k ∧ n ≤ k)
      (validateAssetLockup X benefactor beneficiaryID a tok n access) m := by
  refine (identifier_calm hat hfac).bind fun r m1 hat1 hr => ?_
  rw [hr]
  refine .unless hat1 fun hacc => ?_
  refine .guard hat1 fun hnil => ?_
  refine .guard hat1 fun hn => ?_
  refine hat1.look hfac fun s hs hh => ?_
  refine wp_post (fetchHasBalance_looks hs) fun r s' h => ⟨h.1, fun hr => ?_⟩
  obtain ⟨k, hk, hle⟩ := h.2 hr
  rw [hh a] at hk
  exact ⟨hacc, by omega, k, hk, hle⟩

/-- **`validateAssetRelease`.** The amount may have any sign. -/
theorem validateAssetRelease_calm :
    Calm X.backend t base L (fun r _ => r = none →
        hasMutateAccess access [benefactorID, beneficiaryID] = true ∧
          ∃ k, (L benefactorID a).amount (.lockup operatorID tok) = some k ∧ n ≤ k)
      (validateAssetRelease X operatorID benefactor beneficiaryID a tok n access) m := by
  refine (identifier_calm hat hfac).bind fun r m1 hat1 hr => ?_
  rw [hr]
  refine .unless hat1 fun hacc => ?_
  refine (hat1.look hfac fun s hs hh => hh a ▸ getLockup_looks hs).bind fun r m2 hat2 hr => ?_
  rcases r with e | lockup
  · exact .reject hat2
  obtain ⟨k, hread, hk⟩ := hr lockup rfl
  refine (amount_calm hat2 hread).bind fun r m3 hat3 hr => ?_
  exact .guard hat3 fun hlt => .pure hat3 fun _ => ⟨hacc, k, hk, by omega⟩

end

/-- **`validateSetMetaData`.** -/
theorem validateSetMetaData_calm {participantID : Identifier}
    (hacc : t.objects.lookup a = some assetacc) :
    Calm X.backend t base L (fun r _ => r = none → hasMutateAccess access [a] = true)
      (validateSetMetaData X assetacc a participantID access) m := by
  refine .unless hat fun haccess => ?_
  refine (getProperties_calm (a := a) hat hacc).bind fun r m1 hat1 _ => ?_
  rcases r with e | _
  · exact .reject hat1
  refine (Calm.deref hat1).bind fun d m2 hat2 _ => ?_
  exact .guard hat2 fun hman => .pure hat2 fun _ => haccess

end

end

end GoMoi
