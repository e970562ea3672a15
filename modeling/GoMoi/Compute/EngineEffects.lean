/-
  File:      GoMoi/Compute/EngineEffects.lean
  Subject:   The asset engine meets its specification: a call that returns has one of the effects of
             `Compute/Ledger` on the books.

  * `subBalance_at`, … -- the changes, on the books;
  * `EngineOp.effect` -- the calls.
-/
import GoMoi.Compute.EngineChecks

namespace GoMoi

open Proc Memory Ledger Engine

/-! ## 1. Changes -/

/-- A call that has taken an amount, or has not: the amount of the call is still there, and so is
    the metadata that goes along. -/
structure Took (B : Backend) (t : Transition) (base L L' : Ledger) (v : Ptr Int) (n : Int)
    (r : Except Err (Option (Ptr MetaData))) (m : Memory) : Prop where
  refused : ∀ e, r = .error e → At B t base L m
  taken : ∀ metadata, r = .ok metadata → At B t base L' m ∧ m.heap.Carries v n ∧
    ∀ x, metadata = some x → m.heap.metas.Has x

section

variable {B : Backend} {t : Transition} {base L L' : Ledger} {m : Memory} {id : Identifier}
  {p : Ptr Object} {a : AssetID} {tok : TokenID} {v : Ptr Int} {n : Int}
  {D : TokenID × Ptr MetaData → Prop} {operatorID : Identifier} {X : EngineEnv} {V : Ptr Int → Prop}
  {s : Receiver} {o : Object} {assetacc : Ptr Object} {u : Supply}

/-- What a method leaves of the amount of its call. -/
theorem Done.carries {s' : Receiver} {H : Holding} (hd : Done B a V D s H s')
    (hv : s.heap.Carries v n) (hV : ¬ V v) : s'.heap.Carries v n :=
  hd.touched.carries hv hV

theorem At.unchanged (hat : At B t base L m) (hid : t.objects.lookup id = some p)
    (ho : m.objects.read p = some o)
    (hd : Done B a V D ⟨o, m.heap⟩ (Receiver.holding B ⟨o, m.heap⟩ a) s) :
    At B t base L (m.after p s) := by
  have hset := hat.done hid ho hd
  rwa [hat.holding hid ho, set_self] at hset

section

variable (hat : At B t base L m) (hv : m.heap.Carries v n) (hid : t.objects.lookup id = some p)
include hat hv hid

theorem subBalance_at :
    wp (call p (Object.subBalance B a tok v))
      (fun r m' => Took B t base L (L.take id a (.balance tok) n) v n r m' ∧
        ∀ e, r = .error e → L.balance id a tok = none) (fun _ => True) m := by
  refine hat.call hid fun o ho hs hh => ?_
  refine wp_weak (subBalance_spec hs hv)
    fun r s h => ⟨⟨fun e he => ?_, fun metadata hr => ?_⟩, fun e he => ?_⟩
  · exact hat.unchanged hid ho (h.1 e he).2
  · obtain ⟨hout, -, hdone⟩ := h.2 metadata hr
    have hset := hat.done hid ho hdone
    rw [hh a] at hset
    exact ⟨hset, hdone.carries hv fun h => h, fun x hx => (hout x hx).has⟩
  · have hnone := (h.1 e he).1
    rwa [hh a] at hnone

theorem releaseLockup_at :
    wp (call p (Object.releaseLockup B a tok operatorID v))
      (Took B t base L (L.take id a (.lockup operatorID tok) n) v n) (fun _ => True) m := by
  refine hat.call hid fun o ho hs hh => ?_
  refine wp_weak (releaseLockup_spec hs hv)
    fun r s h => ⟨fun e he => ?_, fun metadata hr => ?_⟩
  · exact hat.unchanged hid ho (h.1 e he)
  obtain ⟨hout, -, hdone⟩ := h.2 metadata hr
  have hset := hat.done hid ho hdone
  rw [hh a] at hset
  exact ⟨hset, hdone.carries hv fun h => h, fun x hx => (hout x hx).has⟩

end

/-- Two methods of one object are two calls. -/
theorem Memory.wp_call_bind {A C : Type} {x : Method A} {f : A → Method C} {Q : C → Memory → Prop}
    {R : Memory → Prop} (ho : m.objects.read p = some o)
    (h : wp (call p x) (fun r m' => wp (call p (f r)) Q R m') R m) :
    wp (call p (x >>= f)) Q R m := by
  rw [wp_call ho] at h ⊢
  refine wp_seq h fun r s h => ?_
  have hread : (m.after p s).objects.read p = some s.object := by
    rw [read_after p ho, if_pos rfl]
  have hafter : ∀ s', (m.after p s).after p s' = m.after p s' := fun s' => by
    unfold after Cells.modify
    rw [List.modify_modify_eq]
    rfl
  rw [show (⟨m.objects.modify p fun _ => s.object, s.heap⟩ : Memory) = m.after p s from rfl,
    wp_call hread] at h
  refine wp_mono h (fun r s' h => ?_) fun s' h => ?_
  · show Q r (m.after p s')
    rw [← hafter s']
    exact h
  · show R (m.after p s')
    rw [← hafter s']
    exact h

theorem Ledger.balance_takeMandate :
    (L.take id a (.mandate operatorID tok) n).balance id a tok = L.balance id a tok := by
  unfold balance take
  simp [Holding.take]

/-- The mandate and the balance are taken together, if there is a balance. -/
theorem consumeMandate_at {k : Int} (hat : At B t base L m) (hv : m.heap.Carries v n)
    (hid : t.objects.lookup id = some p) (hk : L.balance id a tok = some k) :
    wp (call p (Object.consumeMandate B a tok operatorID v))
      (Took B t base L ((L.take id a (.mandate operatorID tok) n).take id a (.balance tok) n) v n)
      (fun _ => True) m := by
  obtain ⟨o, ho, -, -⟩ := hat.world.objects id p hid
  refine wp_call_bind ho ?_
  refine hat.call hid fun o ho hs hh => ?_
  refine wp_weak (subMandateBalance_spec hs hv) fun r s h => ?_
  rcases r with e | u
  · have hat' := hat.unchanged hid ho (h.1 e rfl)
    refine hat'.call hid fun o' ho' _ _ => ⟨fun _ _ => ?_, nofun⟩
    exact (hat'.looks ho' ⟨rfl, .refl hat'.world.separate⟩).books
  obtain ⟨-, -, hdone⟩ := h.2 rfl
  have hat' := hat.done hid ho hdone
  rw [hh a] at hat'
  refine wp_post (subBalance_at hat' (hdone.carries hv fun h => h) hid)
    fun r m' h => ⟨fun e he => ?_, h.1.taken⟩
  have hnone := h.2 e he
  rw [show L.set id a _ = L.take id a (.mandate operatorID tok) n from rfl,
    balance_takeMandate, hk] at hnone
  cases hnone

/-- **A credit.** -/
theorem addBalance_at {metadata : Option (Ptr MetaData)} (hat : At B t base L m)
    (hv : m.heap.Carries v n) (hm : ∀ x, metadata = some x → m.heap.metas.Has x)
    (hid : t.objects.lookup id = some p) :
    wp (call p (Object.addBalance B a tok v metadata))
      (fun r m' => r = none ∧ At B t base (L.credit id a tok n) m') (fun _ => True) m := by
  refine hat.call hid fun o ho hs hh => ?_
  refine wp_weak (addBalance_spec hs hv hm) fun r s h => ⟨h.1, ?_⟩
  have hset := hat.done hid ho h.2
  rwa [hh a] at hset

/-- What was taken is credited. -/
theorem creditTo_at {take : Engine (Except Err (Option (Ptr MetaData)))}
    (hid : t.objects.lookup id = some p)
    (htake : wp take (Took X.backend t base L L' v n) (fun _ => True) m) :
    wp (creditTo X p a tok v take)
      (fun _ m' => At X.backend t base L m' ∨ At X.backend t base (L'.credit id a tok n) m')
      (fun _ => True) m := by
  refine wp_seq htake fun r m1 h => ?_
  rcases r with err | metadata
  · exact .inl (h.refused err rfl)
  obtain ⟨hat, hv, hm⟩ := h.taken metadata rfl
  exact wp_post (addBalance_at hat hv hm hid) fun _ _ h => .inr h.2

/-- `mintAsset`: the record is raised if it is seen, and the amount credited. -/
theorem mintAsset_at (hat : At X.backend t base L m) (hv : m.heap.Carries v n)
    (hid : t.objects.lookup id = some p) (hacc : t.objects.lookup a = some assetacc) :
    wp (mintAsset X p assetacc a tok v)
      (fun r m' => (∀ e, r = some e → At X.backend t base L m') ∧ (r = none →
        (m.Linked t a → At X.backend t base ((L.issue a n).credit id a tok n) m') ∧
        (¬ m.Linked t a → At X.backend t base (L.credit id a tok n) m'))) (fun _ => True) m := by
  unfold mintAsset
  rw [wp_bind]
  refine hat.call hacc fun o ho hs hh => ?_
  have hlinked : m.Linked t a ↔ o.pendingAsset a ≠ none := by
    constructor
    · intro ⟨p', o', q, hp', ho', hq⟩ hnone
      obtain rfl := Option.mem_unique hacc hp'
      obtain rfl := Option.mem_unique ho ho'
      rw [hnone] at hq
      cases hq
    · intro hne
      obtain ⟨q, hq⟩ := Option.ne_none_iff_exists'.mp hne
      exact ⟨assetacc, o, q, hacc, ho, hq⟩
  refine wp_weak (mintAsset_spec hs hv) fun r s h => ?_
  rcases r with e | u
  · exact ⟨fun _ _ => hat.unchanged hacc ho (h.1 e rfl), nofun⟩
  obtain ⟨hunseen, hseen⟩ := h.2 rfl
  have hmeta : ∀ x, (none : Option (Ptr MetaData)) = some x → s.heap.metas.Has x :=
    nofun
  by_cases hl : m.Linked t a
  · have hdone := hseen (hlinked.mp hl)
    have hat' := hat.done hacc ho hdone
    rw [hh a] at hat'
    refine wp_post (addBalance_at hat' (hdone.carries hv fun h => h) hmeta hid)
      fun r m' h => ⟨fun e he => ?_, fun _ => ⟨fun _ => h.2, fun h => absurd hl h⟩⟩
    rw [h.1] at he
    cases he
  have hdone := hunseen (not_not.mp fun h => hl (hlinked.mpr h))
  have hat' := hat.unchanged hacc ho hdone
  refine wp_post (addBalance_at hat' (hdone.carries hv fun h => h) hmeta hid)
    fun r m' h => ⟨fun e he => ?_, fun _ => ⟨fun h => absurd h hl, fun _ => h.2⟩⟩
  rw [h.1] at he
  cases he

/-- A record of an asset that shows a supply is there. -/
theorem assetView_ne_none_of_supply (h : (s.holding B a).supply = some u) :
    s.assetView B a ≠ none := by
  intro hnone
  rw [Receiver.holding_of_none hnone] at h
  cases h

theorem Ledger.supply_take {id' : Identifier} {pl : Purse} :
    ((L.take id a pl n) id' a).supply = (L id' a).supply := by
  unfold take set
  split
  case isTrue h => rw [h.1]; rfl
  case isFalse => rfl

/-- `burnAsset`: there is a balance and a record. -/
theorem burnAsset_at (hat : At X.backend t base L m) (hv : m.heap.Carries v n)
    (hid : t.objects.lookup id = some p) (hacc : t.objects.lookup a = some assetacc)
    (hu : (L a a).supply = some u) :
    wp (burnAsset X p assetacc a tok v)
      (fun _ m' => At X.backend t base L m' ∨
        At X.backend t base ((L.take id a (.balance tok) n).issue a (-n)) m')
          (fun _ => True) m := by
  refine wp_seq (subBalance_at hat hv hid) fun r m1 h => ?_
  rcases r with err | metadata
  · exact .inl (h.1.refused err rfl)
  obtain ⟨hat1, hv1, -⟩ := h.1.taken metadata rfl
  simp only [errorOnly, wp_bind]
  refine hat1.call hacc fun o ho hs hh => ?_
  refine wp_weak (burnAsset_spec hs hv1) fun r s h => ?_
  rcases r with e | _
  · refine absurd (h.1 e rfl).1 (assetView_ne_none_of_supply (u := u) ?_)
    rw [hh a, supply_take, hu]
  have hat2 := hat1.done hacc ho (h.2 rfl)
  rw [hh a] at hat2
  exact .inr hat2

end

/-! ## 2. Calls -/

/-- A call that returns with `Q` or panics with `R`. -/
abbrev Ends {A : Type} (Q R : Memory → Prop) (x : Engine A) (m : Memory) : Prop :=
  wp x (fun _ m' => Q m') R m

section

open Engine

variable {B : Backend} {t : Transition} {base L : Ledger} {m : Memory} {fuel : UInt64}
  {Q R : Memory → Prop}

theorem withObject_ends {id : Identifier} {k : Ptr Object → Engine Outcome} (hQ : Q m)
    (hk : ∀ p, t.objects.lookup id = some p → Ends Q R (k p) m) :
    Ends Q R (withObject t fuel id k) m := by
  unfold withObject
  cases hid : t.objects.lookup id with
  | none => exact hQ
  | some p => exact hk p hid

/-- A check, and what it lets through. -/
theorem checked_ends {check : Engine (Option Err)} {k : Engine Outcome} {K : Prop}
    (hcheck : Calm B t base L (fun r _ => r = none → K) check m)
    (hQ : ∀ m', Same B t base L m m' → Q m') (hR : ∀ m', Same B t base L m m' → R m')
    (hk : K → ∀ m', Same B t base L m m' → Ends Q R k m') : Ends Q R (checked fuel check k) m := by
  unfold Ends checked
  rw [wp_bind]
  refine wp_mono hcheck (fun r m' h => ?_) hR
  cases r with
  | some err => exact hQ m' h.1
  | none => exact hk (h.2 rfl) m' h.1

theorem finish_ends {change : Engine (Option Err)} (h : Ends Q R change m) :
    Ends Q R (finish fuel change) m := by
  exact wp_seq h fun _ _ h => h

variable {n : Int}

/-- The amount of a call, in its cell. -/
theorem newAmount_ends {k : Ptr Int → Engine Outcome} (hat : At B t base L m)
    (hk : ∀ v m', Same B t base L m m' → m'.heap.Carries v n → Ends Q R (k v) m') :
    Ends Q R (newAmount n >>= k) m := by
  have hs := hat.world.separate
  have hquiet : m.Quiet { m with heap := { m.heap with amounts := (m.heap.amounts.alloc n).2 } } :=
    ⟨⟨.new _ n, .refl _, .refl _⟩, fun _ => rfl⟩
  have hsep : ({ m.heap with amounts := (m.heap.amounts.alloc n).2 } : Heap).Separate :=
    hs.amounts fun x hx => Cells.has_alloc.mpr (.inl hx)
  refine hk _ _ ⟨hquiet, hat.quiet hquiet hsep, fun v k hv => ⟨⟨?_, hv.loose.nowhere⟩, ?_⟩⟩
    ⟨⟨Cells.has_alloc.mpr (.inr rfl), fun q ao pl hao hx => ?_⟩, Cells.read_alloc_new⟩
  · exact Cells.has_alloc.mpr (.inl hv.loose.has)
  · exact hquiet.kept.amounts.read hv.value
  · exact Cells.not_has_alloc n
      ((hs.closed q ao hao).amounts _ (AssetOf.mem_amounts.mpr ⟨pl, hx⟩))

theorem amount_ends {v : Ptr Int} {k : Int → Engine Outcome} (hv : m.heap.Carries v n)
    (hk : Ends Q R (k n) m) : Ends Q R (amount v >>= k) m := by
  unfold Ends
  rw [wp_bind]
  unfold wp amount
  rw [hv.value]
  exact hk

end

/-- A call that ends with one of the effects on the books. -/
abbrev HasEffect {A : Type} (X : EngineEnv) (t : Transition) (base L : Ledger) (op : EngineOp)
    (linked : AssetID → Prop) (x : Engine A) (m : Memory) : Prop :=
  Ends (fun m' => ∃ L', EngineEffect linked L op L' ∧ At X.backend t base L' m') (fun _ => True) x m

section

open Engine

variable {X : EngineEnv} {t : Transition} {base L : Ledger} {op : EngineOp}
  {linked : AssetID → Prop} {m : Memory} {fuel : UInt64}
  {id benefactorID beneficiaryID participantID : Identifier} {entries : List (Bytes × Bytes)}
  {ixHash : Hash} {descriptor : AssetDescriptor}

theorem withObject_effect {k : Ptr Object → Engine Outcome} (hat : At X.backend t base L m)
    (hk : ∀ p, t.objects.lookup id = some p → HasEffect X t base L op linked (k p) m) :
    HasEffect X t base L op linked (withObject t fuel id k) m :=
  withObject_ends ⟨L, .same op, hat⟩ hk

theorem checked_effect {check : Engine (Option Err)} {k : Engine Outcome} {K : Prop}
    (hcheck : Calm X.backend t base L (fun r _ => r = none → K) check m)
    (hk : K → ∀ m', Same X.backend t base L m m' → HasEffect X t base L op linked k m') :
    HasEffect X t base L op linked (checked fuel check k) m :=
  checked_ends hcheck (fun _ h => ⟨L, .same op, h.books⟩) (fun _ _ => trivial) hk

/-- A change that is refused or has the effect. -/
theorem HasEffect.of_or {change : Engine (Option Err)} {L' : Ledger}
    (h : wp change (fun _ m' => At X.backend t base L m' ∨ At X.backend t base L' m')
      (fun _ => True) m) (he : EngineEffect linked L op L') :
    HasEffect X t base L op linked change m := by
  refine wp_post h fun _ m' h => ?_
  rcases h with h | h
  · exact ⟨L, .same op, h⟩
  · exact ⟨L', he, h⟩

/-- A method whose error leaves everything, and what it does otherwise. -/
theorem errorOnly_effect {x : Method (Except Err Unit)} {p : Ptr Object} (a : AssetID)
    (V : Ptr Int → Prop) (P : Holding → Prop) (hat : At X.backend t base L m)
    (hid : t.objects.lookup id = some p)
    (hx : ∀ s : Receiver, s.Sound → s.heap = m.heap → s.holding X.backend a = L id a → wp x
      (fun r s' =>
        (∀ e, r = .error e → Done X.backend a Nowhere Nowhere s (s.holding X.backend a) s') ∧
        (r = .ok () → ∃ H, P H ∧ Done X.backend a V Nowhere s H s')) (fun _ => True) s)
    (he : ∀ H, P H → EngineEffect linked L op (L.set id a H)) :
    HasEffect X t base L op linked (errorOnly (call p x)) m := by
  unfold HasEffect Ends errorOnly
  rw [wp_bind]
  refine hat.call hid fun o ho hs hh => ?_
  refine wp_weak (hx ⟨o, m.heap⟩ hs rfl (hh a)) fun r s h => ?_
  rcases r with e | u
  · exact ⟨L, .same op, hat.unchanged hid ho (h.1 e rfl)⟩
  obtain ⟨H, hH, hdone⟩ := h.2 rfl
  exact ⟨_, he H hH, hat.done hid ho hdone⟩

variable {a : AssetID} {tok : TokenID} {n : Int} {v : Ptr Int} {access : Access}

section

variable (hat : At X.backend t base L m)
include hat

variable {operatorID : Identifier} {isStatic : Bool}

/-- `Transfer`. -/
theorem transfer_effect {now : UInt64} (hv : m.heap.Carries v n) :
    HasEffect X t base L (.transfer a tok operatorID benefactorID beneficiaryID n access) linked
      (transfer X t now a tok operatorID benefactorID beneficiaryID v access) m := by
  refine amount_ends hv ?_
  refine withObject_effect hat fun operator hop => withObject_effect hat fun beneficiary hben => ?_
  rcases sargaObject X t with _ | _
  · exact ⟨L, .same _, hat⟩
  by_cases hnil : benefactorID = nilIdentifier
  · simp only [if_pos hnil]
    subst hnil
    refine checked_effect (validateAssetTransfer_calm hat hop hben) fun hK m1 hsame => ?_
    obtain ⟨-, hpos, k, hk, hle⟩ := hK
    refine finish_ends (HasEffect.of_or (creditTo_at hben ?_) (.transfer hpos hk hle))
    exact wp_post (subBalance_at hsame.books (hsame.carries v n hv) hop) fun _ _ h => h.1
  simp only [if_neg hnil]
  refine withObject_effect hat fun benefactor hfac => ?_
  refine checked_effect (validateAssetConsume_calm hat hben hfac) fun hK m1 hsame => ?_
  obtain ⟨-, ⟨k, hk, hle⟩, _, hk', hle'⟩ := hK
  refine finish_ends (HasEffect.of_or (creditTo_at hben ?_) (.consume hnil hk' hle' hk hle))
  exact consumeMandate_at hsame.books (hsame.carries v n hv) hfac hk

/-- Metadata leaves the books. -/
theorem setTokenMetaData_same {key val : Bytes} :
    wp (setTokenMetaData X t isStatic a participantID tok key val access)
      (fun _ m' => At X.backend t base L m') (fun _ => True) m := by
  unfold setTokenMetaData
  by_cases hacc : hasMutateAccess access [participantID] = true
  case neg =>
    rw [if_neg hacc]
    exact hat
  rw [if_pos hacc]
  rcases hid : t.objects.lookup participantID with _ | p
  · exact hat
  simp only [errorOnly, wp_bind]
  refine hat.call hid fun o ho hs hh => ?_
  refine wp_weak (setTokenMetadata_spec hs) fun r s h => ?_
  have hat' := hat.unchanged hid ho h
  cases r <;> exact hat'

theorem setAllTokenMetaData_same :
    wp (setAllTokenMetaData X t a participantID tok access entries)
      (fun _ m' => At X.backend t base L m') (fun _ => True) m := by
  induction entries generalizing m with
  | nil => exact hat
  | cons e rest ih =>
    refine wp_seq (setTokenMetaData_same hat) fun r m' hat' => ?_
    cases r with
    | some err => exact hat'
    | none => exact ih hat'

/-- `Mint`. -/
theorem mint_effect {senderID : Identifier} (hv : m.heap.Carries v n)
    (hlinked : ∀ b, linked b ↔ m.Linked t b) :
    HasEffect X t base L (.mint a tok senderID beneficiaryID n entries access) linked
      (mint X t a tok senderID beneficiaryID v entries access) m := by
  refine amount_ends hv ?_
  refine withObject_effect hat fun beneficiary hben => withObject_effect hat fun assetacc hacc => ?_
  refine checked_effect (validateAssetMint_calm hat hacc) fun hK m1 hsame => ?_
  obtain ⟨-, hpos, u, hu, hmax⟩ := hK
  refine wp_seq (mintAsset_at hsame.books (hsame.carries v n hv) hben hacc)
    fun r m2 h => ?_
  have hl : linked a ↔ m1.Linked t a := (hlinked a).trans (hsame.quiet.linked a).symm
  rcases r with _ | err
  swap
  · exact ⟨L, .same _, h.1 err rfl⟩
  simp only [finish, wp_bind]
  by_cases hla : linked a
  · refine wp_post (setAllTokenMetaData_same ((h.2 rfl).1 (hl.mp hla)))
      fun _ m3 hat3 => ?_
    exact ⟨_, .mint hpos hu hmax hla, hat3⟩
  · refine wp_post (setAllTokenMetaData_same ((h.2 rfl).2 fun h => hla (hl.mpr h)))
      fun _ m3 hat3 => ?_
    exact ⟨_, .mintUnseen hpos hla, hat3⟩

/-- `Burn`. -/
theorem burn_effect (hv : m.heap.Carries v n) :
    HasEffect X t base L (.burn a tok benefactorID n access) linked
      (burn X t a tok benefactorID v access) m := by
  refine amount_ends hv ?_
  refine withObject_effect hat fun benefactor hfac => withObject_effect hat fun assetacc hacc => ?_
  refine checked_effect (validateAssetBurn_calm hat hfac hacc) fun hK m1 hsame => ?_
  obtain ⟨-, ⟨u, hu⟩, hpos, k, hk, hle⟩ := hK
  exact finish_ends (HasEffect.of_or (burnAsset_at hsame.books (hsame.carries v n hv) hfac hacc hu)
    (.burn hpos hu hk hle))

/-- `Approve`. -/
theorem approve_effect {expiresAt : UInt64} (hv : m.heap.Carries v n) :
    HasEffect X t base L (.approve a tok benefactorID beneficiaryID n expiresAt access) linked
      (approve X t a tok benefactorID beneficiaryID v expiresAt access) m := by
  refine amount_ends hv (withObject_effect hat fun benefactor hfac => ?_)
  refine checked_effect (validateAssetApprove_calm hat hfac) fun hK m1 hsame => finish_ends ?_
  refine errorOnly_effect a (· = v) ((L benefactorID a).Approved beneficiaryID tok n) hsame.books
    hfac (fun s hs hheap hh => ?_) fun H hH => .approve hK.2 hH
  refine wp_weak (createMandate_spec hs (hheap ▸ hsame.carries v n hv)) fun r s' h => ?_
  exact ⟨h.1, fun hr => hh ▸ h.2 hr⟩

/-- `Revoke`. -/
theorem revoke_effect :
    HasEffect X t base L (.revoke a tok benefactorID beneficiaryID access) linked
      (revoke X t a tok benefactorID beneficiaryID access) m := by
  refine withObject_effect hat fun benefactor hfac => ?_
  refine checked_effect (validateAssetRevoke_calm hat hfac) fun _ m1 hsame => finish_ends ?_
  refine errorOnly_effect a Nowhere (· = (L benefactorID a).revoke beneficiaryID tok) hsame.books
    hfac (fun s hs _ hh => ?_) fun H hH => hH ▸ .revoke
  refine wp_weak (deleteMandate_spec hs) fun r s' h => ?_
  exact ⟨h.1, fun hr => ⟨_, hh ▸ rfl, h.2 hr⟩⟩

/-- `Lockup`. -/
theorem lockup_effect (hv : m.heap.Carries v n) :
    HasEffect X t base L (.lockup a tok benefactorID beneficiaryID n access) linked
      (lockup X t a tok benefactorID beneficiaryID v access) m := by
  refine amount_ends hv (withObject_effect hat fun benefactor hfac => ?_)
  refine checked_effect (validateAssetLockup_calm hat hfac) fun hK m1 hsame => finish_ends ?_
  obtain ⟨-, hpos, k, hk, hle⟩ := hK
  refine errorOnly_effect a (· = v)
    (· = ((L benefactorID a).take (.balance tok) n).lock beneficiaryID tok n) hsame.books hfac
    (fun s hs hheap hh => ?_) fun H hH => ?_
  · refine wp_weak (createLockup_spec hs (hheap ▸ hsame.carries v n hv)) fun r s' h => ?_
    exact ⟨h.1, fun hr => ⟨_, hh ▸ rfl, h.2 hr⟩⟩
  have he : EngineEffect linked L (.lockup a tok benefactorID beneficiaryID n access) _ :=
    .lockup hpos hk hle
  unfold lock take at he
  rw [set_same, set_set, ← hH] at he
  exact he

/-- `Release`. -/
theorem release_effect (hv : m.heap.Carries v n) :
    HasEffect X t base L (.release a tok operatorID benefactorID beneficiaryID n access) linked
      (release X t a tok operatorID benefactorID beneficiaryID v access) m := by
  refine amount_ends hv ?_
  refine withObject_effect hat fun benefactor hfac =>
    withObject_effect hat fun beneficiary hben => ?_
  refine checked_effect (validateAssetRelease_calm hat hfac) fun hK m1 hsame => ?_
  obtain ⟨-, k, hk, hle⟩ := hK
  have hchange : HasEffect X t base L
      (.release a tok operatorID benefactorID beneficiaryID n access) linked
      (releaseAsset X operatorID benefactor beneficiary a tok v) m1 :=
    .of_or (creditTo_at hben (releaseLockup_at hsame.books (hsame.carries v n hv) hfac))
      (.release hk hle)
  refine wp_seq hchange fun r m2 h => ?_
  cases r <;> exact h

/-- `SetStaticMetaData`, `SetDynamicMetaData`. -/
theorem setMetaData_effect {key val : Bytes} :
    HasEffect X t base L (.setMetaData isStatic a participantID key val access) linked
      (setMetaData X t isStatic a participantID key val access) m := by
  refine withObject_effect hat fun object hacc => ?_
  refine checked_effect (validateSetMetaData_calm hat hacc) fun _ m1 hsame => finish_ends ?_
  simp only [errorOnly, Ends, wp_bind]
  refine hsame.books.call hacc fun o ho hs hh => ?_
  refine wp_weak (setAssetMetadata_spec hs) fun r s h => ?_
  have hat' := hsame.books.unchanged hacc ho h
  cases r <;> exact ⟨L, .same _, hat'⟩

end

theorem addAccountGenesisInfo_outside (id : Identifier) (ixHash : Hash) :
    Outside (Object.addAccountGenesisInfo X id ixHash) := by
  unfold Object.addAccountGenesisInfo
  cases X.genesisInfo ixHash with
  | error e => exact .pure _
  | ok rawData => exact Object.fixes_setStorageEntry (fun _ _ _ => rfl) _ _ _

section

variable (hat : At X.backend t base L m)
include hat

theorem registerAccount_calm {sarga : Ptr Object} :
    Calm X.backend t base L (fun _ _ => True) (registerAccount X sarga ixHash id) m := by
  refine (Calm.outside hat (isAccountRegistered_outside id)).bind fun r m1 hat1 _ => ?_
  rcases r with _ | known
  · exact .pure hat1 trivial
  cases known with
  | true => exact .pure hat1 trivial
  | false => exact .outside hat1 (addAccountGenesisInfo_outside id ixHash)

/-- Flags and identifiers of whatever objects. -/
theorem isGenesis_calm : Calm X.backend t base L (fun _ _ => True) (isGenesis t id) m := by
  have hthis : ∀ {A : Type} (f : Object → A), Outside (do return f (← Object.this)) :=
    fun f => .bind Object.fixes_this fun _ => .pure _
  have hobject : ∀ m', At X.backend t base L m' →
      Calm X.backend t base L (fun _ _ => True) (objectIsGenesis t id) m' := by
    intro m' hat'
    unfold objectIsGenesis
    cases t.objects.lookup id with
    | none => exact .refl hat'
    | some p => exact .outside hat' (hthis _)
  unfold isGenesis
  rcases t.systemObject with _ | p
  · exact hobject m hat
  have hid : Calm X.backend t base L (fun _ _ => True) (identifier p) m := .outside hat (hthis _)
  refine hid.bind fun r m1 hat1 _ => ?_
  by_cases hr : r = id
  · rw [if_pos hr]
    exact .outside hat1 (hthis _)
  · rw [if_neg hr]
    exact hobject m1 hat1

theorem addNewAccountsToSargaAccount_calm {ids : List Identifier} :
    Calm X.backend t base L (fun _ _ => True) (addNewAccountsToSargaAccount X t ixHash ids) m := by
  induction ids generalizing m with
  | nil => exact .pure hat trivial
  | cons id rest ih =>
    refine (isGenesis_calm hat).bind fun r m1 hat1 _ => ?_
    rcases r with _ | _
    · exact ih hat1
    rcases t.objects.lookup X.ids.sargaAccountID with _ | _
    · exact .pure hat1 trivial
    refine (registerAccount_calm hat1).bind fun r m2 hat2 _ => ?_
    cases r with
    | some err => exact .pure hat2 trivial
    | none => exact ih hat2

/-- `createAsset`: the record is put into the transaction of its account, which had none. -/
theorem registerAsset_effect {sender assetacc : Ptr Object}
    (hacc : t.objects.lookup descriptor.assetID = some assetacc) :
    HasEffect X t base L (.createAsset ixHash descriptor) linked
      (registerAsset X sender assetacc { descriptor with circulatingSupply := 0 }) m := by
  unfold HasEffect Ends registerAsset
  rw [wp_bind]
  refine hat.call hacc fun o ho hs hh => ?_
  refine wp_total (createAsset_spec hs) fun r s h => ?_
  rcases r with _ | err
  swap
  · exact ⟨L, .same _, hat.unchanged hacc ho (h.1 err rfl)⟩
  obtain ⟨hempty, hdone⟩ := h.2 rfl
  have hat1 := hat.done hacc ho hdone
  have hdeeds : Outside (Object.createDeedsEntry X.backend descriptor.assetID) :=
    Object.fixes_createDeedsEntry (fun _ _ => rfl) _
  refine wp_weak (Calm.outside (p := sender) hat1 hdeeds) fun _ m' h => ?_
  exact ⟨_, .create ((hh _).symm.trans hempty), h.1.books⟩

/-- `CreateAsset`. -/
theorem createAsset_effect :
    HasEffect X t base L (.createAsset ixHash descriptor) linked
      (createAsset X t ixHash descriptor) m := by
  refine withObject_effect hat fun sender _ => withObject_effect hat fun assetacc hacc => ?_
  have hregister : HasEffect X t base L (.createAsset ixHash descriptor) linked
      (registerAsset X sender assetacc { descriptor with circulatingSupply := 0 }) m :=
    registerAsset_effect hat hacc
  refine wp_seq hregister fun r m1 h => ?_
  obtain ⟨L', he, hat1⟩ := h
  cases r with
  | some err => exact ⟨L', he, hat1⟩
  | none =>
    simp only [finish, wp_bind]
    refine wp_weak (identifier_calm hat1 hacc) fun id m2 h2 => ?_
    refine wp_weak (addNewAccountsToSargaAccount_calm h2.1.books) fun _ m3 h3 => ?_
    exact ⟨L', he, h3.1.books⟩

end

/-- **The engine meets its specification.** -/
theorem EngineOp.effect (op : EngineOp) (now : UInt64) (hat : At X.backend t base L m) :
    HasEffect X t base L op (m.Linked t) (op.run X now t) m := by
  cases op with
  | createAsset ixHash descriptor => exact createAsset_effect hat
  | transfer a tok operatorID benefactorID beneficiaryID value access =>
    exact newAmount_ends hat fun v m' h hv => transfer_effect h.books hv
  | mint a tok senderID beneficiaryID value entries access =>
    exact newAmount_ends hat fun v m' h hv =>
      mint_effect h.books hv fun b => (h.quiet.linked b).symm
  | burn a tok benefactorID value access =>
    exact newAmount_ends hat fun v m' h hv => burn_effect h.books hv
  | approve a tok benefactorID beneficiaryID value expiresAt access =>
    exact newAmount_ends hat fun v m' h hv => approve_effect h.books hv
  | revoke a tok benefactorID beneficiaryID access => exact revoke_effect hat
  | lockup a tok benefactorID beneficiaryID value access =>
    exact newAmount_ends hat fun v m' h hv => lockup_effect h.books hv
  | release a tok operatorID benefactorID beneficiaryID value access =>
    exact newAmount_ends hat fun v m' h hv => release_effect h.books hv
  | setMetaData isStatic a participantID key val access => exact setMetaData_effect hat
  | setTokenMetaData isStatic a participantID tok key val access =>
    refine finish_ends (wp_mono (setTokenMetaData_same hat) (fun _ m' hat' => ?_) fun _ h => h)
    exact ⟨L, .same _, hat'⟩

end

end GoMoi
