/-
  File:      GoMoi/Syncer/BucketSync.lean
  Subject:   The account meta information of a bucket, sent in pages (`SyncBuckets` and
             `SyncBucketsSince` of `syncer/forage/sync_rpc.go`).

  `SyncBuckets` fills a page with what the database streams, and sends it when it is full or holds
  all that the count of the bucket says is pending. `SyncBucketsSince` has all entries at hand and
  cuts pages out of them, but its last message holds all of them again; the count of what is pending
  then wraps around, and the slice after it is out of range.

  What the database answers is part of a request (`BucketRequest`); nothing is assumed of it.

  * `Handled` -- the messages of a request, and how it ends;
  * **`bucketSync_iff`** -- which requests are answered with every entry once, in pages.
-/
import GoMoi.Common.Types
import Mathlib.Data.UInt

namespace GoMoi

open List

/-! ## 1. Requests and messages -/

def maxAccMetaInfoEntriesPerMsg : Nat := 50

/-- A request for a bucket, with the answers of the database to it. -/
structure BucketRequest where
  bucketID : UInt64
  /-- `GetBucketCount` -/
  bucketCount : Except Err UInt64
  /-- what `StreamAccountMetaInfosRaw` sends, and whether it closes the channel: it does not if
      there is no iterator -/
  streamed : List Bytes
  isClosed : Bool
  /-- `GetRecentUpdatedAccMetaInfosRaw`, and the room that is left in the slice -/
  recent : Except Err (List Bytes)
  spare : Nat

/-- `type BucketSyncResponse struct`, with what was pending before it. -/
structure BucketSyncResponse where
  bucketID : UInt64
  bucketCount : UInt64
  accountMetaInfos : List Bytes
  pendingCount : UInt64

inductive Ending where
  /-- the next request is read -/
  | done
  /-- an error is returned -/
  | failed (e : Err)
  | panicked
  /-- the handler waits for ever -/
  | blocked
  /-- the rounds that were given are over -/
  | running

/-- What becomes of a request. -/
structure Handled where
  sent : List BucketSyncResponse
  ending : Ending

namespace Handled

/-- A message before the others. -/
def send (m : BucketSyncResponse) (h : Handled) : Handled := { h with sent := m :: h.sent }

/-- The request is answered with every entry once, in pages, and the count does not wrap around. -/
structure SendsAll (h : Handled) (entries : List Bytes) : Prop where
  done : h.ending = .done
  once : h.sent.flatMap (·.accountMetaInfos) = entries
  pages : ∀ m ∈ h.sent, m.accountMetaInfos.length ≤ maxAccMetaInfoEntriesPerMsg
  counted : ∀ m ∈ h.sent, m.accountMetaInfos.length ≤ m.pendingCount.toNat

end Handled

namespace BucketRequest

open Handled

variable (r : BucketRequest)

/-- The message for an empty bucket. -/
def empty : Handled := send ⟨r.bucketID, 0, [], 0⟩ ⟨[], .done⟩

/-- The loop over the stream: what is pending, and the page so far. -/
def streamLoop (count : UInt64) : UInt64 → List Bytes → List Bytes → Handled
  | _, _, [] => ⟨[], if r.isClosed then .done else .blocked⟩
  | pendingCount, infos, rawData :: rest =>
    let infos := infos ++ [rawData]
    if infos.length = maxAccMetaInfoEntriesPerMsg ∨ .ofNat infos.length = pendingCount then
      let pending := pendingCount - .ofNat infos.length
      send ⟨r.bucketID, count, infos, pendingCount⟩
        (if pending = 0 then ⟨[], .done⟩ else streamLoop count pending [] rest)
    else if pendingCount = 0 then ⟨[], .done⟩
    else streamLoop count pendingCount infos rest

/-- A round of `SyncBuckets`. -/
def syncBuckets : Handled :=
  match r.bucketCount with
  | .error e => ⟨[], .failed (.wrap e "failed to fetch bucket count")⟩
  | .ok count => if count = 0 then r.empty else r.streamLoop count count [] r.streamed

/-- The loop over the entries. A slice may go on into the room after them. -/
def sinceLoop (rawData : List Bytes) : Nat → Nat → UInt64 → Handled
  | 0, _, _ => ⟨[], .running⟩
  | rounds + 1, currentPosition, pendingCount =>
    let message := fun infos : List Bytes =>
      (⟨r.bucketID, .ofNat rawData.length, infos, pendingCount⟩ : BucketSyncResponse)
    if pendingCount = 0 then ⟨[], .done⟩
    else if pendingCount ≤ .ofNat maxAccMetaInfoEntriesPerMsg then
      send (message rawData)
        (sinceLoop rawData rounds currentPosition (pendingCount - .ofNat rawData.length))
    else if rawData.length + r.spare < currentPosition + maxAccMetaInfoEntriesPerMsg then
      ⟨[], .panicked⟩
    else
      let page := ((rawData ++ replicate r.spare []).drop currentPosition).take
        maxAccMetaInfoEntriesPerMsg
      send (message page) (sinceLoop rawData rounds (currentPosition + maxAccMetaInfoEntriesPerMsg)
        (pendingCount - .ofNat page.length))

/-- A round of `SyncBucketsSince`. The rounds are enough: each message but one moves on by a
    page. -/
def syncBucketsSince : Handled :=
  match r.bucketCount with
  | .error e => ⟨[], .failed e⟩
  | .ok count =>
    if count = 0 then r.empty
    else match r.recent with
      | .error e => ⟨[], .failed (.wrap e "failed to load meta infos")⟩
      | .ok rawData =>
        if rawData.length = 0 then r.empty
        else r.sinceLoop rawData (rawData.length + r.spare + 2) 0 (.ofNat rawData.length)

/-- The entries that are to be sent. -/
def recentInfos : List Bytes := r.recent.toOption.getD []

/-- The loop over the requests; the first that does not end well ends it. -/
def serve (handle : BucketRequest → Handled) : List BucketRequest → List Handled
  | [] => []
  | r :: rest => match (handle r).ending with
    | .done => handle r :: serve handle rest
    | _ => [handle r]

/-- Every request is answered, and right. -/
def AllSent (handle : BucketRequest → Handled) (entries : BucketRequest → List Bytes)
    (reqs : List BucketRequest) : Prop :=
  Forall₂ (fun r h => SendsAll h (entries r)) reqs (serve handle reqs)

/-- **A call is right exactly if each request is.** -/
theorem allSent_iff {handle : BucketRequest → Handled} {entries : BucketRequest → List Bytes}
    (reqs : List BucketRequest) :
    AllSent handle entries reqs ↔ ∀ r ∈ reqs, SendsAll (handle r) (entries r) := by
  induction reqs with
  | nil => simp [AllSent, serve]
  | cons r rest ih =>
    rw [forall_mem_cons, ← ih, AllSent, serve]
    cases hend : (handle r).ending with
    | done => exact forall₂_cons
    | _ =>
      refine iff_of_false (fun h => ?_) fun h => ?_
      · cases hend ▸ (forall₂_cons.mp h).1.done
      · cases hend ▸ h.1.done

/-! ## 2. `SyncBuckets` -/

variable {r} {infos rawData : List Bytes} {count pendingCount : UInt64}

theorem sendsAll_done {entries : List Bytes} : SendsAll ⟨[], .done⟩ entries ↔ entries = [] := by
  refine ⟨fun h => h.once.symm, ?_⟩
  rintro rfl
  exact ⟨rfl, rfl, by simp, by simp⟩

theorem sendsAll_send {m : BucketSyncResponse} {h : Handled} {entries : List Bytes}
    (hpage : m.accountMetaInfos.length ≤ maxAccMetaInfoEntriesPerMsg)
    (hcount : m.accountMetaInfos.length ≤ m.pendingCount.toNat) :
    SendsAll (send m h) (m.accountMetaInfos ++ entries) ↔ SendsAll h entries := by
  constructor
  · intro hs
    refine ⟨hs.done, ?_, fun x hx => hs.pages x (mem_cons_of_mem _ hx),
      fun x hx => hs.counted x (mem_cons_of_mem _ hx)⟩
    exact append_cancel_left hs.once
  · intro hs
    refine ⟨hs.done, congrArg (m.accountMetaInfos ++ ·) hs.once, ?_, ?_⟩
    · exact forall_mem_cons.mpr ⟨hpage, hs.pages⟩
    · exact forall_mem_cons.mpr ⟨hcount, hs.counted⟩

theorem sendsAll_empty {entries : List Bytes} : SendsAll r.empty entries ↔ entries = [] :=
  (sendsAll_send (Nat.zero_le _) (Nat.zero_le _)).trans sendsAll_done

/-- What is left of `n` entries, of which `pending` are expected, comes in full pages. -/
def Paged (pending n : Nat) (isClosed : Bool) : Prop :=
  n = pending ∨ n < pending ∧ maxAccMetaInfoEntriesPerMsg ∣ n ∧ isClosed = true

section

variable (hpage : infos.length < maxAccMetaInfoEntriesPerMsg)
  (hpending : infos.length < pendingCount.toNat)
include hpage hpending

/-- The two counts, with one more entry. -/
theorem toNat_counts (x : Bytes) :
    (UInt64.ofNat (infos ++ [x]).length).toNat = infos.length + 1 ∧
      (pendingCount - .ofNat (infos ++ [x]).length).toNat =
        pendingCount.toNat - (infos.length + 1) := by
  have hnat : (UInt64.ofNat (infos ++ [x]).length).toNat = infos.length + 1 := by
    rw [length_append, length_singleton,
      UInt64.toNat_ofNat_of_lt' (Nat.lt_of_le_of_lt hpage (by decide))]
  have hle : UInt64.ofNat (infos ++ [x]).length ≤ pendingCount := by
    rw [UInt64.le_iff_toNat_le, hnat]
    exact hpending
  exact ⟨hnat, hnat ▸ UInt64.toNat_sub_of_le _ _ hle⟩

/-- **The loop over the stream**: with a page that is neither full nor all that is pending. -/
theorem streamLoop_iff :
    SendsAll (r.streamLoop count pendingCount infos rawData) (infos ++ rawData) ↔
      Paged pendingCount.toNat (infos ++ rawData).length r.isClosed := by
  induction rawData generalizing infos pendingCount with
  | nil =>
    rw [append_nil, streamLoop, Paged]
    unfold maxAccMetaInfoEntriesPerMsg at hpage ⊢
    cases r.isClosed with
    | false =>
      refine iff_of_false (fun h => ?_) (by simp; omega)
      cases h.done
    | true =>
      rw [if_pos rfl, sendsAll_done, ← length_eq_zero_iff]
      simp only [and_true]
      omega
  | cons x rest ih =>
    have hlen : (infos ++ [x]).length = infos.length + 1 := length_append
    obtain ⟨hnat, hsub⟩ := toNat_counts hpage hpending x
    have happend : infos ++ x :: rest = (infos ++ [x]) ++ rest := by simp
    have htotal : (infos ++ x :: rest).length = infos.length + 1 + rest.length := by
      rw [happend, length_append, hlen]
    rw [streamLoop]
    by_cases hfull : (infos ++ [x]).length = maxAccMetaInfoEntriesPerMsg ∨
        UInt64.ofNat (infos ++ [x]).length = pendingCount
    · -- the page is sent
      have hpg : (infos ++ [x]).length ≤ maxAccMetaInfoEntriesPerMsg := hlen ▸ hpage
      have hpd : (infos ++ [x]).length ≤ pendingCount.toNat := hlen ▸ hpending
      rw [if_pos hfull, htotal, happend, sendsAll_send hpg hpd]
      by_cases hzero : pendingCount - UInt64.ofNat (infos ++ [x]).length = 0
      · have hnone : pendingCount.toNat - (infos.length + 1) = 0 :=
          hsub.symm.trans (congrArg UInt64.toNat hzero)
        rw [if_pos hzero, sendsAll_done, ← length_eq_zero_iff, Paged]
        omega
      · have hpos : 0 < (pendingCount - UInt64.ofNat (infos ++ [x]).length).toNat :=
          Nat.pos_of_ne_zero fun h => hzero (UInt64.toNat_inj.mp h)
        have heq : infos.length + 1 = maxAccMetaInfoEntriesPerMsg := by
          rcases hfull with h | h
          · rw [← hlen, h]
          · have := hnat.symm.trans (congrArg UInt64.toNat h)
            omega
        have h := @ih [] (pendingCount - UInt64.ofNat (infos ++ [x]).length) (by decide) hpos
        rw [nil_append] at h
        rw [if_neg hzero, h, hsub, heq, Paged, Paged, Nat.dvd_add_right dvd_rfl]
        refine or_congr ?_ (and_congr_left' ?_) <;> omega
    · obtain ⟨hpage', hne⟩ := not_or.mp hfull
      have hne' : infos.length + 1 ≠ pendingCount.toNat := fun h =>
        hne (UInt64.toNat_inj.mp (hnat.trans h))
      have hzero : pendingCount ≠ 0 := by
        rintro rfl
        exact Nat.not_lt_zero _ hpending
      rw [if_neg hfull, if_neg hzero, happend]
      exact ih (by omega) (by omega)

end

/-- What a request must find: the count is that of the entries, or the stream ends with a full page
    before it is reached. -/
def Counted (r : BucketRequest) : Prop :=
  ∃ count, r.bucketCount = .ok count ∧ (count = 0 → r.streamed = []) ∧
    (count ≠ 0 → Paged count.toNat r.streamed.length r.isClosed)

theorem syncBuckets_iff (r : BucketRequest) : SendsAll r.syncBuckets r.streamed ↔ r.Counted := by
  unfold syncBuckets Counted
  rcases r.bucketCount with e | count
  · refine iff_of_false (fun h => ?_) (by simp)
    cases h.done
  by_cases hzero : count = 0
  · simp [hzero, sendsAll_empty]
  have hpos : 0 < count.toNat := Nat.pos_of_ne_zero fun h => hzero (UInt64.toNat_inj.mp h)
  have h := @streamLoop_iff r [] r.streamed count count (by decide) hpos
  rw [nil_append] at h
  simp [hzero, h]

/-! ## 3. `SyncBucketsSince` -/

/-- **A loop that comes to its end has sent all entries in one message.** -/
theorem sinceLoop_whole {rounds currentPosition : Nat} (hpos : pendingCount ≠ 0)
    (h : (r.sinceLoop rawData rounds currentPosition pendingCount).ending = .done) :
    ∃ m ∈ (r.sinceLoop rawData rounds currentPosition pendingCount).sent,
      m.accountMetaInfos = rawData := by
  induction rounds generalizing currentPosition pendingCount with
  | zero => cases h
  | succ rounds ih =>
    rw [sinceLoop, if_neg hpos] at h ⊢
    by_cases hlast : pendingCount ≤ .ofNat maxAccMetaInfoEntriesPerMsg
    · rw [if_pos hlast]
      exact ⟨_, mem_cons_self, rfl⟩
    rw [if_neg hlast] at h ⊢
    by_cases hrange : rawData.length + r.spare < currentPosition + maxAccMetaInfoEntriesPerMsg
    · rw [if_pos hrange] at h
      cases h
    rw [if_neg hrange] at h ⊢
    have hpage : (((rawData ++ replicate r.spare []).drop currentPosition).take
        maxAccMetaInfoEntriesPerMsg).length = maxAccMetaInfoEntriesPerMsg := by
      rw [length_take, length_drop, length_append, length_replicate]
      omega
    dsimp only at h ⊢
    rw [hpage] at h ⊢
    have hpos' : pendingCount - .ofNat maxAccMetaInfoEntriesPerMsg ≠ 0 := fun h0 =>
      hlast (UInt64.le_of_eq (sub_eq_zero.mp h0))
    obtain ⟨m, hm, heq⟩ := ih hpos' h
    exact ⟨m, mem_cons_of_mem _ hm, heq⟩

/-- What a request must find: one page of entries at most, and none where the bucket counts none. -/
def OnePage (r : BucketRequest) : Prop :=
  ∃ count, r.bucketCount = .ok count ∧ (count = 0 → r.recentInfos = []) ∧
    (count ≠ 0 → ∃ rawData, r.recent = .ok rawData ∧
      rawData.length ≤ maxAccMetaInfoEntriesPerMsg)

theorem sinceLoop_iff (rounds : Nat) (hne : rawData.length ≠ 0) :
    SendsAll (r.sinceLoop rawData (rounds + 2) 0 (.ofNat rawData.length)) rawData ↔
      rawData.length ≤ maxAccMetaInfoEntriesPerMsg := by
  constructor
  · intro h
    by_contra hlen
    by_cases hzero : UInt64.ofNat rawData.length = 0
    · rw [sinceLoop, if_pos hzero] at h
      exact hne (congrArg length h.once.symm)
    obtain ⟨m, hm, heq⟩ := sinceLoop_whole hzero h.done
    exact hlen (heq ▸ h.pages m hm)
  · intro hlen
    have hnat : (UInt64.ofNat rawData.length).toNat = rawData.length := by
      refine UInt64.toNat_ofNat_of_lt' (Nat.lt_of_le_of_lt hlen ?_)
      decide
    have hpos : UInt64.ofNat rawData.length ≠ 0 := fun h =>
      hne (hnat.symm.trans (congrArg UInt64.toNat h))
    have hle : UInt64.ofNat rawData.length ≤ .ofNat maxAccMetaInfoEntriesPerMsg := by
      rw [UInt64.le_iff_toNat_le, hnat]
      exact hlen
    rw [sinceLoop, if_neg hpos, if_pos hle, UInt64.sub_self, sinceLoop, if_pos rfl]
    have h := @sendsAll_send ⟨r.bucketID, .ofNat rawData.length, rawData, .ofNat rawData.length⟩
      ⟨[], .done⟩ [] hlen hnat.ge
    rw [append_nil] at h
    exact h.mpr (sendsAll_done.mpr rfl)

theorem syncBucketsSince_iff (r : BucketRequest) :
    SendsAll r.syncBucketsSince r.recentInfos ↔ r.OnePage := by
  unfold syncBucketsSince OnePage recentInfos
  rcases r.bucketCount with e | count
  · refine iff_of_false (fun h => ?_) (by simp)
    cases h.done
  by_cases hzero : count = 0
  · simp [hzero, sendsAll_empty]
  rcases r.recent with e | rawData
  · refine iff_of_false (fun h => ?_) (by simp [hzero])
    simp only [if_neg hzero] at h
    cases h.done
  by_cases hne : rawData.length = 0
  · simp [hzero, length_eq_zero_iff.mp hne, sendsAll_empty, Except.toOption]
  have h := sinceLoop_iff (r := r) (rawData.length + r.spare) hne
  simp [hzero, hne, h, Except.toOption]

/-! ## 4. Calls -/

/-- **The two calls.** For every list of requests and every answers of the database: `SyncBuckets`
    sends the entries that are streamed once each, in pages, exactly if every request finds a count
    that fits them, and `SyncBucketsSince` exactly if every request finds one page at most. -/
theorem bucketSync_iff (reqs : List BucketRequest) :
    (AllSent syncBuckets streamed reqs ↔ ∀ r ∈ reqs, r.Counted) ∧
    (AllSent syncBucketsSince recentInfos reqs ↔ ∀ r ∈ reqs, r.OnePage) := by
  refine ⟨?_, ?_⟩
  · rw [allSent_iff]
    exact forall₂_congr fun r _ => syncBuckets_iff r
  · rw [allSent_iff]
    exact forall₂_congr fun r _ => syncBucketsSince_iff r

/-- A bucket of 51 entries. -/
def overOnePage : BucketRequest :=
  ⟨3, .ok 51, replicate 51 [7], true, .ok (replicate 51 [7]), 13⟩

/-- **The second message holds all entries again**, and the slice after it is out of range. -/
theorem page_sent_again :
    overOnePage.syncBucketsSince.sent.map (·.accountMetaInfos.length) = [50, 51] ∧
    overOnePage.syncBucketsSince.ending = .panicked ∧
    ¬ AllSent syncBucketsSince recentInfos [overOnePage] := by
  refine ⟨by decide +kernel, by rfl, fun h => ?_⟩
  have hsent := (allSent_iff _).mp h overOnePage mem_cons_self
  cases hsent.done

end BucketRequest

end GoMoi
