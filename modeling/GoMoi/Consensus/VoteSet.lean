/-
  File:      GoMoi/Consensus/VoteSet.lean
  Subject:   The vote set of `consensus/types/voteset.go` and the quorum cache of the cluster
             state, as the code computes them.

  A vote set collects the votes of one view and type. Individual votes come in through `AddVote`,
  whole certificates through `AddQc`; both end in `addVerifiedVote`, which keeps at most one vote
  for each flat index, credits the slots of that index and, when the credits first reach the
  quorum, freezes the hash and the aggregate signature of the majority.

  * `VoteSet.Event`, `VoteSet.Step` -- the calls as the events of a state machine. A call that
    panics has no successor.

  Voting powers and heights are left out; no function below reads them.
-/
import GoMoi.Consensus.NodeSet
import GoMoi.Crypto.Vault
import GoMoi.Lib.Tally
import GoMoi.Lib.Run

namespace GoMoi

/-! ## 1. Votes and the cluster state -/

/-- `type Vote struct`, without its time stamp. -/
structure Vote where
  type : ConsensusMsgType
  isQC : Bool
  view : UInt64
  signerIndex : Int32
  tsHash : Hash
  signerIndices : Option ArrayOfBits
  signature : Bytes
  deriving DecidableEq, Repr

/-- `CanonicalVote` of a vote: the signer index is not part of it. -/
def Vote.canonical (v : Vote) : CanonicalVote := ⟨v.type, v.view, v.tsHash⟩

/-- `Vote.SignBytes`. -/
def Vote.signBytes (C : Codec) (v : Vote) : Except Err Bytes :=
  match C.polorizeVote v.canonical with
  | .error e => .error (.wrap e "failed to polorize vote")
  | .ok raw => .ok raw

/-- The part of `type ClusterState struct` that vote sets read. -/
structure ClusterState where
  committee : ICSCommittee
  quorum : Option (List UInt32)

namespace ICSCommittee

/-- The loop of `GetQuorum`: zero for an excluded set. -/
def quorums (c : ICSCommittee) : Go (List UInt32) := do
  let context ← (List.range (c.size - 1)).mapM fun i => do
    if ← c.isExcluded i then pure 0 else c.participantQuorum i
  let random ← c.randomQuorumSize
  pure (context ++ [random])

end ICSCommittee

namespace ClusterState

/-- `NewICS`, as far as it concerns the committee. -/
def new (committee : ICSCommittee) : ClusterState := ⟨committee, none⟩

/-- `GetQuorum`. -/
def getQuorum (cs : ClusterState) : Go (ClusterState × List UInt32) :=
  match cs.quorum with
  | some q => pure (cs, q)
  | none => do
    let q ← cs.committee.quorums
    pure ({ cs with quorum := some q }, q)

/-- `GetByIndex`; an empty KramaID stands for an index that does not resolve. -/
def getByIndex (cs : ClusterState) (index : Int) : KramaID × Bytes :=
  match cs.committee.getKramaID index with
  | none => ([], [])
  | some k => (k.kramaID, k.publicKey)

end ClusterState

/-! ## 2. The vote set -/

/-- `type VoteSet struct`. -/
structure VoteSet where
  view : UInt64
  voteType : ConsensusMsgType
  sum : List UInt32
  votes : List (Option Vote)
  votesBitArray : Option ArrayOfBits
  maj23TsHash : Option Hash
  maj23aggSignature : Bytes
  deriving DecidableEq, Repr

namespace VoteSet

/-- `NewVoteSet`. -/
def new (view : UInt64) (voteType : ConsensusMsgType) (cs : ClusterState) : VoteSet where
  view := view
  voteType := voteType
  sum := List.replicate cs.committee.size 0
  votes := List.replicate cs.committee.totalNodes none
  votesBitArray := ArrayOfBits.new cs.committee.totalNodes
  maj23TsHash := none
  maj23aggSignature := []

/-- `SuperMajority`. -/
def superMajority (vs : VoteSet) : Hash × Bool :=
  match vs.maj23TsHash with
  | some h => (h, true)
  | none => (nilHash, false)

/-- `HasMajority`. -/
def hasMajority (vs : VoteSet) : Bool := vs.maj23TsHash.isSome

/-- `updateSum`. -/
def updateSum (sum : List UInt32) (slots : List Nat) : Go (List UInt32) :=
  if slots.all (· < sum.length) then .ok (bump sum slots) else .error .indexOutOfRange

/-- `areGreater`: no counter is below its threshold. -/
def areGreater : List UInt32 → List UInt32 → Go Bool
  | [], _ => pure true
  | _ :: _, [] => .error .indexOutOfRange
  | value :: values, q :: qs => if value < q then pure false else areGreater values qs

/-- `vs.votes[index].Signature`. -/
def storedSignature (vs : VoteSet) (index : Nat) : Go Bytes := do
  let v ← Go.deref (← sliceAt vs.votes index)
  pure v.signature

/-- `aggregateSignatures`: the signatures stored at the set indices. -/
def aggregateSignatures (P : Primitives) (vs : VoteSet) : Go (Bytes × Option Err) := do
  let bits ← Go.deref vs.votesBitArray
  let indices ← bits.getTrueIndices
  let sigs ← indices.mapM vs.storedSignature
  Crypto.aggregateSignatures P sigs

/-- The vote stored, the index set and its slots credited. -/
def record (vs : VoteSet) (vote : Vote) (valIndex : Nat) (slots : List Nat) : Go VoteSet := do
  -- `SetIndex` of a `nil` array does nothing
  let bits ← match vs.votesBitArray with
    | none => pure none
    | some b => do
      let (b, _) ← b.setIndex valIndex true
      pure (some b)
  let sum ← updateSum vs.sum slots
  pure { vs with votes := vs.votes.set valIndex (some vote), votesBitArray := bits, sum := sum }

/-- The aggregate frozen with a majority: a certificate's own signature, or the aggregate of what
    is stored. A failed aggregation is logged and leaves `nil`. -/
def majoritySignature (P : Primitives) (vs : VoteSet) (vote : Vote) (isQc : Bool) : Go Bytes :=
  if isQc then pure vote.signature
  else do
    let (aggSig, _) ← vs.aggregateSignatures P
    pure aggSig

/-- `addVerifiedVote`. -/
def addVerifiedVote (P : Primitives) (cs : ClusterState) (vs : VoteSet) (vote : Vote)
    (valIndex : Int) (slots : List Nat) (isQc : Bool) : Go (ClusterState × VoteSet × Bool) := do
  match ← sliceAt vs.votes valIndex with
  | some _ => pure (cs, vs, false)
  | none => do
    let vs ← vs.record vote valIndex.toNat slots
    let (cs, quorum) ← cs.getQuorum
    if vs.maj23TsHash.isSome then pure (cs, vs, true)
    else if ← areGreater vs.sum quorum then do
      let aggSig ← vs.majoritySignature P vote isQc
      pure (cs, { vs with maj23TsHash := some vote.tsHash, maj23aggSignature := aggSig }, true)
    else pure (cs, vs, true)

/-- What `AddVote` and `AddQc` return, with the objects they change. -/
abbrev Result : Type := ClusterState × VoteSet × Bool × Option Err

/-- `AddVote`. -/
def addVote (C : Codec) (P : Primitives) (cs : ClusterState) (vs : VoteSet) (v : Option Vote)
    (expectedTSHash : Hash) : Go Result :=
  match v with
  | none => pure (cs, vs, false, some (.new "invalid vote"))
  | some v =>
    if v.signerIndex.toInt < 0 then
      pure (cs, vs, false, some (.new "invalid validator details "))
    else if v.view ≠ vs.view ∨ v.type ≠ vs.voteType then
      pure (cs, vs, false, some (.new "invalid view and ts hash details"))
    else
      let (valKramaID, publicKey) := cs.getByIndex v.signerIndex.toInt
      if valKramaID = [] then pure (cs, vs, false, some (.new "invalid validator"))
      else match v.signBytes C with
        | .error e => pure (cs, vs, false, some e)
        | .ok rawData => do
          let (verified, err) ← Crypto.verify P rawData v.signature publicKey
          if err.isSome then pure (cs, vs, false, err)
          else if !verified then
            pure (cs, vs, false, some (.sentinel .errSignatureVerificationFailed))
          else if v.tsHash ≠ expectedTSHash then
            pure (cs, vs, false, some (.sentinel .errConflictingVote))
          else match cs.committee.getKramaID v.signerIndex.toInt with
            | none => pure (cs, vs, false, some (.new "invalid validator index"))
            | some k => do
              let (cs, vs, added) ←
                vs.addVerifiedVote P cs v v.signerIndex.toInt k.slots false
              pure (cs, vs, added, none)

/-- The first loop of `AddQc`: every set index resolved, or `none` at one without a KramaID. -/
def resolve (c : ICSCommittee) : List Nat → Option (List (Int × ICSCommittee.KramaSlot))
  | [] => some []
  | valIndex :: rest =>
    match c.getKramaID (int32 valIndex) with
    | none => none
    | some k =>
      if k.kramaID = [] then none
      else (resolve c rest).map ((int32 valIndex, k) :: ·)

/-- The second loop of `AddQc`. -/
def addAll (P : Primitives) (v : Vote) : List (Int × ICSCommittee.KramaSlot) → ClusterState →
    VoteSet → Go (ClusterState × VoteSet)
  | [], cs, vs => pure (cs, vs)
  | (valIndex, k) :: rest, cs, vs => do
    let (cs, vs, _) ← vs.addVerifiedVote P cs v valIndex k.slots true
    addAll P v rest cs vs

/-- `AddQc`. Neither the view nor the type of the certificate is compared, and a certificate
    that does not verify is `(false, nil)`. -/
def addQc (C : Codec) (P : Primitives) (cs : ClusterState) (vs : VoteSet) (v : Option Vote)
    (expectedTSHash : Hash) : Go Result :=
  match v with
  | none => pure (cs, vs, false, some (.new "invalid vote"))
  | some v =>
    if v.signerIndex.toInt < 0 then
      pure (cs, vs, false, some (.new "invalid validator details "))
    else do
      let bits ← Go.deref v.signerIndices
      let signedVals ← bits.getTrueIndices
      match resolve cs.committee signedVals with
      | none => pure (cs, vs, false, some (.sentinel .errPublicKeyNotFound))
      | some signers =>
        match v.signBytes C with
        | .error e => pure (cs, vs, false, some e)
        | .ok rawVote =>
          let (isvalid, err) := Crypto.verifyAggregateSignature P rawVote v.signature
            (signers.map (·.2.publicKey))
          if !isvalid || err.isSome then pure (cs, vs, false, err)
          else if v.tsHash ≠ expectedTSHash then
            pure (cs, vs, false, some (.sentinel .errConflictingVote))
          else do
            let (cs, vs) ← addAll P v signers cs vs
            pure (cs, vs, true, none)

/-- `HeightVoteSet.GetQC` on the vote set of its type. -/
def getQC (vs : VoteSet) (tsHash : Hash) (view : UInt64) : Go (Except Err Qc) := do
  let maj ← Go.deref vs.maj23TsHash
  if maj ≠ tsHash then
    pure (.error (.new "ts hash doesn't match with super majority"))
  else pure (.ok ⟨vs.voteType, view, maj, vs.votesBitArray, vs.maj23aggSignature⟩)

/-! ## 3. Calls as events -/

/-- A call on a vote set, with the hash the caller expects. -/
inductive Event where
  | addVote (v : Option Vote) (expectedTSHash : Hash)
  | addQc (v : Option Vote) (expectedTSHash : Hash)
  deriving DecidableEq, Repr

/-- One call; what it returns is not part of the state. -/
def call (C : Codec) (P : Primitives) (s : ClusterState × VoteSet) : Event → Go Result
  | .addVote v h => s.2.addVote C P s.1 v h
  | .addQc v h => s.2.addQc C P s.1 v h

/-- The machine: a call that returns. -/
def Step (C : Codec) (P : Primitives) (s : ClusterState × VoteSet) (e : Event)
    (s' : ClusterState × VoteSet) : Prop :=
  ∃ added err, call C P s e = .ok (s'.1, s'.2, added, err)

/-- An empty vote set of a fresh cluster state. -/
def start (c : ICSCommittee) (view : UInt64) (t : ConsensusMsgType) : ClusterState × VoteSet :=
  (ClusterState.new c, new view t (ClusterState.new c))

end VoteSet

end GoMoi
