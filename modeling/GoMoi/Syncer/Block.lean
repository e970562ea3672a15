/-
  File:      GoMoi/Syncer/Block.lean
  Subject:   The blocks that peers exchange (`syncer/agora/block/block.go`).

  The content id of an account-based block is not sent: the receiver computes it. Any other one
  stands before the data without a mark. The size before compressed data is cut to 32 bits, and 0
  means that the data are not compressed. Nothing is asked of the length of a message.

  * **`blocks_iff`** -- which blocks and messages are treated as they should be;
  * `short_message` -- a message of one byte.
-/
import GoMoi.Common.Types
import GoMoi.Lib.BigEndian

namespace GoMoi

open List

/-! ## 1. Blocks -/

/-- `[32]byte`. -/
abbrev Bytes32 : Type := { b : Bytes // b.length = 32 }

/-- `type CID [33]byte`: its first byte and the others. -/
structure CID where
  contentType : UInt8
  key : Bytes32
  deriving DecidableEq

/-- `NilHash`. -/
def Bytes32.nil : Bytes32 := ⟨replicate 32 0, length_replicate⟩

/-- `ContentID`. -/
def contentID (contentType : UInt8) (id : Bytes32) : CID :=
  if id = .nil then ⟨0, .nil⟩ else ⟨contentType, id⟩

/-- `type Block struct`. -/
structure Block where
  cid : CID
  data : Bytes
  deriving DecidableEq

/-- `IsAccountBasedKey`, of the number of a tag. -/
def accountBased (tag : UInt8) : Bool := !(tag &&& 0x80 == 0x80)

/-- `BytesForMessage`. -/
def Block.bytesForMessage (b : Block) : Bytes :=
  if accountBased b.cid.contentType then b.cid.contentType :: b.data
  else b.cid.contentType :: b.cid.key ++ b.data

/-- `NewBlockFromMessage`. -/
def newBlockFromMessage (sum256 : Bytes → Bytes32) : Bytes → Go Block
  | [] => .error .indexOutOfRange
  | tag :: rest =>
    if accountBased tag then .ok ⟨contentID tag (sum256 rest), rest⟩
    else if h : 32 ≤ rest.length then
      .ok ⟨⟨tag, rest.take 32, length_take_of_le h⟩, rest.drop 32⟩
    else .error .sliceBounds

/-- `type Compressor interface`, whose second method is inverse to the first. -/
structure Compressor where
  compress : Bytes → Except Err Bytes
  decompress : Bytes → Nat → Except Err Bytes
  inverse : ∀ data c size, compress data = .ok c → decompress c size = .ok data

def compressionThreshold : Nat := 20 * 1024

/-- `CompressData`. -/
def compressData (C : Compressor) (data : Bytes) : Except Err Bytes :=
  if compressionThreshold ≤ data.length then do
    let c ← C.compress data
    pure (bigEndian 4 data.length ++ c)
  else .ok (bigEndian 4 0 ++ data)

/-- `DecompressData`. -/
def decompressData (C : Compressor) (data : Bytes) : Go (Except Err Bytes) :=
  if data.length < 4 then .error .sliceBounds
  else
    let size := ofBigEndian (data.take 4)
    .ok (if size = 0 then .ok (data.drop 4) else C.decompress (data.drop 4) size)

/-! ## 2. Round trips and short messages -/

variable (C : Compressor) (sum256 : Bytes → Bytes32) (b : Block) (data message : Bytes)

/-- A block is read as it was written, data are decompressed to what was compressed, and what a peer
    sends can be read, and its data decompressed, without a panic. -/
structure BlocksRight : Prop where
  reads : newBlockFromMessage sum256 b.bytesForMessage = .ok b
  inflates : ∀ z, compressData C data = .ok z → decompressData C z = .ok (.ok data)
  returns : ∃ r, newBlockFromMessage sum256 message >>= (decompressData C ·.data) = .ok r

/-- An account-based block has the content id of its data, long data have a length that is not 0 in
    32 bits, and a message has room for what is read first. -/
structure BlocksFit : Prop where
  content : accountBased b.cid.contentType → b.cid = contentID b.cid.contentType (sum256 b.data)
  length : ∀ c, compressionThreshold ≤ data.length → C.compress data = .ok c →
    data.length % 2 ^ 32 = 0 → c = data
  room : 37 ≤ message.length ∨ 5 ≤ message.length ∧ accountBased (message.headD 0)

theorem newBlockFromMessage_bytes : newBlockFromMessage sum256 b.bytesForMessage = .ok b ↔
    (accountBased b.cid.contentType → b.cid = contentID b.cid.contentType (sum256 b.data)) := by
  obtain ⟨⟨tag, key⟩, _⟩ := b
  by_cases h : accountBased tag
  · simp [Block.bytesForMessage, newBlockFromMessage, h, eq_comm]
  · simp [Block.bytesForMessage, newBlockFromMessage, h, key.2]

/-- What comes back of a size and what stands after it. -/
theorem decompressData_sized (n : Nat) : decompressData C (bigEndian 4 n ++ data) =
    .ok (if n % 2 ^ 32 = 0 then .ok data else C.decompress data (n % 2 ^ 32)) := by
  simp [decompressData, ofBigEndian_bigEndian]

theorem compressData_inverse : (∀ z, compressData C data = .ok z →
    decompressData C z = .ok (.ok data)) ↔ ∀ c, compressionThreshold ≤ data.length →
      C.compress data = .ok c → data.length % 2 ^ 32 = 0 → c = data := by
  unfold compressData
  by_cases hlen : compressionThreshold ≤ data.length
  · rcases hc : C.compress data with e | c
    · simp [hlen]
    have hinv := C.inverse data c (data.length % 2 ^ 32) hc
    by_cases hsize : data.length % 2 ^ 32 = 0 <;>
      simp_all [decompressData_sized, bind, Except.bind, pure, Except.pure]
  · simp [hlen, decompressData_sized]

theorem received_returns : (∃ r, newBlockFromMessage sum256 message >>= (decompressData C ·.data) =
    .ok r) ↔ 37 ≤ message.length ∨ 5 ≤ message.length ∧ accountBased (message.headD 0) := by
  have hdec : ∀ d, (∃ r, decompressData C d = .ok r) ↔ 4 ≤ d.length := by
    intro d
    unfold decompressData
    split <;> simp <;> omega
  rcases message with _ | ⟨tag, rest⟩
  · simp [newBlockFromMessage, bind, Except.bind]
  rw [newBlockFromMessage]
  by_cases htag : accountBased tag
  · rw [if_pos htag]
    refine (hdec rest).trans ?_
    simp [htag]
    omega
  rw [if_neg htag]
  by_cases hlen : 32 ≤ rest.length
  · rw [dif_pos hlen]
    refine (hdec _).trans ?_
    simp [htag]
    omega
  · simp [hlen, htag, bind, Except.bind]
    omega

/-- **Blocks, data and messages are treated as they should be exactly if they fit.** -/
theorem blocks_iff : BlocksRight C sum256 b data message ↔ BlocksFit C sum256 b data message := by
  constructor
  · intro h
    exact ⟨(newBlockFromMessage_bytes sum256 b).mp h.reads,
      (compressData_inverse C data).mp h.inflates, (received_returns C sum256 message).mp h.returns⟩
  · intro h
    exact ⟨(newBlockFromMessage_bytes sum256 b).mpr h.content,
      (compressData_inverse C data).mpr h.length, (received_returns C sum256 message).mpr h.room⟩

/-- A compressor that leaves the data as they are. -/
def stored : Compressor := ⟨.ok, fun c _ => .ok c, fun _ _ _ h => h.symm⟩

/-- A block of the type 1 with the content id of its data, sent to a peer that inflates these. -/
theorem stored_block_right :
    BlocksRight stored (fun _ => ⟨replicate 32 7, length_replicate⟩)
      ⟨⟨1, replicate 32 7, length_replicate⟩, [0, 0, 0, 0, 5]⟩ [5] [1, 0, 0, 0, 0, 5] :=
  (blocks_iff _ _ _ _ _).mpr
    ⟨by decide, fun c _ h _ => (Except.ok.inj h).symm, .inr (by decide)⟩

/-- **One byte from a peer**, and a block under a content id that is not of its data. -/
theorem short_message : newBlockFromMessage (fun _ => .nil) [0x80] = .error .sliceBounds ∧
    newBlockFromMessage (fun _ => .nil) (Block.bytesForMessage ⟨⟨1, .nil⟩, []⟩) ≠
      .ok ⟨⟨1, .nil⟩, []⟩ := by
  decide

end GoMoi
