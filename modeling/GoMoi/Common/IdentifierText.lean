/-
  File:      GoMoi/Common/IdentifierText.lean
  Subject:   The text form of the 32-byte identifiers (`common/identifiers/common.go`).

  `unmarshal32` cuts off the prefix and asks for 64 characters, but `decodeHexString` cuts off a
  prefix once more: of a text that begins with two of them 62 digits are left, and 31 bytes do not
  convert to an array of 32.

  * **`unmarshal32_iff`** -- the texts on which `UnmarshalText` is as it should be.
-/
import GoMoi.Storage.Keys

namespace GoMoi

/-! ## 1. Marshalling -/

def trim0xPrefix : List Char → List Char
  | '0' :: 'x' :: rest => rest
  | s => s

def has0xPrefix (s : List Char) : Bool := ['0', 'x'].isPrefixOf s

/-- `[32]byte(decoded)`, which takes the first 32 bytes. -/
def toArray32 (decoded : Bytes) : Go Identifier :=
  if decoded.length < 32 then .error .sliceBounds
  else .ok ⟨BitVec.ofNat 256 (ofBigEndian (decoded.take 32))⟩

def marshal32 (id : Identifier) : List Char := '0' :: 'x' :: encodeToString id.bytes

def unmarshal32 (data : List Char) : Go (Except Err Identifier) :=
  if has0xPrefix data = false then .ok (.error (.new "missing '0x' prefix"))
  else if (trim0xPrefix data).length ≠ 64 then .ok (.error (.new "invalid length"))
  else match decodeString (trim0xPrefix (trim0xPrefix data)) with
    | .error err => .ok (.error err)
    | .ok decoded => do pure (.ok (← toArray32 decoded))

/-! ## 2. Digits -/

theorem hexDigit_of_fromHexChar {c : Char} {n : Nat} (h : fromHexChar c = some n) :
    n < 16 ∧ hexDigit n = c.toLower := by
  have hle : c ≤ 'f' := by
    unfold fromHexChar at h
    split at h
    case isTrue hc => exact Char.le_trans hc.2 (by decide)
    split at h
    case isTrue hc => exact hc.2
    split at h
    case isTrue hc => exact Char.le_trans hc.2 (by decide)
    case isFalse => cases h
  have hascii : ∀ k < 103, ∀ m, fromHexChar (Char.ofNat k) = some m →
      m < 16 ∧ hexDigit m = (Char.ofNat k).toLower := by decide
  have hlt : c.toNat ≤ 102 := hle
  have hc := hascii c.toNat (by omega) n
  rw [Char.ofNat_toNat] at hc
  exact hc h

/-- **What is decoded is encoded in small letters**, two characters for a byte. -/
theorem encode_of_decode {s : List Char} {bs : Bytes} (h : decodeString s = .ok bs) :
    encodeToString bs = s.map Char.toLower ∧ s.length = 2 * bs.length := by
  fun_induction decodeString s generalizing bs with
  | case1 =>
    cases h
    exact ⟨rfl, rfl⟩
  | case4 a b rest hi lo hhi hlo bs' hrest ih =>
    cases h
    obtain ⟨henc, hlen⟩ := ih hrest
    obtain ⟨hhi16, hdigit⟩ := hexDigit_of_fromHexChar hhi
    obtain ⟨hlo16, hdigit'⟩ := hexDigit_of_fromHexChar hlo
    have hbyte : (UInt8.ofNat (hi * 16 + lo)).toNat = hi * 16 + lo :=
      UInt8.toNat_ofNat_of_lt' (show hi * 16 + lo < 256 by omega)
    refine ⟨?_, by rw [List.length_cons, List.length_cons, List.length_cons, hlen]; omega⟩
    rw [encodeToString, hbyte, show (hi * 16 + lo) / 16 = hi by omega,
      show (hi * 16 + lo) % 16 = lo by omega, hdigit, hdigit', henc]
    rfl
  | case2 | case3 | case5 => cases h

/-! ## 3. Reading a text -/

/-- An error, or an identifier with the text in small letters; no panic. -/
def ReadBack (data : List Char) : Prop :=
  ∃ r, unmarshal32 data = .ok r ∧ ∀ id, r = .ok id → marshal32 id = data.map Char.toLower

/-- Two prefixes, and 62 hexadecimal digits. -/
def DoublePrefix (data : List Char) : Prop :=
  ∃ rest bs, data = '0' :: 'x' :: '0' :: 'x' :: rest ∧ rest.length = 62 ∧ decodeString rest = .ok bs

/-- An identifier from its 32 bytes. -/
theorem bytes_toArray32 {bs : Bytes} (h : bs.length = 32) :
    ∃ id, toArray32 bs = .ok id ∧ id.bytes = bs := by
  refine ⟨_, if_neg (by omega), ?_⟩
  have hlt : ofBigEndian bs < 2 ^ 256 := by
    have hlt := ofBigEndian_lt bs
    rwa [h] at hlt
  show bigEndian 32 (BitVec.ofNat 256 (ofBigEndian (bs.take 32))).toNat = bs
  rw [List.take_of_length_le h.le, BitVec.toNat_ofNat, Nat.mod_eq_of_lt hlt, ← h]
  exact bigEndian_ofBigEndian bs

/-- **`UnmarshalText` reads every text but those with two prefixes and 62 digits**, on which it
    panics. -/
theorem unmarshal32_iff (data : List Char) : ReadBack data ↔ ¬ DoublePrefix data := by
  constructor
  · rintro ⟨r, hr, -⟩ ⟨rest, bs, rfl, hlen, hdec⟩
    obtain ⟨-, hbs⟩ := encode_of_decode hdec
    have hpanic : toArray32 bs = .error .sliceBounds := if_pos (by omega)
    simp [unmarshal32, has0xPrefix, trim0xPrefix, hlen, hdec, hpanic, bind, Except.bind] at hr
  · intro h
    by_cases hprefix : has0xPrefix data = false
    · exact ⟨_, if_pos hprefix, nofun⟩
    obtain ⟨rest, rfl⟩ := List.isPrefixOf_iff_prefix.mp ((Bool.not_eq_false _).mp hprefix)
    by_cases hlen : rest.length = 64
    · rcases hdec : decodeString (trim0xPrefix rest) with err | bs
      · refine ⟨.error err, ?_, nofun⟩
        simp [unmarshal32, has0xPrefix, trim0xPrefix.eq_1, hlen, hdec]
      obtain ⟨henc, hbs⟩ := encode_of_decode hdec
      have htrim : trim0xPrefix rest = rest := by
        unfold trim0xPrefix
        split
        case h_1 rest => exact absurd ⟨rest, bs, rfl, by simpa using hlen, hdec⟩ h
        case h_2 => rfl
      rw [htrim] at henc hbs
      obtain ⟨id, hid, hbytes⟩ := bytes_toArray32 (show bs.length = 32 by omega)
      refine ⟨.ok id, ?_, fun id' hid' => ?_⟩
      · simp [unmarshal32, has0xPrefix, trim0xPrefix.eq_1, hlen, hdec, hid, bind, Except.bind]
        rfl
      · cases hid'
        rw [marshal32, hbytes, henc]
        rfl
    · exact ⟨_, (if_neg hprefix).trans (if_pos hlen), nofun⟩

/-- Two prefixes with 62 zeros: 31 bytes are no array of 32. -/
theorem double_prefix_panics :
    unmarshal32 ('0' :: 'x' :: '0' :: 'x' :: List.replicate 62 '0') = .error .sliceBounds := by
  decide

end GoMoi
