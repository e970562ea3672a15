/-
  File:      GoMoi/Lib/BigEndian.lean
  Subject:   Numbers as byte strings of a fixed length.

  * `bigEndian n x` -- the last `n` bytes of `x`, the most significant one first;
  * `ofBigEndian` -- the number that a byte string stands for.
-/
import Mathlib.Algebra.Group.Nat.Defs
import Mathlib.Data.List.Basic
import Mathlib.Data.List.Induction

namespace GoMoi

open List

/-- The last `n` bytes of a number. -/
def bigEndian (n x : Nat) : List UInt8 :=
  (List.range n).map fun i => UInt8.ofNat (x / 256 ^ (n - 1 - i))

/-- The number behind a byte string. -/
def ofBigEndian (bs : List UInt8) : Nat := bs.foldl (fun n b => n * 256 + b.toNat) 0

variable (bs : List UInt8) (n x : Nat)

@[simp] theorem bigEndian_length : (bigEndian n x).length = n := by
  rw [bigEndian, length_map, length_range]

/-- The last byte, and the ones before it. -/
theorem bigEndian_succ : bigEndian (n + 1) x = bigEndian n (x / 256) ++ [UInt8.ofNat x] := by
  unfold bigEndian
  rw [range_succ, map_append]
  congr 1
  · refine map_congr_left fun i hi => ?_
    have hlt : i < n := mem_range.mp hi
    have hexp : n + 1 - 1 - i = n - 1 - i + 1 := by omega
    rw [hexp, Nat.pow_succ', ← Nat.div_div_eq_div_mul]
  · simp

theorem ofBigEndian_bigEndian : ofBigEndian (bigEndian n x) = x % 256 ^ n := by
  induction n generalizing x with
  | zero =>
    show (0 : Nat) = x % 1
    omega
  | succ n ih =>
    have hlast : (UInt8.ofNat x).toNat = x % 256 := UInt8.toNat_ofNat'
    rw [bigEndian_succ, ofBigEndian, foldl_append]
    show ofBigEndian (bigEndian n (x / 256)) * 256 + (UInt8.ofNat x).toNat = x % 256 ^ (n + 1)
    rw [ih, hlast, Nat.pow_succ', Nat.mod_mul]
    omega

/-- **Numbers of `n` bytes can be told apart by their strings.** -/
theorem bigEndian_injective {n x y : Nat} (hx : x < 256 ^ n) (hy : y < 256 ^ n)
    (h : bigEndian n x = bigEndian n y) : x = y := by
  have hn := congrArg ofBigEndian h
  rwa [ofBigEndian_bigEndian, ofBigEndian_bigEndian, Nat.mod_eq_of_lt hx, Nat.mod_eq_of_lt hy] at hn

theorem ofBigEndian_append (b : UInt8) :
    ofBigEndian (bs ++ [b]) = ofBigEndian bs * 256 + b.toNat := by
  rw [ofBigEndian, foldl_append]
  rfl

theorem ofBigEndian_lt : ofBigEndian bs < 256 ^ bs.length := by
  induction bs using List.reverseRecOn with
  | nil => decide
  | append_singleton bs b ih =>
    have hb := b.toNat_lt
    rw [ofBigEndian_append, length_append, length_singleton, Nat.pow_succ]
    omega

theorem bigEndian_ofBigEndian : bigEndian bs.length (ofBigEndian bs) = bs := by
  induction bs using List.reverseRecOn with
  | nil => rfl
  | append_singleton bs b ih =>
    have hb := b.toNat_lt
    have hrest : (ofBigEndian bs * 256 + b.toNat) / 256 = ofBigEndian bs := by omega
    have hlast : UInt8.ofNat (ofBigEndian bs * 256 + b.toNat) = b := by
      apply UInt8.toNat_inj.mp
      rw [UInt8.toNat_ofNat']
      omega
    rw [ofBigEndian_append, length_append, length_singleton, bigEndian_succ, hrest, ih, hlast]

end GoMoi
