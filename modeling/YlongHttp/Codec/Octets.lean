/-
Big-endian words.

`be32 a b c d` is the word with these octets, most significant octet first, and
`octet32` takes a word apart again; the same for words of 24 and 16 bits.
-/

import Mathlib

namespace YlongHttp.Codec

def be24 (a b c : UInt8) : Nat := (a.toNat <<< 16) + (b.toNat <<< 8) + c.toNat

def be16 (a b : UInt8) : UInt16 := (a.toUInt16 <<< 8) ||| b.toUInt16

def be32 (a b c d : UInt8) : UInt32 :=
  (a.toUInt32 <<< 24) ||| (b.toUInt32 <<< 16) ||| (c.toUInt32 <<< 8) ||| d.toUInt32

/-! ### Octets -/

def octet24 (n : Nat) (i : Nat) : UInt8 := UInt8.ofNat ((n >>> (16 - 8 * i)) &&& 0xFF)

def octet16 (n : Nat) (i : Nat) : UInt8 := UInt8.ofNat ((n >>> (8 * (1 - i))) &&& 0xFF)

def octet32 (x : UInt32) (i : Nat) : UInt8 := (x >>> UInt32.ofNat (24 - 8 * i)).toUInt8

def octets24 (n : Nat) : List UInt8 := [octet24 n 0, octet24 n 1, octet24 n 2]

def octets16 (n : Nat) : List UInt8 := [octet16 n 0, octet16 n 1]

def octets32 (x : UInt32) : List UInt8 := [octet32 x 0, octet32 x 1, octet32 x 2, octet32 x 3]

theorem octet32_eq {x : UInt32} {i : Nat} {b : UInt8} (h : (octets32 x)[i]? = some b) : octet32 x i = b := by
  have hi : i < 4 := (List.getElem?_eq_some_iff.mp h).1
  have hcases : i = 0 ∨ i = 1 ∨ i = 2 ∨ i = 3 := by omega
  rcases hcases with rfl | rfl | rfl | rfl
  all_goals
    cases h
    rfl

theorem toNat_octet24 (n : Nat) (i : Nat) : (octet24 n i).toNat = n / 2 ^ (16 - 8 * i) % 256 := by
  have hand : (n >>> (16 - 8 * i)) &&& 0xFF = n >>> (16 - 8 * i) % 2 ^ 8 :=
    Nat.and_two_pow_sub_one_eq_mod _ 8
  rw [octet24, hand, Nat.shiftRight_eq_div_pow]
  simp

theorem toNat_octet32 (x : UInt32) (i : Nat) : (octet32 x i).toNat = x.toNat / 2 ^ (24 - 8 * i) % 256 := by
  have hmod : (24 - 8 * i) % 32 = 24 - 8 * i := Nat.mod_eq_of_lt (by omega)
  simp [octet32, Nat.shiftRight_eq_div_pow, hmod]

/-- The octets of a word add up. -/
theorem toNat_be32 (a b c d : UInt8) :
    (be32 a b c d).toNat = a.toNat * 2 ^ 24 + b.toNat * 2 ^ 16 + c.toNat * 2 ^ 8 + d.toNat := by
  have hb := b.toNat_lt
  have hc := c.toNat_lt
  have hd := d.toNat_lt
  have hcd : c.toNat * 2 ^ 8 ||| d.toNat = c.toNat * 2 ^ 8 + d.toNat := by
    rw [← Nat.shiftLeft_eq, Nat.shiftLeft_add_eq_or_of_lt hd]
  have hbcd : b.toNat * 2 ^ 16 ||| (c.toNat * 2 ^ 8 + d.toNat) = b.toNat * 2 ^ 16 + (c.toNat * 2 ^ 8 + d.toNat) := by
    rw [← Nat.shiftLeft_eq, Nat.shiftLeft_add_eq_or_of_lt (by omega)]
  have habcd : a.toNat * 2 ^ 24 ||| (b.toNat * 2 ^ 16 + (c.toNat * 2 ^ 8 + d.toNat)) =
      a.toNat * 2 ^ 24 + (b.toNat * 2 ^ 16 + (c.toNat * 2 ^ 8 + d.toNat)) := by
    rw [← Nat.shiftLeft_eq, Nat.shiftLeft_add_eq_or_of_lt (by omega)]
  have hshift : ∀ (x : UInt8) (k : UInt32), k.toNat ≤ 24 → (x.toUInt32 <<< k).toNat = x.toNat * 2 ^ k.toNat := by
    intro x k hk
    have hx := x.toNat_lt
    have hpow : 2 ^ k.toNat ≤ 2 ^ 24 := Nat.pow_le_pow_right (by omega) hk
    have hlt : x.toNat * 2 ^ k.toNat < 2 ^ 32 :=
      calc x.toNat * 2 ^ k.toNat ≤ 255 * 2 ^ 24 := Nat.mul_le_mul (by omega) hpow
        _ < 2 ^ 32 := by decide
    rw [UInt32.toNat_shiftLeft, UInt8.toNat_toUInt32, Nat.mod_eq_of_lt (show k.toNat < 32 by omega),
      Nat.shiftLeft_eq, Nat.mod_eq_of_lt hlt]
  rw [be32, UInt32.toNat_or, UInt32.toNat_or, UInt32.toNat_or, hshift a 24 (by decide),
    hshift b 16 (by decide), hshift c 8 (by decide), UInt8.toNat_toUInt32, Nat.or_assoc, Nat.or_assoc]
  change a.toNat * 2 ^ 24 ||| (b.toNat * 2 ^ 16 ||| (c.toNat * 2 ^ 8 ||| d.toNat)) = _
  rw [hcd, hbcd, habcd]
  omega

theorem be32_octets (x : UInt32) : be32 (octet32 x 0) (octet32 x 1) (octet32 x 2) (octet32 x 3) = x := by
  have hx := x.toNat_lt
  apply UInt32.toNat_inj.mp
  simp only [toNat_be32, toNat_octet32]
  omega

theorem be24_octets {n : Nat} (h : n < 2 ^ 24) : be24 (octet24 n 0) (octet24 n 1) (octet24 n 2) = n := by
  simp only [be24, toNat_octet24, Nat.shiftLeft_eq]
  omega

/-- The first octet of a word of 31 bits. -/
theorem octet32_zero_lt {x : UInt32} (h : x.toNat < 2 ^ 31) : (octet32 x 0).toNat < 128 := by
  rw [toNat_octet32]
  omega

end YlongHttp.Codec
