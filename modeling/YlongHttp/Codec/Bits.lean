/-
Bit strings, most significant bit first.

`bits n v` are the low `n` bits of `v`. Values are glued by
`bits_append`: the bits of `x * 2 ^ b + y` are those of `x` followed by those of
`y`. A byte string is read as the concatenation of the bits of its bytes, and
`beBytes n v` is the big-endian rendering of `v` in `n` bytes.
-/

import Mathlib

namespace YlongHttp.Codec

def bits : Nat → Nat → List Bool
  | 0, _ => []
  | n + 1, v => v.testBit n :: bits n v

variable (b : UInt8) (bs : List UInt8) (n v : Nat)

@[simp] theorem bits_zero : bits 0 v = [] := rfl

theorem bits_succ : bits (n + 1) v = v.testBit n :: bits n v := rfl

@[simp] theorem length_bits : (bits n v).length = n := by
  induction n with
  | zero => rfl
  | succ n ih => simp [bits_succ, ih]

/-- Only the low `n` bits of a value are read. -/
theorem bits_congr {n v w : Nat} (h : ∀ i < n, v.testBit i = w.testBit i) : bits n v = bits n w := by
  induction n with
  | zero => rfl
  | succ n ih =>
    rw [bits_succ, bits_succ, h n (Nat.lt_succ_self n), ih fun i hi => h i (by omega)]

theorem bits_mod : bits n (v % 2 ^ n) = bits n v :=
  bits_congr fun i hi => by simp [Nat.testBit_mod_two_pow, hi]

/-- The bits of a value glued from a high and a low part. -/
theorem bits_append (a b x : Nat) {y : Nat} (hy : y < 2 ^ b) : bits (a + b) (x * 2 ^ b + y) = bits a x ++ bits b y := by
  have high : ∀ j, (x * 2 ^ b + y).testBit (b + j) = x.testBit j := by
    intro j
    rw [mul_comm, Nat.testBit_two_pow_mul_add x hy, if_neg (by omega)]
    congr 1
    omega
  induction a with
  | zero =>
    rw [zero_add, bits_zero]
    refine bits_congr fun i hi => ?_
    rw [mul_comm, Nat.testBit_two_pow_mul_add x hy, if_pos hi]
  | succ a ih =>
    rw [show a + 1 + b = (a + b) + 1 by omega, bits_succ, ih, add_comm a b, high]
    rfl

/-- The high and the low bits of a value. -/
theorem bits_split (a b v : Nat) : bits (a + b) v = bits a (v >>> b) ++ bits b (v % 2 ^ b) := by
  rw [← bits_append _ _ _ (Nat.mod_lt v (Nat.two_pow_pos b)), Nat.shiftRight_eq_div_pow, Nat.div_add_mod']

/-- Bit strings of one width determine their values. -/
theorem bits_inj {n v w : Nat} (hv : v < 2 ^ n) (hw : w < 2 ^ n) (h : bits n v = bits n w) : v = w := by
  apply Nat.eq_of_testBit_eq
  intro i
  by_cases hi : i < n
  · clear hv hw
    induction n with
    | zero => omega
    | succ n ih =>
      rw [bits_succ, bits_succ, List.cons.injEq] at h
      rcases Nat.lt_succ_iff_lt_or_eq.mp hi with hlt | rfl
      · exact ih h.2 hlt
      · exact h.1
  · have hpow : 2 ^ n ≤ 2 ^ i := Nat.pow_le_pow_right (by decide) (by omega)
    rw [Nat.testBit_lt_two_pow (by omega), Nat.testBit_lt_two_pow (by omega)]

/-- All ones. -/
theorem bits_ones : bits n (2 ^ n - 1) = List.replicate n true := by
  suffices h : ∀ m ≤ n, bits m (2 ^ n - 1) = List.replicate m true from h n le_rfl
  intro m
  induction m with
  | zero => intro _; rfl
  | succ m ih =>
    intro hm
    rw [bits_succ, ih (by omega), List.replicate_succ, Nat.testBit_two_pow_sub_one]
    simp only [List.cons.injEq, and_true, decide_eq_true_eq]
    omega

/-! ### Bytes -/

/-- A property of bytes that holds of all 256 of them. -/
theorem forall_byte {p : UInt8 → Prop} (h : ∀ n : Fin 256, p (UInt8.ofNat n)) (b : UInt8) : p b := by
  have := h ⟨b.toNat, b.toNat_lt⟩
  simpa using this

def byteBits (b : UInt8) : List Bool := bits 8 b.toNat

def bytesBits (bs : List UInt8) : List Bool := bs.flatMap byteBits

@[simp] theorem length_byteBits : (byteBits b).length = 8 := length_bits 8 _

@[simp] theorem bytesBits_nil : bytesBits [] = [] := rfl

@[simp] theorem bytesBits_append (xs ys : List UInt8) : bytesBits (xs ++ ys) = bytesBits xs ++ bytesBits ys :=
  List.flatMap_append

@[simp] theorem bytesBits_cons : bytesBits (b :: bs) = byteBits b ++ bytesBits bs :=
  List.flatMap_cons

@[simp] theorem length_bytesBits : (bytesBits bs).length = 8 * bs.length := by
  induction bs with
  | nil => rfl
  | cons b bs ih => simp [ih]; omega

/-- A byte string is determined by its bits. -/
theorem bytesBits_inj : ∀ {xs ys : List UInt8}, bytesBits xs = bytesBits ys → xs = ys
  | [], [], _ => rfl
  | [], y :: ys, h => by
    have hlength := congrArg List.length h.symm
    simp at hlength
  | x :: xs, [], h => by
    have hlength := congrArg List.length h
    simp at hlength
  | x :: xs, y :: ys, h => by
    obtain ⟨hbyte, hrest⟩ := List.append_inj h (by rw [length_byteBits, length_byteBits])
    have hvalue : x.toNat = y.toNat := bits_inj x.toNat_lt y.toNat_lt hbyte
    rw [UInt8.toNat_inj.mp hvalue, bytesBits_inj hrest]

/-- A byte is its high and low half. -/
theorem byteBits_nibbles : byteBits b = bits 4 (b.toNat / 16) ++ bits 4 (b.toNat % 16) := by
  have low : b.toNat % 16 < 2 ^ 4 := Nat.mod_lt _ (by decide)
  rw [byteBits, ← bits_append 4 4 (b.toNat / 16) low]
  congr 1
  omega

/-- `v` in `n` bytes, most significant byte first. -/
def beBytes : Nat → Nat → List UInt8
  | 0, _ => []
  | n + 1, v => (v >>> (8 * n)).toUInt8 :: beBytes n v

theorem bytesBits_beBytes : bytesBits (beBytes n v) = bits (8 * n) v := by
  induction n with
  | zero => rfl
  | succ n ih =>
    have split : bits (8 * (n + 1)) v = bits 8 (v / 2 ^ (8 * n)) ++ bits (8 * n) v := by
      rw [show 8 * (n + 1) = 8 + 8 * n by ring, bits_split, bits_mod, Nat.shiftRight_eq_div_pow]
    rw [beBytes, bytesBits_cons, ih, split, Nat.shiftRight_eq_div_pow]
    congr 1
    exact bits_mod 8 _

/-- The first bytes of a big-endian rendering are those of the shifted value. -/
theorem beBytes_take (n k v : Nat) : (beBytes (k + n) v).take k = beBytes k (v >>> (8 * n)) := by
  induction k with
  | zero => simp [beBytes]
  | succ k ih =>
    rw [show k + 1 + n = (k + n) + 1 by omega, beBytes, List.take_succ_cons, beBytes, ← Nat.shiftRight_add]
    congr 3
    ring

end YlongHttp.Codec
