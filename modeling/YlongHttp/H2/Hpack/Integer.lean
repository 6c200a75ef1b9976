/-
Integer representation of HPACK (`h2/hpack/integer.rs`).

`IntegerEncoder.octets` are the bytes an encoder still has to give, and
`IntegerDecoder.decodeTrailing` is the loop by which both users of
`IntegerDecoder` feed it. The decoder reads back what the encoder gives and leaves
the bytes after it (`trailingLoop_groups`).
-/

import YlongHttp.Codec.Bits
import YlongHttp.Codec.Writer
import YlongHttp.H2.Error

namespace YlongHttp.H2.Hpack

open Rust Codec

/-- `usize` has 64 bits. -/
def usizeSize : Nat := 2 ^ 64

/-! ### Encoding -/

inductive IntegerEncodeState where
  | first
  | other
  | finish
deriving DecidableEq, Repr

structure IntegerEncoder where
  i : Nat
  mask : UInt8
  pre : UInt8
  state : IntegerEncodeState
deriving DecidableEq, Repr

namespace IntegerEncoder

def new (i : Nat) (mask pre : UInt8) : IntegerEncoder := ⟨i, mask, pre, .first⟩

def nextByte (int : IntegerEncoder) : Option UInt8 × IntegerEncoder :=
  match int.state with
  | .first =>
    if int.i < int.mask.toNat then (some (int.pre ||| int.i.toUInt8), { int with state := .finish })
    else
      (some (int.pre ||| int.mask), { int with i := int.i - int.mask.toNat, state := .other })
  | .other =>
    if int.i ≥ 128 then (some ((int.i &&& 0x7f).toUInt8 ||| 0x80), { int with i := int.i >>> 7 })
    else (some (int.i &&& 0x7f).toUInt8, { int with state := .finish })
  | .finish => (none, int)

def isFinish (int : IntegerEncoder) : Bool := int.state = .finish

/-- The bytes of a value after the first one, seven bits a byte. -/
def groups (i : Nat) : List UInt8 :=
  if i ≥ 128 then ((i &&& 0x7f).toUInt8 ||| 0x80) :: groups (i >>> 7) else [(i &&& 0x7f).toUInt8]
termination_by i
decreasing_by
  rw [Nat.shiftRight_eq_div_pow]
  omega

/-- The bytes an encoder still has to give. -/
def octets (int : IntegerEncoder) : List UInt8 :=
  match int.state with
  | .first =>
    if int.i < int.mask.toNat then [int.pre ||| int.i.toUInt8]
    else (int.pre ||| int.mask) :: groups (int.i - int.mask.toNat)
  | .other => groups int.i
  | .finish => []

theorem octets_finish {int : IntegerEncoder} (h : int.isFinish = true) : int.octets = [] := by
  rw [isFinish, decide_eq_true_eq] at h
  rw [octets, h]

/-- `next_byte` gives the first of the remaining bytes. -/
theorem octets_nextByte {int : IntegerEncoder} (h : int.isFinish = false) :
    ∃ b, int.nextByte.1 = some b ∧ int.octets = b :: int.nextByte.2.octets := by
  obtain ⟨i, mask, pre, state⟩ := int
  cases state with
  | first =>
    by_cases hi : i < mask.toNat
    · exact ⟨pre ||| i.toUInt8, by simp [nextByte, hi], by simp [octets, nextByte, hi]⟩
    · exact ⟨pre ||| mask, by simp [nextByte, hi], by simp [octets, nextByte, hi]⟩
  | other =>
    by_cases hi : i ≥ 128
    · refine ⟨(i &&& 0x7f).toUInt8 ||| 0x80, by simp [nextByte, hi], ?_⟩
      simp only [octets, nextByte, hi, ↓reduceIte]
      rw [groups, if_pos hi]
    · refine ⟨(i &&& 0x7f).toUInt8, by simp [nextByte, hi], ?_⟩
      simp only [octets, nextByte, hi, ↓reduceIte]
      rw [groups, if_neg hi]
  | finish => simp [isFinish] at h

end IntegerEncoder

/-! ### Decoding -/

/-- What a decoding step gives: a result, or the state in which it needs more
bytes. Errors are those of the call. -/
inductive DecResult (δ τ : Type) where
  | decoded (value : δ)
  | needMore (state : τ)
deriving DecidableEq, Repr

/-- The shift is one more than the weight of the next group. -/
structure IntegerDecoder where
  index : Nat
  shift : Nat
  shift_pos : 0 < shift
deriving DecidableEq

namespace IntegerDecoder

def firstByte (byte mask : UInt8) : Except IntegerDecoder Nat :=
  let index := byte &&& mask
  if index < mask then .ok index.toNat else .error ⟨index.toNat, 1, Nat.one_pos⟩

/-- `1usize.checked_shl(n)`. -/
def checkedShlOne (n : Nat) : Option Nat := if n < 64 then some (1 <<< n) else none

/-- `checked_mul` and `checked_add` on `usize`. -/
def fitsUsize (n : Nat) : Option Nat := if n < usizeSize then some n else none

def nextByte (int : IntegerDecoder) (byte : UInt8) : Except H2Error (Option Nat × IntegerDecoder) :=
  match ((checkedShlOne (int.shift - 1)).bind fun res =>
      fitsUsize (res * (byte &&& 0x7f).toNat)).bind fun res => fitsUsize (res + int.index) with
  | none => .error (.connectionError .compressionError)
  | some index =>
    let int := ⟨index, int.shift + 7, Nat.succ_pos _⟩
    if byte &&& 0x80 = 0x00 then .ok (some index, int) else .ok (none, int)

/-- The loop around `next_byte`: feed bytes until the integer is complete. -/
def trailingLoop : IntegerDecoder → List UInt8 →
    Outcome (List UInt8) H2Error (DecResult Nat IntegerDecoder)
  | int, [] => .ok (.needMore int) []
  | int, byte :: buf =>
    match int.nextByte byte with
    | .ok (none, int) => trailingLoop int buf
    | .ok (some index, _) => .ok (.decoded index) buf
    | .error e => .err e buf

def decodeTrailing (int : IntegerDecoder) : Method (List UInt8) H2Error (DecResult Nat IntegerDecoder) :=
  int.trailingLoop

@[simp] theorem decodeTrailing_apply (int : IntegerDecoder) (buf : List UInt8) :
    int.decodeTrailing buf = int.trailingLoop buf := rfl

end IntegerDecoder

/-! ### Round trip -/

theorem low7_toNat (i : Nat) : (i &&& 0x7f).toUInt8.toNat = i % 128 := by
  rw [show i &&& 0x7f = i % 2 ^ 7 from Nat.and_two_pow_sub_one_eq_mod i 7]
  simp
  omega

theorem byte_continued : ∀ b : UInt8, b.toNat < 128 →
    ((b ||| 0x80) &&& 0x7f).toNat = b.toNat ∧ (b ||| 0x80) &&& 0x80 ≠ 0x00 :=
  forall_byte (by decide +kernel)

theorem byte_last : ∀ b : UInt8, b.toNat < 128 → (b &&& 0x7f).toNat = b.toNat ∧ b &&& 0x80 = 0x00 :=
  forall_byte (by decide +kernel)

/-- A continued group: its bits and its continuation bit. -/
theorem continued_group (i : Nat) : (((i &&& 0x7f).toUInt8 ||| 0x80) &&& 0x7f).toNat = i % 128 ∧
      ((i &&& 0x7f).toUInt8 ||| 0x80) &&& 0x80 ≠ 0x00 := by
  have hlow := low7_toNat i
  have := byte_continued _ (hlow ▸ Nat.mod_lt i (show 0 < 128 by decide))
  rwa [hlow] at this

/-- A last group: its bits and no continuation bit. -/
theorem last_group {i : Nat} (hi : i < 128) :
    ((i &&& 0x7f).toUInt8 &&& 0x7f).toNat = i ∧ (i &&& 0x7f).toUInt8 &&& 0x80 = 0x00 := by
  have hlow := low7_toNat i
  rw [Nat.mod_eq_of_lt hi] at hlow
  have := byte_last _ (hlow ▸ hi)
  rwa [hlow] at this

namespace IntegerDecoder

/-- One group adds its bits at the weight of the group. It is refused if its weight or the value
with it is too large. -/
theorem nextByte_eq {int : IntegerDecoder} {byte : UInt8} {k g : Nat} (hshift : int.shift = 7 * k + 1)
    (hg : (byte &&& 0x7f).toNat = g) : int.nextByte byte =
      if 7 * k < 64 ∧ int.index + g * 2 ^ (7 * k) < usizeSize then
        .ok (if byte &&& 0x80 = 0x00 then some (int.index + g * 2 ^ (7 * k)) else none,
          ⟨int.index + g * 2 ^ (7 * k), 7 * (k + 1) + 1, Nat.succ_pos _⟩)
      else .error (.connectionError .compressionError) := by
  have hmul : 1 <<< (7 * k) * g = g * 2 ^ (7 * k) := by
    rw [Nat.one_shiftLeft, mul_comm]
  have hshift' : int.shift - 1 = 7 * k := by omega
  have hnext : int.shift + 7 = 7 * (k + 1) + 1 := by omega
  simp only [nextByte, checkedShlOne, fitsUsize, hshift', hg, hnext]
  by_cases hk : 7 * k < 64
  · simp only [hk, ↓reduceIte, Option.bind_some, hmul, true_and]
    by_cases hfit : int.index + g * 2 ^ (7 * k) < usizeSize
    · simp only [show g * 2 ^ (7 * k) < usizeSize by omega, ↓reduceIte, Option.bind_some, add_comm (g * 2 ^ (7 * k)), hfit]
      split <;> rfl
    · rw [if_neg hfit]
      by_cases hbits : g * 2 ^ (7 * k) < usizeSize
      · rw [if_pos hbits, Option.bind_some, if_neg (by omega)]
      · rw [if_neg hbits]
        rfl
  · simp only [hk, ↓reduceIte, false_and]
    rfl

/-- The trailing groups of a value add the value at their weight. -/
theorem trailingLoop_groups (i : Nat) :
    ∀ (int : IntegerDecoder) (k : Nat) (rest : List UInt8), int.shift = 7 * k + 1 → 7 * k < 64 →
      int.index + i * 2 ^ (7 * k) < usizeSize → int.trailingLoop (IntegerEncoder.groups i ++ rest) =
        .ok (.decoded (int.index + i * 2 ^ (7 * k))) rest := by
  induction i using Nat.strongRecOn with
  | ind i ih =>
    intro int k rest hshift hk hfit
    rw [IntegerEncoder.groups]
    by_cases hi : i ≥ 128
    · -- The low seven bits go into this group and the rest of the value into the next ones.
      have hlt : i >>> 7 < i := by omega
      have hsplit : i % 128 * 2 ^ (7 * k) + i >>> 7 * 2 ^ (7 * (k + 1)) = i * 2 ^ (7 * k) := by
        rw [Nat.mul_succ, add_comm (7 * k), pow_add, ← mul_assoc, ← add_mul]
        congr 1
        omega
      have hk' : 7 * (k + 1) < 64 := by
        by_contra hge
        have hpow : 2 ^ 64 ≤ 2 ^ (7 * (k + 1)) := Nat.pow_le_pow_right (by decide) (by omega)
        have hpos : 1 ≤ i >>> 7 := by omega
        have hbig := Nat.mul_le_mul hpos hpow
        unfold usizeSize at hfit
        omega
      obtain ⟨hlow, hcont⟩ := continued_group i
      rw [if_pos hi, List.cons_append, trailingLoop, nextByte_eq hshift hlow, if_pos ⟨hk, by omega⟩, if_neg hcont]
      simp only
      rw [ih _ hlt _ (k + 1) rest rfl hk' (by simp only; omega)]
      simp only [← hsplit, add_assoc]
    · obtain ⟨hlow, hlast⟩ := last_group (show i < 128 by omega)
      rw [if_neg hi, List.cons_append, trailingLoop, nextByte_eq hshift hlow, if_pos ⟨hk, hfit⟩, if_pos hlast]
      rfl

end IntegerDecoder

end YlongHttp.H2.Hpack
