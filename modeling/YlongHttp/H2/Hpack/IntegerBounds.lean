/-
What the integers of HPACK can hold.

After its first byte an integer goes on to the first byte without the continuation bit
(`continuation`), and `integerValue` is the value of these bytes, however large. The decoder
gives back what the encoder wrote and never wraps a value. It refuses the values that `usize`
cannot hold, and also every integer with more than ten bytes after the first, even if those
bytes add nothing: the shift of the eleventh is refused before its bits are read
(`readsIntegers`).
-/

import YlongHttp.H2.Hpack.RoundTrip

namespace YlongHttp.H2.Hpack

open Rust Codec List

/-! ### Bytes and values -/

/-- `first_byte`, and the loop around `next_byte` if bytes follow. -/
def IntegerDecoder.decode (mask first : UInt8) (buf : List UInt8) :
    Outcome (List UInt8) H2Error (DecResult Nat IntegerDecoder) :=
  match firstByte first mask with
  | .ok index => .ok (.decoded index) buf
  | .error int => int.trailingLoop buf

/-- The bytes up to the first one without the continuation bit. -/
def continuation : List UInt8 → List UInt8
  | [] => []
  | b :: buf => if b &&& 0x80 = 0x00 then [b] else b :: continuation buf

/-- The bytes of an integer after the first one. -/
def following (mask first : UInt8) (buf : List UInt8) : List UInt8 :=
  if first &&& mask < mask then [] else continuation buf

/-- The value of bytes that hold seven bits each, the lowest ones first. -/
def groupsValue : List UInt8 → Nat
  | [] => 0
  | b :: buf => (b &&& 0x7f).toNat + 128 * groupsValue buf

def integerValue (mask first : UInt8) (buf : List UInt8) : Nat :=
  (first &&& mask).toNat + groupsValue (following mask first buf)

/-- The mask of a prefix of `n` bits. -/
def prefixMask (n : Nat) : UInt8 := (2 ^ n - 1).toUInt8

/-! ### Reading -/

/-- How reading an integer ends that has `count` bytes after the first one. -/
inductive Ends (value count : Nat) : Outcome (List UInt8) H2Error (DecResult Nat IntegerDecoder) → Prop where
  | decoded {rest : List UInt8} (fits : value < usizeSize ∧ count ≤ 10) : Ends value count (.ok (.decoded value) rest)
  | needMore {int : IntegerDecoder} (fits : value < usizeSize ∧ count ≤ 10) : Ends value count (.ok (.needMore int) [])
  | err {e : H2Error} {rest : List UInt8} (large : ¬ (value < usizeSize ∧ count ≤ 10)) : Ends value count (.err e rest)

namespace IntegerDecoder

theorem trailingLoop_ends : ∀ (buf : List UInt8) (int : IntegerDecoder) {k : Nat}, int.shift = 7 * k + 1 → k ≤ 10 →
    int.index < usizeSize → Ends (int.index + groupsValue (continuation buf) * 2 ^ (7 * k))
      (k + (continuation buf).length) (int.trailingLoop buf)
  | [], int, k, _, hk, hindex => .needMore ⟨by simpa [continuation, groupsValue] using hindex, hk⟩
  | b :: buf, int, k, hshift, hk, hindex => by
    rw [trailingLoop, nextByte_eq hshift rfl]
    by_cases hfit : 7 * k < 64 ∧ int.index + (b &&& 0x7f).toNat * 2 ^ (7 * k) < usizeSize
    · have hnext : k + 1 ≤ 10 := by omega
      rw [if_pos hfit, continuation]
      by_cases hlast : b &&& 0x80 = 0x00
      · rw [if_pos hlast, if_pos hlast]
        exact .decoded ⟨hfit.2, hnext⟩
      · have hvalue : int.index + groupsValue (b :: continuation buf) * 2 ^ (7 * k) =
            int.index + (b &&& 0x7f).toNat * 2 ^ (7 * k) + groupsValue (continuation buf) * 2 ^ (7 * (k + 1)) := by
          rw [groupsValue, Nat.mul_succ]
          ring
        have hcount : k + (b :: continuation buf).length = k + 1 + (continuation buf).length := by
          rw [length_cons]
          omega
        rw [if_neg hlast, if_neg hlast, hvalue, hcount]
        exact trailingLoop_ends buf ⟨_, _, Nat.succ_pos _⟩ rfl hnext hfit.2
    · -- What follows can only make the integer longer and its value larger.
      obtain ⟨more, hmore⟩ : ∃ more, continuation (b :: buf) = b :: more := by
        rw [continuation]
        split <;> exact ⟨_, rfl⟩
      have hgroup : (b &&& 0x7f).toNat * 2 ^ (7 * k) ≤ groupsValue (b :: more) * 2 ^ (7 * k) :=
        Nat.mul_le_mul_right _ (Nat.le_add_right ..)
      rw [if_neg hfit, hmore]
      refine .err ?_
      rw [length_cons]
      omega

theorem decode_ends (mask first : UInt8) (buf : List UInt8) :
    Ends (integerValue mask first buf) (following mask first buf).length (decode mask first buf) := by
  have hindex : (first &&& mask).toNat < usizeSize := (UInt8.toNat_lt _).trans (by decide)
  unfold decode firstByte integerValue following
  dsimp only
  split_ifs
  · exact .decoded ⟨hindex, Nat.zero_le _⟩
  · have hends := trailingLoop_ends buf ⟨_, 1, Nat.one_pos⟩ (k := 0) rfl (Nat.zero_le _) hindex
    simpa using hends

end IntegerDecoder

/-- The integers behind a mask: every value is read back, errors are what does not fit or is
too long, and no value is wrapped. -/
structure ReadsIntegers (mask : UInt8) : Prop where
  roundTrip : ∀ i < usizeSize, ∀ pre, pre &&& mask = 0 → ∀ rest, ∃ first bs,
    Integer.encode (.new i mask pre) (.new (bs.length + 1)) = .ok () ⟨first :: bs, 0⟩ ∧
      IntegerDecoder.decode mask first (bs ++ rest) = .ok (.decoded i) rest
  refuses : ∀ first buf, (∃ e rest, IntegerDecoder.decode mask first buf = .err e rest) ↔
    ¬ (integerValue mask first buf < usizeSize ∧ (following mask first buf).length ≤ 10)
  unwrapped : ∀ first buf v rest, IntegerDecoder.decode mask first buf = .ok (.decoded v) rest →
    v = integerValue mask first buf

theorem freePrefix_prefixMask {n : Nat} {pre : UInt8} (hn : 1 ≤ n) (hn' : n ≤ 8) (hpre : pre &&& prefixMask n = 0) :
    FreePrefix (prefixMask n) pre := by
  have hlow : ∀ x : UInt8, x ≤ prefixMask n → x &&& prefixMask n = x := by
    interval_cases n <;> exact forall_byte (by decide +kernel)
  intro x hx
  apply UInt8.toNat_inj.mp
  rw [UInt8.toNat_and, UInt8.toNat_or, Nat.and_or_distrib_right, ← UInt8.toNat_and, ← UInt8.toNat_and, hpre, hlow x hx]
  exact Nat.zero_or _

theorem readsIntegers {n : Nat} (hn : 1 ≤ n) (hn' : n ≤ 8) : ReadsIntegers (prefixMask n) := by
  constructor
  · intro i hi pre hpre rest
    obtain ⟨x, hx, bs, hoctets, hfirst⟩ := firstByte_octets (freePrefix_prefixMask hn hn' hpre) hi
    refine ⟨pre ||| x, bs, ?_, ?_⟩
    · have hall := (Integer.writes_encode (.new i (prefixMask n) pre)).all (.new (bs.length + 1))
      rw [hoctets] at hall
      exact (hall le_rfl).trans (by simp [Dst.push, Dst.new])
    · rw [IntegerDecoder.decode]
      rcases hfirst with ⟨hok, rfl⟩ | ⟨int, herr, hloop⟩
      · rw [hok]
        rfl
      · rw [herr]
        exact hloop rest
  · intro first buf
    have hends := IntegerDecoder.decode_ends (prefixMask n) first buf
    constructor
    · rintro ⟨e, rest, herr⟩
      rw [herr] at hends
      cases hends with
      | err large => exact large
    · intro hlarge
      generalize IntegerDecoder.decode (prefixMask n) first buf = x at hends ⊢
      cases hends with
      | decoded fits | needMore fits => exact absurd fits hlarge
      | err => exact ⟨_, _, rfl⟩
  · intro first buf v rest hok
    have hends := IntegerDecoder.decode_ends (prefixMask n) first buf
    rw [hok] at hends
    cases hends with
    | decoded => rfl

theorem readsIntegers_indexed : prefixMask 7 = 0x7f ∧ ReadsIntegers (prefixMask 7) :=
  ⟨rfl, readsIntegers (by decide) (by decide)⟩

/-- Ten bytes that add nothing, and the last one: the value is that of the first byte, and it is
refused. -/
theorem refused_zeros : integerValue 0x7f 0xff (replicate 10 0x80 ++ [0x00]) = 127 ∧
    IntegerDecoder.decode 0x7f 0xff (replicate 10 0x80 ++ [0x00]) = .err (.connectionError .compressionError) [] := by
  decide +kernel

end YlongHttp.H2.Hpack
