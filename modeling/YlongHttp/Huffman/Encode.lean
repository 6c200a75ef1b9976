/-
What the Huffman encoder writes.

`Holds` is the invariant of the encoding loop: the bytes written and the used
bits of the word are the codewords of the bytes read. `bytesBits_huffmanEncode`
concludes that the output is these codewords and less than eight ones of padding.
-/

import YlongHttp.Huffman.Tables

namespace YlongHttp.Huffman

open Codec List

/-! ### The 64-bit word -/

variable {u c nbits : Nat} {p : Packer} {bs : List Bool}

theorem or_eq_add (q : Nat) {y : Nat} (hy : y < 2 ^ u) : q * 2 ^ u ||| y = q * 2 ^ u + y := by
  rw [← Nat.shiftLeft_eq, Nat.shiftLeft_add_eq_or_of_lt hy]

theorem u64Max_shiftRight (hu : u ≤ 64) : u64Max >>> (64 - u) = 2 ^ u - 1 := by
  apply Nat.eq_of_testBit_eq
  intro i
  rw [u64Max, Nat.testBit_shiftRight, Nat.testBit_two_pow_sub_one, Nat.testBit_two_pow_sub_one]
  simp only [decide_eq_decide]
  omega

/-- Clearing the low `u` bits of a word. -/
theorem and_not_mask {x : Nat} (hx : x < 2 ^ 64) (hu : u ≤ 64) :
    x &&& (u64Max ^^^ (2 ^ u - 1)) = x / 2 ^ u * 2 ^ u := by
  apply Nat.eq_of_testBit_eq
  intro i
  rw [Nat.testBit_and, Nat.testBit_xor, u64Max, Nat.testBit_two_pow_sub_one,
    Nat.testBit_two_pow_sub_one, ← Nat.shiftLeft_eq, Nat.testBit_shiftLeft,
    ← Nat.shiftRight_eq_div_pow, Nat.testBit_shiftRight]
  by_cases hi : i < u
  · simp [hi, show i < 64 by omega]
  · by_cases h64 : i < 64
    · simp [hi, h64, show u ≤ i by omega]
    · have hzero : x.testBit i = false := by
        have hpow : 2 ^ 64 ≤ 2 ^ i := Nat.pow_le_pow_right (by decide) (by omega)
        exact Nat.testBit_lt_two_pow (by omega)
      simp [hi, hzero, show u ≤ i by omega]

/-- A rotated code: its low `k` bits come first, its high bits last. -/
theorem rotateRight64_eq {k : Nat} (hk : k ≤ 64) (hhigh : c / 2 ^ k < 2 ^ (64 - k)) :
    rotateRight64 c k = c % 2 ^ k * 2 ^ (64 - k) + c / 2 ^ k := by
  have hshl : shl64 c (64 - k) = c % 2 ^ k * 2 ^ (64 - k) := by
    have hpow : (2 : Nat) ^ 64 = 2 ^ k * 2 ^ (64 - k) := by
      rw [← pow_add, Nat.add_sub_cancel' hk]
    rw [shl64, Nat.shiftLeft_eq, hpow, Nat.mul_mod_mul_right]
  rw [rotateRight64, hshl, Nat.shiftRight_eq_div_pow, Nat.or_comm, or_eq_add _ hhigh]

/-! ### The encoding loop -/

/-- The packer holds the bits `bs`: the bytes written followed by the used bits
of the word, whose unused bits are zero. -/
structure Holds (p : Packer) (bs : List Bool) : Prop where
  unfilled_pos : 0 < p.unfilled
  unfilled_le : p.unfilled ≤ 64
  word : ∃ q, p.state = q * 2 ^ p.unfilled ∧ q < 2 ^ (64 - p.unfilled) ∧
    bytesBits p.dst ++ bits (64 - p.unfilled) q = bs

theorem holds_new (dst : List UInt8) : Holds ⟨0, 64, dst⟩ (bytesBits dst) where
  unfilled_pos := Nat.zero_lt_succ _
  unfilled_le := le_rfl
  word := ⟨0, by simp⟩

section

variable (h : Holds p bs) (hc : c < 2 ^ nbits)

include h hc

/-- A code that fits leaves room in the word. -/
theorem Holds.push_lt (hlt : nbits < p.unfilled) : Holds (p.push nbits c) (bs ++ bits nbits c) := by
  obtain ⟨q, hstate, hq, hbits⟩ := h.word
  have hle := h.unfilled_le
  have hpow : (2 : Nat) ^ p.unfilled = 2 ^ nbits * 2 ^ (p.unfilled - nbits) := by
    rw [← pow_add, Nat.add_sub_cancel' hlt.le]
  have hfits : c * 2 ^ (p.unfilled - nbits) < 2 ^ p.unfilled := by
    rw [hpow]
    exact (Nat.mul_lt_mul_right (Nat.two_pow_pos _)).mpr hc
  have hshl : shl64 c (p.unfilled - nbits) = c * 2 ^ (p.unfilled - nbits) := by
    rw [shl64, Nat.shiftLeft_eq]
    exact Nat.mod_eq_of_lt (hfits.trans_le (Nat.pow_le_pow_right (by decide) hle))
  have hpush : p.push nbits c =
      { p with
        state := p.state ||| shl64 c (p.unfilled - nbits)
        unfilled := p.unfilled - nbits } := by
    rw [Packer.push, if_pos hlt]
  rw [hpush]
  refine ⟨by simp only; omega, by simp only; omega, q * 2 ^ nbits + c, ?_, ?_, ?_⟩
  · rw [hstate, hshl, or_eq_add _ hfits, add_mul, hpow, mul_assoc]
  · rw [show 64 - (p.unfilled - nbits) = (64 - p.unfilled) + nbits by omega, pow_add]
    calc q * 2 ^ nbits + c < q * 2 ^ nbits + 2 ^ nbits := by omega
      _ = (q + 1) * 2 ^ nbits := by ring
      _ ≤ 2 ^ (64 - p.unfilled) * 2 ^ nbits := Nat.mul_le_mul_right _ hq
  · rw [show 64 - (p.unfilled - nbits) = (64 - p.unfilled) + nbits by omega,
      bits_append _ _ _ hc, ← append_assoc, hbits]

/-- A code that fills the word. -/
theorem Holds.push_eq (heq : nbits = p.unfilled) : Holds (p.push nbits c) (bs ++ bits nbits c) := by
  obtain ⟨q, hstate, -, hbits⟩ := h.word
  have hle := h.unfilled_le
  subst heq
  have hpush : p.push p.unfilled c = { state := 0, unfilled := 64, dst := p.dst ++ beBytes 8 (p.state ||| c) } := by
    rw [Packer.push, if_neg (lt_irrefl _), if_pos rfl]
  rw [hpush]
  refine ⟨Nat.zero_lt_succ _, le_rfl, 0, by simp, by simp, ?_⟩
  simp only [bytesBits_append, bytesBits_beBytes, hstate, or_eq_add _ hc, Nat.sub_self, bits_zero, append_nil]
  rw [show 8 * 8 = (64 - p.unfilled) + p.unfilled by omega, bits_append _ _ _ hc, ← append_assoc, hbits]

/-- A code that does not fit is split over two words. -/
theorem Holds.push_gt (hmax : nbits ≤ 64) (hgt : p.unfilled < nbits) :
    Holds (p.push nbits c) (bs ++ bits nbits c) := by
  obtain ⟨q, hstate, -, hbits⟩ := h.word
  have hpos := h.unfilled_pos
  obtain ⟨k, hk⟩ : ∃ k, nbits = p.unfilled + k := ⟨nbits - p.unfilled, by omega⟩
  have hhigh : c / 2 ^ k < 2 ^ p.unfilled := by
    rw [Nat.div_lt_iff_lt_mul (Nat.two_pow_pos _), ← pow_add, ← hk]
    exact hc
  have hlow : c % 2 ^ k < 2 ^ k := Nat.mod_lt _ (Nat.two_pow_pos _)
  have hpow : (2 : Nat) ^ (64 - k) = 2 ^ (64 - k - p.unfilled) * 2 ^ p.unfilled := by
    rw [← pow_add, Nat.sub_add_cancel (by omega)]
  have hrotate : rotateRight64 c k = c % 2 ^ k * 2 ^ (64 - k) + c / 2 ^ k :=
    rotateRight64_eq (by omega)
      (hhigh.trans_le (Nat.pow_le_pow_right (by decide) (by omega)))
  have hmod : rotateRight64 c k % 2 ^ p.unfilled = c / 2 ^ k := by
    rw [hrotate, hpow, ← mul_assoc, Nat.mul_add_mod_of_lt hhigh]
  have hdiv : rotateRight64 c k / 2 ^ p.unfilled * 2 ^ p.unfilled = c % 2 ^ k * 2 ^ (64 - k) := by
    have := Nat.div_add_mod' (rotateRight64 c k) (2 ^ p.unfilled)
    omega
  have hword : rotateRight64 c k < 2 ^ 64 := by
    have hsplit : (2 : Nat) ^ 64 = 2 ^ k * 2 ^ (64 - k) := by
      rw [← pow_add, Nat.add_sub_cancel' (by omega)]
    rw [hrotate, hsplit]
    calc c % 2 ^ k * 2 ^ (64 - k) + c / 2 ^ k
        < c % 2 ^ k * 2 ^ (64 - k) + 2 ^ (64 - k) := by
          have : (2 : Nat) ^ p.unfilled ≤ 2 ^ (64 - k) :=
            Nat.pow_le_pow_right (by decide) (by omega)
          omega
      _ = (c % 2 ^ k + 1) * 2 ^ (64 - k) := by ring
      _ ≤ 2 ^ k * 2 ^ (64 - k) := Nat.mul_le_mul_right _ hlow
  have hpush : p.push nbits c =
      { state := c % 2 ^ k * 2 ^ (64 - k)
        unfilled := 64 - k
        dst := p.dst ++ beBytes 8 (q * 2 ^ p.unfilled + c / 2 ^ k) } := by
    rw [Packer.push, if_neg (by omega), if_neg (by omega)]
    simp only [show nbits - p.unfilled = k by omega, u64Max_shiftRight h.unfilled_le,
      and_not_mask hword h.unfilled_le, Nat.and_two_pow_sub_one_eq_mod, hmod, hdiv, hstate,
      or_eq_add _ hhigh]
  rw [hpush]
  refine ⟨by simp only; omega, by simp only; omega, c % 2 ^ k, rfl, ?_, ?_⟩
  · simpa [show 64 - (64 - k) = k by omega] using hlow
  · simp only [bytesBits_append, bytesBits_beBytes, show 64 - (64 - k) = k by omega]
    rw [show 8 * 8 = (64 - p.unfilled) + p.unfilled by omega, bits_append _ _ _ hhigh,
      ← append_assoc, hbits, append_assoc, ← bits_append _ _ _ hlow, Nat.div_add_mod', hk]

theorem Holds.push (hmax : nbits ≤ 64) : Holds (p.push nbits c) (bs ++ bits nbits c) := by
  rcases lt_trichotomy nbits p.unfilled with hlt | heq | hgt
  · exact h.push_lt hc hlt
  · exact h.push_eq hc heq
  · exact h.push_gt hc hmax hgt

end

theorem Holds.pushBytes (h : Holds p bs) (src : List UInt8) :
    Holds (p.pushBytes src) (bs ++ (src.map symbolOf).flatMap code) := by
  induction src generalizing p bs with
  | nil => simpa [Packer.pushBytes] using h
  | cons byte src ih =>
    have hstep := h.push (value_lt (symbolOf byte)) ((width_le (symbolOf byte)).trans (by decide))
    have := ih hstep
    simpa [Packer.pushBytes, flatMap_cons, code, codeOf, width, value, symbolOf] using this

/-- The last word is padded with less than eight ones. -/
theorem Holds.finish (h : Holds p bs) : bytesBits p.finish = bs ++ List.replicate (p.unfilled % 8) true := by
  obtain ⟨q, hstate, hq, hbits⟩ := h.word
  have hle := h.unfilled_le
  by_cases hfull : p.unfilled = 64
  · have hnil : bits (64 - p.unfilled) q = [] := by simp [hfull]
    rw [hnil, append_nil] at hbits
    simp [Packer.finish, hfull, hbits]
  · have hone : 2 ^ p.unfilled - 1 < 2 ^ p.unfilled := by
      have := Nat.two_pow_pos p.unfilled
      omega
    obtain ⟨a, r, hr, hu⟩ : ∃ a r, r < 8 ∧ p.unfilled = 8 * a + r :=
      ⟨p.unfilled / 8, p.unfilled % 8, Nat.mod_lt _ (by decide), by omega⟩
    have hshift : (q * 2 ^ p.unfilled + (2 ^ p.unfilled - 1)) >>> (8 * a) = q * 2 ^ r + (2 ^ r - 1) := by
      have hpow : (2 : Nat) ^ p.unfilled = 2 ^ r * 2 ^ (8 * a) := by
        rw [← pow_add, add_comm r, ← hu]
      have hsum : q * 2 ^ p.unfilled + (2 ^ p.unfilled - 1) =
          (q * 2 ^ r + (2 ^ r - 1)) * 2 ^ (8 * a) + (2 ^ (8 * a) - 1) := by
        have h1 := Nat.two_pow_pos r
        have h2 := Nat.two_pow_pos (8 * a)
        rw [hpow, add_mul, Nat.sub_mul, mul_assoc]
        have : 2 ^ (8 * a) ≤ 2 ^ r * 2 ^ (8 * a) := Nat.le_mul_of_pos_left _ h1
        omega
      have hlast : 2 ^ (8 * a) - 1 < 2 ^ (8 * a) := by
        have := Nat.two_pow_pos (8 * a)
        omega
      rw [hsum, Nat.shiftRight_eq_div_pow, add_comm, Nat.add_mul_div_right _ _
        (Nat.two_pow_pos _), Nat.div_eq_of_lt hlast, zero_add]
    have hlen : 8 - p.unfilled >>> 3 = 8 - a := by omega
    have hfinish : p.finish = p.dst ++ beBytes (8 - a) (q * 2 ^ r + (2 ^ r - 1)) := by
      rw [Packer.finish, if_neg hfull, u64Max_shiftRight hle, hstate, or_eq_add _ hone, hlen,
        show beBytes 8 = beBytes ((8 - a) + a) by congr 1; omega, beBytes_take, hshift]
    have hpad : 2 ^ r - 1 < 2 ^ r := by
      have := Nat.two_pow_pos r
      omega
    rw [hfinish, bytesBits_append, bytesBits_beBytes,
      show 8 * (8 - a) = (64 - p.unfilled) + r by omega, bits_append _ _ _ hpad, bits_ones,
      ← append_assoc, hbits, hu, show (8 * a + r) % 8 = r by omega]

/-- The bits of an encoded string: its codewords, then less than eight ones. -/
theorem bytesBits_huffmanEncode (src dst : List UInt8) : ∃ r < 8, bytesBits (huffmanEncode src dst) =
      bytesBits dst ++ ((src.map symbolOf).flatMap code ++ List.replicate r true) := by
  have h := ((holds_new dst).pushBytes src).finish
  exact ⟨_, Nat.mod_lt _ (by decide), by rw [huffmanEncode, h, append_assoc]⟩

end YlongHttp.Huffman
