/-
The Huffman decoder gives back what the encoder was given.

The decoding table is an automaton over half bytes (`nibbleStep`). Every entry is
right about the bits its states stand for, so the automaton tracks the code
(`tracks`), and a run of `HuffmanDecoder` is a run of the automaton
(`decodeInner_of_run`). `decode_huffmanEncode` puts this together with the bits
the encoder writes.
-/

import YlongHttp.Huffman.Encode

namespace YlongHttp.Huffman

open Codec List

/-! ### The automaton -/

/-- One step of the decoding table. -/
def nibbleStep (s : Fin 256) (n : Fin 16) : Option (Fin 256 × List Symbol) :=
  let e := decodeEntry s n
  if e.2.2 &&& 0x4 = 0x4 then none
  else some (Fin.ofNat 256 e.1, if e.2.2 &&& 0x2 = 0x2 then [Fin.ofNat 257 e.2.1] else [])

theorem pending_nibble (s : Nat) {n : Nat} (hn : n < 16) :
    pending s ++ bits 4 n = bits (pendingWidth s + 4) (pendingValue s * 16 + n) :=
  (bits_append _ 4 _ hn).symm

/-- A pending value with the four bits read after it. -/
theorem nibble_lt {s n : Nat} (hs : s < 256) (hn : n < 16) : pendingValue s * 16 + n < 2 ^ (pendingWidth s + 4) := by
  have hvalue := pendingValue_lt hs
  rw [Nat.pow_add]
  omega

/-- The bits of a state, from its packed form. -/
theorem pending_of_word {s len v : Nat} (hs : s < 256) (hv : v < 2 ^ len)
    (h : stateWord s = word len v) : pending s = bits len v := by
  rw [stateWord_eq hs] at h
  have hvalue := pendingValue_lt_word s
  have hlen : len < 30 := by
    have hwidth := (pendingWidth_lt hs).trans_le (width_le _)
    unfold word at h
    omega
  have hsmall : v < 2 ^ 32 :=
    hv.trans (Nat.pow_lt_pow_right (by decide) (by omega))
  obtain ⟨hw, hval⟩ := word_inj hvalue hsmall h
  rw [pending, hw, hval]

theorem width_eos : width eos = 30 := by
  decide +kernel

/-- The automaton follows the code: a step emits the codewords completed by the
half byte, and is refused only at the end-of-string symbol. -/
theorem tracks : Tracks nibbleStep code eos (fun n : Fin 16 => bits 4 n) (fun s : Fin 256 => pending s) where
  unfinished s := unfinished_pending s.isLt
  accepts := by
    intro s n s' out hstep
    obtain ⟨hentry, -⟩ := entryOk_decodeEntry s.isLt n.isLt
    have hlt := nibble_lt s.isLt n.isLt
    rw [pending_nibble _ n.isLt]
    unfold nibbleStep at hstep
    unfold entryOk at hentry
    by_cases herr : (decodeEntry s n).2.2 &&& 0x4 = 0x4
    · simp [herr] at hstep
    simp only [herr, ↓reduceIte, Option.some.injEq, Prod.mk.injEq] at hstep hentry
    obtain ⟨rfl, rfl⟩ := hstep
    by_cases hemit : (decodeEntry s n).2.2 &&& 0x2 = 0x2
    · -- A codeword is complete and the rest of the bits stay pending.
      simp only [hemit, ↓reduceIte, Bool.and_eq_true, decide_eq_true_eq] at hentry ⊢
      obtain ⟨⟨⟨⟨hstate, hsym⟩, hfit⟩, hcode⟩, hnext⟩ := hentry
      have hsymbol : ((Fin.ofNat 257 (decodeEntry s n).2.1 : Symbol) : Nat) =
          (decodeEntry s n).2.1 := Nat.mod_eq_of_lt (by omega)
      rw [← hsymbol, codeWord_div] at hfit hnext hcode
      rw [codeWord_mod] at hcode
      have hpending := pending_of_word hstate (Nat.mod_lt _ (Nat.two_pow_pos _)) hnext
      rw [Fin.val_ofNat, Nat.mod_eq_of_lt hstate, hpending]
      simp only [flatMap_cons, flatMap_nil, append_nil]
      rw [code, ← hcode, ← bits_split, Nat.add_sub_cancel' hfit]
    · -- All bits read so far stay pending.
      simp only [hemit, ↓reduceIte, Bool.and_eq_true, decide_eq_true_eq] at hentry ⊢
      obtain ⟨hstate, hnext⟩ := hentry
      rw [Fin.val_ofNat, Nat.mod_eq_of_lt hstate, pending_of_word hstate hlt hnext]
      simp
  refuses := by
    intro s n hstep
    obtain ⟨hentry, -⟩ := entryOk_decodeEntry s.isLt n.isLt
    rw [pending_nibble _ n.isLt]
    unfold nibbleStep at hstep
    unfold entryOk at hentry
    by_cases herr : (decodeEntry s n).2.2 &&& 0x4 = 0x4
    · simp only [herr, ↓reduceIte, Bool.and_eq_true, decide_eq_true_eq] at hentry
      obtain ⟨hfit, hcode⟩ := hentry
      have hvalue := codeWord_mod eos
      rw [show ((eos : Symbol) : Nat) = 256 from rfl] at hvalue
      rw [hvalue] at hcode
      have hsplit := bits_split 30 (pendingWidth s + 4 - 30) (pendingValue s * 16 + n)
      rw [Nat.add_sub_cancel' hfit, hcode] at hsplit
      exact ⟨_, by rw [hsplit, code, width_eos]⟩
    · simp [herr] at hstep

/-! ### Padding -/

/-- Less than eight ones contain no codeword: they begin the end-of-string symbol. -/
theorem unfinished_ones {r : Nat} (hr : r < 8) : Unfinished code (List.replicate r true) := by
  have heos : code eos = replicate 30 true := by
    have hvalue : value eos = 2 ^ 30 - 1 := by decide +kernel
    rw [code, width_eos, hvalue, bits_ones]
  intro a ha
  have hpre : replicate r true <+: code eos :=
    heos ▸ ⟨replicate (30 - r) true, by rw [← replicate_add]; congr 1; omega⟩
  have hsame := prefixFree_code a eos (ha.trans hpre)
  have hlen := ha.length_le
  rw [hsame, length_code, width_eos, length_replicate] at hlen
  omega

/-- Only the initial state has no bit pending. -/
theorem eq_zero_of_pending_nil {s : Nat} (hs : s < 256) (h : pending s = []) : s = 0 := by
  have hwidth : pendingWidth s = 0 := by
    have := congrArg length h
    simpa [pending] using this
  cases s with
  | zero => rfl
  | succ s =>
    have hpos : ∀ e ∈ stateTable.tail, 0 < e.1 := by decide +kernel
    have hlt : s < stateTable.tail.length := by
      rw [length_tail, length_stateTable]
      omega
    have hget : stateTable.getD (s + 1) (0, 0) = stateTable.tail[s] := by
      rw [getD_eq_getElem _ _ (by rw [length_stateTable]; exact hs), getElem_tail]
    have := hpos _ (getElem_mem hlt)
    rw [← hget] at this
    rw [pendingWidth] at hwidth
    omega

/-! ### Runs of the decoder -/

/-- The decoder stands in state `s` of the automaton, and if the bits pending
there can be padding, `finish` accepts them. -/
structure Follows (d : HuffmanDecoder) (s : Fin 256) : Prop where
  state : d.state = s
  padding : ∀ r < 8, pending s = List.replicate r true → d.state = 0 ∨ d.flags &&& 0x1 ≠ 0

theorem follows_new (vec : List UInt8) : Follows ⟨0, 0, vec⟩ 0 where
  state := rfl
  padding _ _ _ := .inl rfl

/-- The byte of a symbol. -/
def byteOf (a : Symbol) : UInt8 := a.val.toUInt8

theorem byteOf_symbolOf (b : UInt8) : byteOf (symbolOf b) = b := by
  simp [byteOf, symbolOf]

/-- A step of the automaton is a step of the decoder. -/
theorem decodeNibble_of_step {d : HuffmanDecoder} {s s' : Fin 256} {n : Fin 16}
    {out : List Symbol} (h : Follows d s) (hstep : nibbleStep s n = some (s', out)) :
    ∃ d', decodeNibble d n = .ok d' ∧ Follows d' s' ∧ d'.vec = d.vec ++ out.map byteOf := by
  obtain ⟨hentry, hflag⟩ := entryOk_decodeEntry s.isLt n.isLt
  unfold nibbleStep at hstep
  by_cases herr : (decodeEntry s n).2.2 &&& 0x4 = 0x4
  · simp [herr] at hstep
  simp only [herr, ↓reduceIte, Option.some.injEq, Prod.mk.injEq] at hstep
  obtain ⟨rfl, rfl⟩ := hstep
  have hstate : (decodeEntry s n).1 < 256 := by
    simp only [entryOk, herr, ↓reduceIte] at hentry
    split at hentry
    · simp only [Bool.and_eq_true, decide_eq_true_eq] at hentry
      exact hentry.1.1.1.1
    · simp only [Bool.and_eq_true, decide_eq_true_eq] at hentry
      exact hentry.1
  have hok : decodeNibble d n = .ok ⟨(decodeEntry s n).1, (decodeEntry s n).2.2,
      if (decodeEntry s n).2.2 &&& 0x2 = 0x2 then d.vec ++ [(decodeEntry s n).2.1.toUInt8]
      else d.vec⟩ := by
    simp only [decodeNibble, h.state, herr, ↓reduceIte]
  refine ⟨_, hok, ⟨(Nat.mod_eq_of_lt hstate).symm, ?_⟩, ?_⟩
  · intro r hr hpending
    rw [Fin.val_ofNat, Nat.mod_eq_of_lt hstate] at hpending
    by_cases hzero : r = 0
    · subst hzero
      exact .inl (eq_zero_of_pending_nil hstate hpending)
    · -- One to seven ones are pending, so the entry carries the flag.
      right
      have hwidth : pendingWidth (decodeEntry s n).1 = r := by
        have := congrArg length hpending
        simpa [pending] using this
      have hvalue : pendingValue (decodeEntry s n).1 = 2 ^ r - 1 := by
        rw [pending, hwidth, ← bits_ones] at hpending
        refine bits_inj ?_ ?_ hpending
        · exact hwidth ▸ pendingValue_lt hstate
        · have := Nat.two_pow_pos r
          omega
      have hdiv : stateWord (decodeEntry s n).1 / 2 ^ 32 = r := by
        have := pendingValue_lt_word (decodeEntry s n).1
        rw [stateWord_eq hstate, word]
        omega
      have hmod : stateWord (decodeEntry s n).1 % 2 ^ 32 = 2 ^ r - 1 := by
        have := pendingValue_lt_word (decodeEntry s n).1
        rw [stateWord_eq hstate, word]
        omega
      simp only [flagOk, herr, decide_false, Bool.false_or, hdiv, hmod, beq_iff_eq, decide_eq_decide] at hflag
      have hone := hflag.mpr ⟨by omega, hr, trivial⟩
      simp only
      omega
  · by_cases hemit : (decodeEntry s n).2.2 &&& 0x2 = 0x2
    · have hsym : (decodeEntry s n).2.1 < 257 := by
        simp only [entryOk, herr, hemit, ↓reduceIte, Bool.and_eq_true, decide_eq_true_eq] at hentry
        omega
      simp [hemit, byteOf, Nat.mod_eq_of_lt hsym]
    · simp [hemit]

/-- The half bytes of a byte string. -/
def nibbles (src : List UInt8) : List (Fin 16) :=
  src.flatMap fun b => [⟨b.toNat >>> 4, by
    have := b.toNat_lt
    rw [Nat.shiftRight_eq_div_pow]
    omega⟩, ⟨b.toNat &&& 0xf, Nat.and_lt_two_pow b.toNat (n := 4) (by decide)⟩]

theorem flatMap_nibbles (src : List UInt8) : (nibbles src).flatMap (fun n : Fin 16 => bits 4 n) = bytesBits src := by
  induction src with
  | nil => rfl
  | cons b src ih =>
    have hhalves := byteBits_nibbles b
    rw [show b.toNat / 16 = b.toNat >>> 4 by rw [Nat.shiftRight_eq_div_pow],
      show b.toNat % 16 = b.toNat &&& 0xf from (Nat.and_two_pow_sub_one_eq_mod _ 4).symm] at hhalves
    rw [bytesBits_cons, ← ih, hhalves]
    simp [nibbles]

/-- A run of the automaton is a run of the decoder. -/
theorem decodeInner_of_run :
    ∀ {src : List UInt8} {d : HuffmanDecoder} {s s' : Fin 256} {out : List Symbol}, Follows d s →
      runChunks nibbleStep s (nibbles src) = some (s', out) →
      ∃ d', huffmanDecodeInner src d = .ok d' ∧ Follows d' s' ∧ d'.vec = d.vec ++ out.map byteOf
  | [], d, s, s', out, h, hrun => by
    obtain ⟨rfl, rfl⟩ := hrun
    exact ⟨d, rfl, h, by simp⟩
  | b :: src, d, s, s', out, h, hrun => by
    rw [nibbles, flatMap_cons] at hrun
    simp only [cons_append, nil_append, runChunks] at hrun
    split at hrun
    · cases hrun
    · rename_i s₁ out₁ hfirst
      simp only [Option.map_eq_some_iff] at hrun
      obtain ⟨⟨s₂, out₂⟩, hrun, heq⟩ := hrun
      split at hrun
      · cases hrun
      · rename_i s₃ out₃ hsecond
        simp only [Option.map_eq_some_iff] at hrun
        obtain ⟨⟨s₄, out₄⟩, hrest, heq'⟩ := hrun
        obtain ⟨rfl, rfl⟩ := heq'
        obtain ⟨rfl, rfl⟩ := heq
        obtain ⟨d₁, hd₁, hf₁, hv₁⟩ := decodeNibble_of_step h hfirst
        obtain ⟨d₂, hd₂, hf₂, hv₂⟩ := decodeNibble_of_step hf₁ hsecond
        obtain ⟨d₃, hd₃, hf₃, hv₃⟩ := decodeInner_of_run hf₂ hrest
        refine ⟨d₃, ?_, hf₃, by simp [hv₃, hv₂, hv₁]⟩
        simp only [huffmanDecodeInner, hd₁, hd₂, hd₃, bind, Except.bind]

/-- Decoding an encoded string gives the string back. -/
theorem decode_huffmanEncode (src : List UInt8) :
    ∃ d, HuffmanDecoder.new.decode (huffmanEncode src []) = .ok d ∧ d.finish = .ok src := by
  obtain ⟨r, hr, hbits⟩ := bytesBits_huffmanEncode src []
  have hread : pending (0 : Fin 256) ++ (nibbles (huffmanEncode src [])).flatMap
      (fun n : Fin 16 => bits 4 n) =
      (src.map symbolOf).flatMap code ++ replicate r true := by
    have hstart : pending (0 : Fin 256) = [] := rfl
    rw [hstart, nil_append, flatMap_nibbles, hbits, bytesBits_nil, nil_append]
  have heos : eos ∉ src.map symbolOf := by
    intro hmem
    obtain ⟨b, -, hb⟩ := mem_map.mp hmem
    have := congrArg Fin.val hb
    have hlt := b.toNat_lt
    simp only [symbolOf, eos] at this
    omega
  obtain ⟨s', hrun, hpending⟩ :=
    tracks.run_of_reading prefixFree_code (unfinished_ones hr) heos hread
  obtain ⟨d, hd, hfollows, hvec⟩ := decodeInner_of_run (follows_new []) hrun
  refine ⟨d, hd, ?_⟩
  have hid : src.map (byteOf ∘ symbolOf) = src := by simp [Function.comp_def, byteOf_symbolOf]
  have haccept := hfollows.padding r hr hpending
  rw [HuffmanDecoder.finish, if_neg (by tauto), hvec, map_map, hid, nil_append]

end YlongHttp.Huffman
