/-
What the Huffman decoder accepts.

A call of the decoder that does not fail is a run of the automaton (`run_of_nibbles`), and
the `maybe_eos` flag is set exactly if one to seven ones are pending (`Padded`). So the bits of
an accepted code are codewords followed by less than eight ones, and that is what the encoder
writes for the decoded string (`huffmanEncode_of_decode`).
-/

import YlongHttp.Huffman.Decode

namespace YlongHttp.Huffman

open Codec List

/-! ### Calls in segments -/

/-- Calls of `decode`, one for each segment. -/
def HuffmanDecoder.decodeAll (d : HuffmanDecoder) (segments : List (List UInt8)) :
    Except HuffmanDecodeError HuffmanDecoder :=
  segments.foldlM HuffmanDecoder.decode d

theorem decodeInner_append (xs ys : List UInt8) (d : HuffmanDecoder) :
    huffmanDecodeInner (xs ++ ys) d = huffmanDecodeInner xs d >>= huffmanDecodeInner ys := by
  induction xs generalizing d with
  | nil => rfl
  | cons x xs ih =>
    rw [cons_append, huffmanDecodeInner, huffmanDecodeInner]
    cases decodeNibble d (x.toNat >>> 4) with
    | error e => rfl
    | ok d₁ =>
      cases hsecond : decodeNibble d₁ (x.toNat &&& 0xf) with
      | error e => simp only [bind, Except.bind, hsecond]
      | ok d₂ =>
        simp only [bind, Except.bind, hsecond]
        exact ih d₂

/-- Segments are decoded like the whole. -/
theorem decodeAll_eq (segments : List (List UInt8)) (d : HuffmanDecoder) :
    d.decodeAll segments = d.decode segments.flatten := by
  induction segments generalizing d with
  | nil => rfl
  | cons segment segments ih =>
    rw [flatten_cons, HuffmanDecoder.decode, decodeInner_append, HuffmanDecoder.decodeAll]
    apply bind_congr
    intro d'
    exact ih d'

/-- Decoding what was encoded gives the string back, in one call and in segments. -/
theorem huffmanDecode_encode (s : List UInt8) :
    huffmanDecode (huffmanEncode s []) [] = .ok s ∧
      ∀ segments : List (List UInt8), segments.flatten = huffmanEncode s [] →
        (HuffmanDecoder.new.decodeAll segments >>= HuffmanDecoder.finish) = .ok s := by
  obtain ⟨d, hdecode, hfinish⟩ := decode_huffmanEncode s
  constructor
  · have hinner : huffmanDecodeInner (huffmanEncode s []) ⟨0, 0, []⟩ = .ok d := hdecode
    rw [huffmanDecode, hinner]
    exact hfinish
  · intro segments hsegments
    rw [decodeAll_eq, hsegments, hdecode]
    exact hfinish

/-- The code of `a1` is cut in the middle. -/
theorem huffmanDecode_encode_cut : [[0x18], [0x7f]].flatten = huffmanEncode [0x61, 0x31] [] ∧
    (HuffmanDecoder.new.decodeAll [[0x18], [0x7f]] >>= HuffmanDecoder.finish) = .ok [0x61, 0x31] := by
  refine ⟨?segments, (huffmanDecode_encode _).2 _ ?segments⟩
  decide +kernel

/-! ### Runs -/

/-- The decoder stands in state `s`, and may stop there only if the pending bits are less than
eight ones. -/
structure Padded (d : HuffmanDecoder) (s : Fin 256) : Prop where
  follows : Follows d s
  ones : d.state = 0 ∨ d.flags &&& 0x1 = 0x1 → ∃ r < 8, pending s = List.replicate r true

theorem padded_new (vec : List UInt8) : Padded ⟨0, 0, vec⟩ 0 where
  follows := follows_new vec
  ones _ := ⟨0, by decide, rfl⟩

variable {s : Fin 256} {n : Fin 16} {d d' : HuffmanDecoder}

/-- The bits of a state with the flag. -/
theorem pending_of_flag (hstate : (decodeEntry s n).1 < 256)
    (herr : ¬ (decodeEntry s n).2.2 &&& 0x4 = 0x4) (hflag : (decodeEntry s n).2.2 &&& 0x1 = 0x1) :
    ∃ r < 8, pending (decodeEntry s n).1 = List.replicate r true := by
  obtain ⟨-, hok⟩ := entryOk_decodeEntry s.isLt n.isLt
  simp only [flagOk, herr, hflag, decide_false, decide_true, Bool.false_or, beq_iff_eq] at hok
  obtain ⟨-, hwidth, hvalue⟩ := of_decide_eq_true hok.symm
  refine ⟨_, hwidth, ?_⟩
  rw [← bits_ones, ← hvalue]
  apply pending_of_word hstate
  · have hpos := Nat.two_pow_pos (stateWord (decodeEntry s n).1 / 2 ^ 32)
    omega
  · rw [word, Nat.mul_comm, Nat.div_add_mod]

/-- A half byte that the decoder takes is a step of the automaton. -/
theorem step_of_decodeNibble (h : Follows d s) (hok : decodeNibble d n = .ok d') :
    ∃ s' out, nibbleStep s n = some (s', out) ∧ Padded d' s' ∧ d'.vec = d.vec ++ out.map byteOf := by
  by_cases herr : (decodeEntry s n).2.2 &&& 0x4 = 0x4
  · simp [decodeNibble, h.state, herr] at hok
  · obtain ⟨s', out, hstep⟩ : ∃ s' out, nibbleStep s n = some (s', out) := by simp [nibbleStep, herr]
    obtain ⟨d'', hok', hfollows, hvec⟩ := decodeNibble_of_step h hstep
    obtain rfl : d' = d'' := Except.ok.inj (hok.symm.trans hok')
    refine ⟨s', out, hstep, ⟨hfollows, ?_⟩, hvec⟩
    have hflags : d'.flags = (decodeEntry s n).2.2 ∧ d'.state = (decodeEntry s n).1 := by
      simp only [decodeNibble, h.state, herr, ↓reduceIte, Except.ok.injEq] at hok
      rw [← hok]
      exact ⟨rfl, rfl⟩
    rintro (hzero | hflag)
    · refine ⟨0, by decide, ?_⟩
      rw [← hfollows.state, hzero]
      rfl
    · rw [hflags.1] at hflag
      rw [← hfollows.state, hflags.2]
      exact pending_of_flag (hflags.2 ▸ hfollows.state ▸ s'.isLt) herr hflag

/-- The emitted symbols are bytes. -/
theorem nibbleStep_bytes {s' : Fin 256} {out : List Symbol}
    (h : nibbleStep s n = some (s', out)) : ∀ a ∈ out, a ≠ eos := by
  obtain ⟨hentry, -⟩ := entryOk_decodeEntry s.isLt n.isLt
  unfold nibbleStep at h
  unfold entryOk at hentry
  by_cases herr : (decodeEntry s n).2.2 &&& 0x4 = 0x4
  · simp [herr] at h
  · simp only [herr, ↓reduceIte, Option.some.injEq, Prod.mk.injEq] at h hentry
    obtain ⟨-, rfl⟩ := h
    by_cases hemit : (decodeEntry s n).2.2 &&& 0x2 = 0x2
    · simp only [hemit, ↓reduceIte, Bool.and_eq_true, decide_eq_true_eq] at hentry ⊢
      obtain ⟨⟨⟨⟨-, hbyte⟩, -⟩, -⟩, -⟩ := hentry
      intro a ha heos
      rw [mem_singleton.mp ha] at heos
      have hvalue := congrArg Fin.val heos
      rw [Fin.val_ofNat, Nat.mod_eq_of_lt (Nat.lt_succ_of_lt hbyte)] at hvalue
      exact absurd hvalue (Nat.ne_of_lt hbyte)
    · simp [hemit]

theorem decodeInner_eq_nibbles (src : List UInt8) (d : HuffmanDecoder) :
    huffmanDecodeInner src d = (nibbles src).foldlM (fun d n => decodeNibble d n.val) d := by
  induction src generalizing d with
  | nil => rfl
  | cons b src ih =>
    apply bind_congr
    intro d₁
    apply bind_congr
    intro d₂
    exact ih d₂

/-- Half bytes that the decoder takes are a run of the automaton. -/
theorem run_of_nibbles {ns : List (Fin 16)} (h : Padded d s)
    (hok : ns.foldlM (fun d n => decodeNibble d n.val) d = .ok d') :
    ∃ s' out, runChunks nibbleStep s ns = some (s', out) ∧ Padded d' s' ∧ d'.vec = d.vec ++ out.map byteOf := by
  induction ns generalizing d s with
  | nil =>
    cases hok
    exact ⟨s, [], rfl, h, (append_nil _).symm⟩
  | cons n ns ih =>
    rw [foldlM_cons] at hok
    cases hfirst : decodeNibble d n with
    | error e =>
      rw [hfirst] at hok
      cases hok
    | ok d₁ =>
      rw [hfirst] at hok
      obtain ⟨s₁, out₁, hstep, hpadded₁, hvec₁⟩ := step_of_decodeNibble h.follows hfirst
      obtain ⟨s', out, hrun, hpadded, hvec⟩ := ih hpadded₁ hok
      refine ⟨s', out₁ ++ out, ?_, hpadded, ?_⟩
      · simp only [runChunks, hstep, hrun, Option.map_some]
      · rw [hvec, hvec₁, map_append, append_assoc]

theorem symbolOf_byteOf {a : Symbol} (h : a ≠ eos) : symbolOf (byteOf a) = a := by
  have hlt : a.val < 256 := by
    have hne : a.val ≠ 256 := fun heq => h (Fin.ext heq)
    omega
  apply Fin.ext
  simp only [symbolOf, byteOf, Nat.toUInt8, UInt8.toNat_ofNat', Nat.mod_eq_of_lt hlt]

/-- What the decoder accepts is what the encoder writes for the result: the padding is less than
eight ones, and the end-of-string symbol is nowhere read. -/
theorem huffmanEncode_of_decode (c s : List UInt8) (h : huffmanDecode c [] = .ok s) :
    huffmanEncode s [] = c ∧ (∃ r < 8, bytesBits c = (s.map symbolOf).flatMap code ++ List.replicate r true) ∧
      ∀ (xs : List Symbol) (rest : List Bool), bytesBits c ≠ xs.flatMap code ++ (code eos ++ rest) := by
  rw [huffmanDecode, decodeInner_eq_nibbles] at h
  cases hinner : (nibbles c).foldlM (fun d n => decodeNibble d n.val) ⟨0, 0, []⟩ with
  | error e =>
    rw [hinner] at h
    cases h
  | ok d =>
    simp only [hinner, bind, Except.bind, HuffmanDecoder.finish] at h
    split at h
    · cases h
    · rename_i hstop
      obtain rfl : d.vec = s := Except.ok.inj h
      obtain ⟨s', out, hrun, hpadded, hvec⟩ := run_of_nibbles (padded_new []) hinner
      have hmay : d.state = 0 ∨ d.flags &&& 0x1 = 0x1 := by
        rw [Nat.and_one_is_mod] at hstop ⊢
        omega
      obtain ⟨r, hr, hpending⟩ := hpadded.ones hmay
      have hbytes : ∀ a ∈ out, a ≠ eos := run_mem nibbleStep_bytes hrun
      have hout : d.vec.map symbolOf = out := by
        rw [hvec, nil_append, map_map]
        have hsame := map_congr_left fun a ha => symbolOf_byteOf (hbytes a ha)
        rwa [map_id'] at hsame
      have hstart : pending (0 : Fin 256) = [] := rfl
      have hread := tracks.run_sound hrun
      rw [hstart, nil_append, flatMap_nibbles, hpending, ← hout] at hread
      refine ⟨?_, ⟨r, hr, hread⟩, ?_⟩
      · obtain ⟨r', hr', hbits⟩ := bytesBits_huffmanEncode d.vec []
        -- both lengths are those of whole bytes, so the padding is the same
        apply bytesBits_inj
        have hlength := congrArg length hread
        have hlength' := congrArg length hbits
        simp only [length_append, length_bytesBits, length_replicate, length_nil] at hlength hlength'
        obtain rfl : r' = r := by omega
        rw [hread, hbits, bytesBits_nil, nil_append]
      · intro xs rest
        have hnot := tracks.not_read prefixFree_code nibbleStep_bytes hrun xs rest
        rwa [hstart, flatMap_nibbles] at hnot

/-- The code of `a1` with its padding. -/
theorem huffmanEncode_of_decode_a1 : huffmanDecode [0x18, 0x7f] [] = .ok [0x61, 0x31] ∧
    huffmanEncode [0x61, 0x31] [] = [0x18, 0x7f] := by
  refine ⟨?decode, (huffmanEncode_of_decode _ _ ?decode).1⟩
  decide +kernel

end YlongHttp.Huffman
