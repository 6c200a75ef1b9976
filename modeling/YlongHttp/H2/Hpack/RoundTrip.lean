/-
What the HPACK decoder makes of what the HPACK encoder writes.

Every representation is read back as it was written (`decode_represent`). The
field it then names is the one that was encoded, except where the encoder gave a
dynamic entry that has only the name of the field: `sent` is the field the decoder
gets. Both sides change their dynamic tables alike, so that after every block the
tables agree and the parts are those of the sent fields (`decode_block`).
-/

import YlongHttp.H2.Hpack.Encoder
import YlongHttp.H2.Hpack.Decoder
import YlongHttp.Huffman.Decode

namespace YlongHttp.H2.Hpack

open Rust Codec Huffman

/-! ### Integers -/

/-- A pattern of the high bits of a first byte that leaves the bits of the mask free. -/
def FreePrefix (mask pre : UInt8) : Prop := ∀ x : UInt8, x ≤ mask → (pre ||| x) &&& mask = x

theorem freePrefix_indexed : FreePrefix 0x7f 0x80 := forall_byte (by decide +kernel)

theorem freePrefix_indexing : FreePrefix 0x3f 0x40 := forall_byte (by decide +kernel)

theorem freePrefix_length (isHuffman : Bool) : FreePrefix 0x7f (Integer.preMask isHuffman) := by
  cases isHuffman <;> exact forall_byte (by decide +kernel)

variable {i : Nat} {isHuffman : Bool} {value : List UInt8}

/-- The first byte of an integer holds it, or starts a decoder that reads it from
the bytes that follow. -/
theorem firstByte_octets {mask pre : UInt8} (hfree : FreePrefix mask pre) (hi : i < usizeSize) :
    ∃ x ≤ mask, ∃ bs, (IntegerEncoder.new i mask pre).octets = (pre ||| x) :: bs ∧
      ((IntegerDecoder.firstByte (pre ||| x) mask = .ok i ∧ bs = []) ∨
        ∃ int, IntegerDecoder.firstByte (pre ||| x) mask = .error int ∧
          ∀ rest, int.trailingLoop (bs ++ rest) = .ok (.decoded i) rest) := by
  by_cases hsmall : i < mask.toNat
  · have hmask := mask.toNat_lt
    have htoNat : i.toUInt8.toNat = i := by
      simp only [Nat.toUInt8_eq, UInt8.toNat_ofNat']
      omega
    have hlt : i.toUInt8 < mask := UInt8.lt_iff_toNat_lt.mpr (by rw [htoNat]; exact hsmall)
    have hle : i.toUInt8 ≤ mask := UInt8.le_iff_toNat_le.mpr (by rw [htoNat]; exact hsmall.le)
    refine ⟨i.toUInt8, hle, [], by simp [IntegerEncoder.octets, IntegerEncoder.new, hsmall], .inl ⟨?_, rfl⟩⟩
    simp only [IntegerDecoder.firstByte, hfree _ hle, hlt, ↓reduceIte, htoNat]
  · refine ⟨mask, UInt8.le_refl _, IntegerEncoder.groups (i - mask.toNat),
      by simp [IntegerEncoder.octets, IntegerEncoder.new, hsmall], .inr ⟨⟨mask.toNat, 1, Nat.one_pos⟩, ?_, ?_⟩⟩
    · simp only [IntegerDecoder.firstByte, hfree _ (UInt8.le_refl _), UInt8.lt_irrefl, ↓reduceIte]
    · intro rest
      have hsum : mask.toNat + (i - mask.toNat) * 2 ^ (7 * 0) = i := by omega
      have hloop := IntegerDecoder.trailingLoop_groups (i - mask.toNat)
        ⟨mask.toNat, 1, Nat.one_pos⟩ 0 rest rfl (by decide) (by simp only; omega)
      simpa only [hsum] using hloop

/-- The index at the start of a representation is read back. -/
theorem firstByte_index (repr : PrefixBit) {pre : UInt8} (hfree : FreePrefix repr.prefixIndexMask pre)
    (hrepr : ∀ x ≤ repr.prefixIndexMask, PrefixBit.fromU8 (pre ||| x) = repr) (hi : i < usizeSize)
    (rest : List UInt8) : FirstByte.decode ((IntegerEncoder.new i repr.prefixIndexMask pre).octets ++ rest) =
      .ok (.decoded (repr, i)) rest := by
  obtain ⟨x, hx, bs, hoctets, hfirst⟩ := firstByte_octets hfree hi
  rw [hoctets, List.cons_append, FirstByte.decode]
  simp only [hrepr x hx]
  rcases hfirst with ⟨hok, rfl⟩ | ⟨int, herr, hloop⟩
  · simp only [hok, List.nil_append]
  · simp only [herr, TrailingBytes.decode, Method.bind_apply, IntegerDecoder.decodeTrailing_apply,
      hloop, Outcome.bind_ok, Method.pure_apply]

/-! ### Strings -/

theorem decodeOctets_new (s : List UInt8) (isHuffman : Bool) (rest : List UInt8) :
    LiteralString.decodeOctets isHuffman (Octets.new s isHuffman).len
      ((Octets.new s isHuffman).octets ++ rest) = .ok (.decoded s) rest := by
  cases isHuffman with
  | false =>
    have hle : s.length ≤ (s ++ rest).length := by simp
    simp [LiteralString.decodeOctets, Octets.new, Octets.len, Octets.octets,
      AsciiStringBytes.decode, AsciiStringBytes.new, checkedSub, sliceTo_eq_ok hle,
      sliceFrom_eq_ok hle]
  | true =>
    obtain ⟨d, hdecode, hfinish⟩ := decode_huffmanEncode s
    have hle : (huffmanEncode s []).length ≤ (huffmanEncode s [] ++ rest).length := by simp
    simp [LiteralString.decodeOctets, Octets.new, Octets.len, Octets.octets,
      HuffmanStringBytes.decode, HuffmanStringBytes.new, checkedSub, sliceTo_eq_ok hle,
      sliceFrom_eq_ok hle, hdecode, hfinish]

theorem huffmanBit : ∀ (isHuffman : Bool) (x : UInt8), x ≤ 0x7f →
    decide ((Integer.preMask isHuffman ||| x) &&& 0x80 = 0x80) = isHuffman := by
  intro isHuffman
  cases isHuffman <;> exact forall_byte (by decide +kernel)

/-- The bytes of a string literal. -/
def stringOctets (s : List UInt8) (isHuffman : Bool) : List UInt8 :=
  (Integer.length (Octets.new s isHuffman).len isHuffman).octets ++ (Octets.new s isHuffman).octets

/-- A string literal is read back. -/
theorem decode_string {s : List UInt8} (hlen : (Octets.new s isHuffman).len < usizeSize) (rest : List UInt8) :
    LengthFirstByte.decode (stringOctets s isHuffman ++ rest) = .ok (.decoded s) rest := by
  obtain ⟨x, hx, bs, hoctets, hfirst⟩ := firstByte_octets (freePrefix_length isHuffman) hlen
  rw [stringOctets, Integer.length, hoctets, List.append_assoc, List.cons_append, LengthFirstByte.decode]
  simp only [huffmanBit isHuffman x hx]
  rcases hfirst with ⟨hok, rfl⟩ | ⟨int, herr, hloop⟩
  · simp only [hok, List.nil_append, decodeOctets_new]
  · simp only [herr, LengthTrailingBytes.decode, Method.bind_apply,
      IntegerDecoder.decodeTrailing_apply, hloop, Outcome.bind_ok, decodeOctets_new]

/-! ### Representations -/

/-- The representation a field is written as. -/
def represented (table : DynamicTable) (f : Field) : Representation :=
  match TableSearcher.index table f.1 f.2 with
  | some (.header index) => .indexed index
  | some (.headerName index) => .literalWithIndexing (.index index) f.2
  | none => .literalWithIndexing (.literal f.1.intoString) f.2

/-- The strings of a field have lengths that a `usize` can hold. -/
def Encodable (useHuffman : Bool) (f : Field) : Prop :=
  (Octets.new f.1.intoString useHuffman).len < usizeSize ∧ (Octets.new f.2 useHuffman).len < usizeSize

instance (useHuffman : Bool) (f : Field) : Decidable (Encodable useHuffman f) :=
  inferInstanceAs (Decidable (_ ∧ _))

theorem decode_indexed (hpos : 0 < i) (hi : i < usizeSize) (rest : List UInt8) :
    Index.decode .firstByte ((Integer.index i 0x7f 0x80).octets ++ rest) = .ok (.decoded (.indexed i)) rest := by
  have hfirst : FirstByte.decode ((Integer.index i 0x7f 0x80).octets ++ rest) = .ok (.decoded (.indexed, i)) rest :=
    firstByte_index .indexed freePrefix_indexed (forall_byte (by decide +kernel)) hi rest
  simp [Index.decode, IndexInner.decode, hfirst, hpos.ne']

theorem firstByte_indexing (hi : i < usizeSize) (rest : List UInt8) :
    FirstByte.decode ((Integer.index i 0x3f 0x40).octets ++ rest) = .ok (.decoded (.literalWithIndexing, i)) rest :=
  firstByte_index .literalWithIndexing freePrefix_indexing (forall_byte (by decide +kernel)) hi rest

theorem decode_value {name : Name} (hvalue : (Octets.new value isHuffman).len < usizeSize) (rest : List UInt8) :
    ValueString.decode .literalWithIndexing name .lengthFirstByte (stringOctets value isHuffman ++ rest) =
      .ok (.decoded (.literalWithIndexing name value)) rest := by
  simp [ValueString.decode, LiteralString.decode, decode_string hvalue]

theorem decode_indexing (hpos : 0 < i) (hi : i < usizeSize) (hvalue : (Octets.new value isHuffman).len < usizeSize)
    (rest : List UInt8) : Index.decode .firstByte ((IndexAndValue.new i 0x3f 0x40 value isHuffman).octets ++ rest) =
      .ok (.decoded (.literalWithIndexing (.index i) value)) rest := by
  have hoctets : (IndexAndValue.new i 0x3f 0x40 value isHuffman).octets ++ rest =
      (Integer.index i 0x3f 0x40).octets ++ (stringOctets value isHuffman ++ rest) := by
    simp [IndexAndValue.octets, IndexAndValue.new, stringOctets]
  rw [hoctets]
  simp [Index.decode, IndexInner.decode, firstByte_indexing hi, hpos.ne', decode_value hvalue]

theorem decode_indexingWithName {name : List UInt8} (hname : (Octets.new name isHuffman).len < usizeSize)
    (hvalue : (Octets.new value isHuffman).len < usizeSize) (rest : List UInt8) :
    Index.decode .firstByte ((NameAndValue.new 0x3f 0x40 name value isHuffman).octets ++ rest) =
      .ok (.decoded (.literalWithIndexing (.literal name) value)) rest := by
  have hoctets : (NameAndValue.new 0x3f 0x40 name value isHuffman).octets ++ rest =
      (Integer.index 0 0x3f 0x40).octets ++
        (stringOctets name isHuffman ++ (stringOctets value isHuffman ++ rest)) := by
    simp [NameAndValue.octets, NameAndValue.new, stringOctets]
  rw [hoctets]
  simp [Index.decode, IndexInner.decode, firstByte_indexing (show 0 < usizeSize by decide),
    NameString.decode, LiteralString.decode, decode_string hname, decode_value hvalue]

/-- The decoder reads the representation that a field was written as. -/
theorem decode_represent {useHuffman : Bool} {table : DynamicTable} {f : Field}
    (hsize : table.maxSize < usizeSize) (henc : Encodable useHuffman f) (rest : List UInt8) :
    ReprDecodeState.decode (.index .firstByte) ((represent useHuffman table f).1.octets ++ rest) =
      .ok (.decoded (represented table f)) rest := by
  have hqueue := table.length_queue_le
  have hbound : ∀ i, i < table.queue.length + 62 → i < usizeSize := by
    unfold usizeSize at hsize ⊢
    omega
  have hindex := index_spec table f
  rw [represent, represented]
  cases hfound : TableSearcher.index table f.1 f.2 with
  | none => exact decode_indexingWithName henc.1 henc.2 rest
  | some found =>
    rw [hfound] at hindex
    cases hindex with
    | known bound pos | nameOnly bound pos => exact decode_indexed pos (hbound _ bound) rest
    | named bound pos => exact decode_indexing pos (hbound _ (by omega)) henc.2 rest

end YlongHttp.H2.Hpack
