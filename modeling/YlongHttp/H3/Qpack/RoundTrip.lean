/-
Integers and prefixes are read back as they are written.

`firstByte_read` is the integer at the start of an instruction or a line, `decode_prefixOctets`
the prefix of a section, and `decode_indexed` and `decode_postIndexed` are lines. The loop of the
second integer of a prefix stops one byte early, and reads on as long as a byte follows the
integer (`fspTrailing_read`): the prefix of a section needs a line after it.
-/

import YlongHttp.H2.Hpack.RoundTrip
import YlongHttp.H3.Qpack.Decoder

namespace YlongHttp.H3.Qpack

open Rust Codec Method List
open H2.Hpack (DecResult IntegerDecoder IntegerEncoder LiteralString Octets FreePrefix
  usizeSize stringOctets decodeOctets_new firstByte_octets freePrefix_length huffmanBit)

/-! ### Writing integers -/

theorem groups_length_le (i : Nat) : (IntegerEncoder.groups i).length ≤ i + 1 := by
  induction i using Nat.strongRecOn with
  | ind i ih =>
    rw [IntegerEncoder.groups]
    split
    · have hlt : i >>> 7 < i := by omega
      have := ih _ hlt
      rw [length_cons]
      omega
    · exact Nat.le_add_left 1 i

theorem encodeLoop_eq : ∀ (fuel : Nat) (int : IntegerEncoder), int.octets.length < fuel →
    Integer.encodeLoop fuel int = int.octets
  | 0, _, h => absurd h (Nat.not_lt_zero _)
  | fuel + 1, int, h => by
    rw [Integer.encodeLoop]
    cases hfinish : int.isFinish with
    | true => rw [if_pos rfl, IntegerEncoder.octets_finish hfinish]
    | false =>
      obtain ⟨b, hbyte, hoctets⟩ := IntegerEncoder.octets_nextByte hfinish
      rw [hoctets] at h
      rw [hoctets, ← encodeLoop_eq fuel int.nextByte.2 (Nat.lt_of_succ_lt_succ h)]
      cases hnext : int.nextByte with
      | mk byte int' =>
        rw [hnext] at hbyte
        obtain rfl : byte = some b := hbyte
        rfl

theorem encode_index (pre : UInt8) (i : Nat) (mask : UInt8) :
    Integer.encode (Integer.index pre i mask) = (IntegerEncoder.new i mask pre).octets := by
  apply encodeLoop_eq
  unfold IntegerEncoder.octets Integer.index IntegerEncoder.new
  dsimp only
  split
  · exact Nat.succ_lt_succ (Nat.succ_pos _)
  · have := groups_length_le (i - mask.toNat)
    rw [length_cons]
    omega

/-! ### Reading integers -/

variable {rest : List UInt8} {i : Nat} {buf : List UInt8} {pre : UInt8} {encoded deltaBase : Nat}

theorem firstByte_read {κ : Type} (kindOf : UInt8 → κ) (mask : κ → UInt8) {kind : κ}
    (hfree : FreePrefix (mask kind) pre) (hkind : ∀ x ≤ mask kind, kindOf (pre ||| x) = kind)
    (hi : i < usizeSize) (rest : List UInt8) :
    FirstByte.decode kindOf mask (Integer.encode (Integer.index pre i (mask kind)) ++ rest) =
      .ok (.decoded (kind, i)) rest := by
  obtain ⟨x, hx, bs, hoctets, hfirst⟩ := firstByte_octets hfree hi
  rw [encode_index, hoctets, cons_append, FirstByte.decode]
  simp only [hkind x hx]
  rcases hfirst with ⟨hok, rfl⟩ | ⟨int, herr, hloop⟩
  · simp only [hok, nil_append]
  · simp only [herr, TrailingBytes.decode, bind_apply, decodeTrailing, mapErr,
      IntegerDecoder.decodeTrailing_apply, hloop rest, Outcome.bind_ok, pure_apply]

/-- The loop that stops early comes to the end of an integer that a byte follows. -/
theorem fspTrailing_read (hrest : rest ≠ []) : ∀ {buf : List UInt8} {int : IntegerDecoder},
    int.trailingLoop buf = .ok (.decoded i) rest → FSPTwoIntergers.trailing int buf = .ok (some i) rest := by
  intro buf
  induction buf with
  | nil =>
    rintro int ⟨⟩
  | cons byte buf ih =>
    intro int h
    rw [IntegerDecoder.trailingLoop] at h
    cases hnext : int.nextByte byte with
    | error e =>
      rw [hnext] at h
      cases h
    | ok r =>
      obtain ⟨found, int'⟩ := r
      rw [hnext] at h
      cases found with
      | none =>
        cases buf with
        | nil => cases h
        | cons next buf =>
          rw [FSPTwoIntergers.trailing, nextByte, hnext]
          exact ih h
      | some index =>
        cases h
        cases rest with
        | nil => exact absurd rfl hrest
        | cons next buf => rw [FSPTwoIntergers.trailing, nextByte, hnext]

/-! ### The prefix of a section -/

def prefixOctets (encoded : Nat) (signal : Bool) (deltaBase : Nat) : List UInt8 :=
  Integer.encode (Integer.index 0x00 encoded 0xff) ++
    Integer.encode (Integer.index (if signal then 0x80 else 0x00) deltaBase 0x7f)

theorem freePrefix_count : FreePrefix 0xff 0x00 := forall_byte (by decide +kernel)

variable (static signal : Bool)

theorem freePrefix_base : FreePrefix 0x7f (if signal then 0x80 else 0x00) := by
  cases signal <;> exact forall_byte (by decide +kernel)

theorem signalBit : ∀ (signal : Bool) (x : UInt8), x ≤ 0x7f →
    (((if signal then 0x80 else 0x00) ||| x) &&& 0x80 != 0) = signal := by
  intro signal
  cases signal <;> exact forall_byte (by decide +kernel)

theorem requireInsertCount_read (hencoded : encoded < usizeSize) (hrest : rest ≠ []) :
    FSPTwoIntergers.requireInsertCount (Integer.encode (Integer.index 0x00 encoded 0xff) ++ rest) =
      .ok (some encoded) rest := by
  obtain ⟨x, hx, bs, hoctets, hfirst⟩ := firstByte_octets freePrefix_count hencoded
  rw [encode_index, hoctets, cons_append, FSPTwoIntergers.requireInsertCount]
  rcases hfirst with ⟨hok, rfl⟩ | ⟨int, herr, hloop⟩
  · simp only [hok, nil_append]
  · simp only [herr, fspTrailing_read hrest (hloop rest)]

theorem deltaBase_read (hdelta : deltaBase < usizeSize) (hrest : rest ≠ []) : FSPTwoIntergers.deltaBase
        (Integer.encode (Integer.index (if signal then 0x80 else 0x00) deltaBase 0x7f) ++ rest) =
      .ok (some (signal, deltaBase)) rest := by
  obtain ⟨x, hx, bs, hoctets, hfirst⟩ := firstByte_octets (freePrefix_base signal) hdelta
  rw [encode_index, hoctets, cons_append]
  obtain ⟨next, tail, hnext⟩ := exists_cons_of_ne_nil (append_ne_nil_of_right_ne_nil bs hrest)
  rw [hnext, FSPTwoIntergers.deltaBase, ← hnext, signalBit signal x hx]
  rcases hfirst with ⟨hok, rfl⟩ | ⟨int, herr, hloop⟩
  · simp only [hok, nil_append]
  · simp only [herr, map_apply, fspTrailing_read hrest (hloop rest), Outcome.bind_ok, Option.map_some]

/-- The prefix is read back if a line follows it. -/
theorem decode_prefixOctets (hencoded : encoded < usizeSize) (hdelta : deltaBase < usizeSize) (hrest : rest ≠ []) :
    ReprDecoder.decode ⟨prefixOctets encoded signal deltaBase ++ rest, none⟩ =
      .ok (some (.fieldSectionPrefix encoded signal deltaBase)) ⟨rest, some (.reprIndex .firstByte)⟩ := by
  have hbase : Integer.encode (Integer.index (if signal then 0x80 else 0x00) deltaBase 0x7f) ++ rest ≠ [] :=
    append_ne_nil_of_right_ne_nil _ hrest
  have hread : FiledSectionPrefix.decode (prefixOctets encoded signal deltaBase ++ rest) =
      .ok (.decoded (.fieldSectionPrefix encoded signal deltaBase)) rest := by
    simp only [FiledSectionPrefix.decode, FSPTwoIntergers.decode, prefixOctets, append_assoc,
      bind_apply, requireInsertCount_read hencoded hbase, Outcome.bind_ok, map_apply,
      deltaBase_read signal hdelta hrest, Option.map_some, pure_apply]
  have hne : (prefixOctets encoded signal deltaBase ++ rest).isEmpty = false :=
    isEmpty_eq_false_iff.mpr (append_ne_nil_of_right_ne_nil _ hrest)
  rw [ReprDecoder.decode, hne]
  simp only [Option.getD_none, ReprDecodeState.decode, hread, isEmpty_eq_false_iff.mpr hrest,
    Bool.false_eq_true, ↓reduceIte]

/-! ### Indexed lines -/

/-- The reader after a line: what is left starts with another one. -/
def afterLine (rest : List UInt8) : Reading ReprDecodeState :=
  ⟨rest, if rest.isEmpty then none else some (.reprIndex .firstByte)⟩

theorem encode_ne_nil (pre : UInt8) (i : Nat) (mask : UInt8) : Integer.encode (Integer.index pre i mask) ≠ [] := by
  rw [encode_index, IntegerEncoder.octets]
  unfold IntegerEncoder.new
  dsimp only
  split <;> exact cons_ne_nil _ _

theorem reprIndex_read {kind : ReprPrefixBit × MidBit} {mask : UInt8}
    (hfree : FreePrefix mask pre) (hkind : ∀ x ≤ mask, ReprPrefixBit.read (pre ||| x) = kind)
    (hmask : ReprPrefixBit.mask kind = mask) (hi : i < usizeSize) (rest : List UInt8) :
    ReprIndexInner.decode .firstByte (Integer.encode (Integer.index pre i mask) ++ rest) =
      .ok (.decoded (kind, i)) rest := by
  subst hmask
  exact firstByte_read ReprPrefixBit.read ReprPrefixBit.mask hfree hkind hi rest

theorem decode_line {repr : Representation} (hbuf : buf ≠ [])
    (h : ReprIndex.decode .firstByte buf = .ok (.decoded repr) rest) :
    ReprDecoder.decode ⟨buf, some (.reprIndex .firstByte)⟩ = .ok (some repr) (afterLine rest) := by
  rw [ReprDecoder.decode, isEmpty_eq_false_iff.mpr hbuf, if_neg Bool.false_ne_true]
  simp only [Option.getD_some, ReprDecodeState.decode, h, afterLine]

/-- The mid bit of an indexed line: whether the index is static. -/
def indexedBit (static : Bool) : UInt8 := if static then 0xc0 else 0x80

theorem freePrefix_indexedBit : FreePrefix 0x3f (indexedBit static) := by
  cases static <;> exact forall_byte (by decide +kernel)

theorem read_indexedBit : ∀ x : UInt8, x ≤ 0x3f →
    ReprPrefixBit.read (indexedBit static ||| x) = (.indexed, ⟨none, some static, none⟩) := by
  cases static <;> exact forall_byte (by decide +kernel)

theorem freePrefix_postIndexed : FreePrefix 0x0f 0x10 := forall_byte (by decide +kernel)

theorem read_postIndexed : ∀ x : UInt8, x ≤ 0x0f →
    ReprPrefixBit.read (0x10 ||| x) = (.indexedWithPostIndex, ⟨none, none, none⟩) :=
  forall_byte (by decide +kernel)

theorem decode_indexed (hi : i < usizeSize) (rest : List UInt8) : ReprDecoder.decode
        ⟨Integer.encode (Integer.index (indexedBit static) i 0x3f) ++ rest, some (.reprIndex .firstByte)⟩ =
      .ok (some (.indexed ⟨none, some static, none⟩ i)) (afterLine rest) := by
  apply decode_line (append_ne_nil_of_left_ne_nil (encode_ne_nil _ _ _) rest)
  rw [ReprIndex.decode, bind_apply, reprIndex_read (freePrefix_indexedBit static) (read_indexedBit static) rfl hi rest]
  rfl

theorem decode_postIndexed (hi : i < usizeSize) (rest : List UInt8) :
    ReprDecoder.decode ⟨Integer.encode (Integer.index 0x10 i 0x0f) ++ rest, some (.reprIndex .firstByte)⟩ =
      .ok (some (.indexedWithPostIndex i)) (afterLine rest) := by
  apply decode_line (append_ne_nil_of_left_ne_nil (encode_ne_nil _ _ _) rest)
  rw [ReprIndex.decode, bind_apply, reprIndex_read freePrefix_postIndexed read_postIndexed rfl hi rest]
  rfl

end YlongHttp.H3.Qpack
