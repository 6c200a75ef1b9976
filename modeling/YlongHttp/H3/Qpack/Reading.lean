/-
Reading field lines never panics and ends.

Every state of the reader leaves no more bytes than it was given (`reads_repr`), and one that
starts with a first byte takes at least that byte. So each line lowers the measure of the
reader (`reprMeasure_lt`), which bounds the rounds of the loop of the decoder.
-/

import YlongHttp.H2.Hpack.Safety
import YlongHttp.H3.Qpack.ReprDecoder

namespace YlongHttp.H3.Qpack

open Rust Codec
open H2.Hpack (DecResult IntegerDecoder LiteralString Name reads_ascii reads_huffman
  reads_decodeTrailing)

abbrev IsDecompressionFailed (e : QpackError) : Prop := e = decompressionFailed

abbrev ReadsQpack {β : Type} (m : Decoding β) : Prop := Reads IsDecompressionFailed m

/-! ### Integers and strings -/

theorem nextByte_error {int : IntegerDecoder} {byte : UInt8} {e : QpackError}
    (h : nextByte int byte = .error e) : IsDecompressionFailed e := by
  unfold nextByte at h
  split at h
  · cases h
  · cases h
    rfl

theorem reads_trailing (int : IntegerDecoder) : ReadsQpack (decodeTrailing int) :=
  (reads_decodeTrailing int).mapErr fun _ => rfl

theorem reads_trailingBytes {κ : Type} (kind : κ) (index : IntegerDecoder) :
    ReadsQpack (TrailingBytes.decode kind index) := by
  apply (reads_trailing index).bind
  intro r
  cases r <;> exact Reads.pure _

section Index

variable {κ : Type} (kindOf : UInt8 → κ) (mask : κ → UInt8)

theorem firstByte_leaves (byte : UInt8) (buf : List UInt8) :
    Leaves IsDecompressionFailed buf.length (FirstByte.decode kindOf mask (byte :: buf)) := by
  rw [FirstByte.decode]
  split
  · exact .ok le_rfl
  · exact reads_trailingBytes _ _ buf

theorem reads_indexInner (inner : IndexInner κ) : ReadsQpack (inner.decode kindOf mask) := by
  cases inner with
  | trailingBytes kind index => exact reads_trailingBytes kind index
  | firstByte =>
    intro buf
    cases buf with
    | nil => exact .ok le_rfl
    | cons byte buf => exact (firstByte_leaves kindOf mask byte buf).mono (Nat.le_succ _)

end Index

theorem reads_octets (isHuffman : Bool) (length : Nat) : ReadsQpack (decodeOctets isHuffman length) :=
  (H2.Hpack.reads_decodeOctets isHuffman length).mapErr fun _ => rfl

theorem reads_lengthTrailing (isHuffman : Bool) : ∀ (buf : List UInt8) (length : IntegerDecoder),
      Leaves IsDecompressionFailed buf.length (LengthTrailingBytes.decode isHuffman length buf)
  | [], _ => .ok le_rfl
  | [_], _ => .ok (Nat.zero_le _)
  | byte :: next :: buf, length => by
    rw [LengthTrailingBytes.decode]
    split
    next length' _ => exact (reads_lengthTrailing isHuffman (next :: buf) length').mono (Nat.le_succ _)
    next => exact (reads_octets _ _ (next :: buf)).mono (Nat.le_succ _)
    next e he => exact .err (nextByte_error he)

theorem reads_lengthFirst : ReadsQpack LengthFirstByte.decode := by
  intro buf
  cases buf with
  | nil => exact .ok le_rfl
  | cons byte buf =>
    rw [LengthFirstByte.decode]
    split
    · exact (reads_octets _ _ buf).mono (Nat.le_succ _)
    · exact (reads_lengthTrailing _ buf _).mono (Nat.le_succ _)

theorem reads_string (s : LiteralString) : ReadsQpack (decodeString s) := by
  cases s with
  | lengthFirstByte => exact reads_lengthFirst
  | lengthTrailingBytes isHuffman length => exact fun buf => reads_lengthTrailing isHuffman buf length
  | asciiStringBytes s => exact (reads_ascii s).mapErr fun _ => rfl
  | huffmanStringBytes s => exact (reads_huffman s).mapErr fun _ => rfl

/-! ### Field sections -/

theorem fspTrailing_leaves : ∀ (buf : List UInt8) (int : IntegerDecoder),
      Leaves IsDecompressionFailed buf.length (FSPTwoIntergers.trailing int buf)
  | [], _ => .ok le_rfl
  | [_], _ => .ok (Nat.zero_le _)
  | byte :: next :: buf, int => by
    rw [FSPTwoIntergers.trailing]
    split
    next int' _ => exact (fspTrailing_leaves (next :: buf) int').mono (Nat.le_succ _)
    next => exact .ok (Nat.le_succ _)
    next e he => exact .err (nextByte_error he)

theorem reads_deltaBase : ReadsQpack FSPTwoIntergers.deltaBase := by
  have hmap : ∀ (g : Nat → Bool × Nat) (int : IntegerDecoder),
      ReadsQpack (Option.map g <$> FSPTwoIntergers.trailing int) := fun g int =>
    Reads.bind (fun buf => fspTrailing_leaves buf int) fun _ => Reads.pure _
  rintro (_ | ⟨byte, _ | ⟨next, buf⟩⟩)
  · exact .ok le_rfl
  · exact .ok (Nat.zero_le _)
  · rw [FSPTwoIntergers.deltaBase]
    split
    · exact .ok (Nat.le_succ _)
    · exact (hmap _ _ (next :: buf)).mono (Nat.le_succ _)

variable (byte : UInt8) (buf : List UInt8)

theorem requireInsertCount_leaves :
    Leaves IsDecompressionFailed buf.length (FSPTwoIntergers.requireInsertCount (byte :: buf)) := by
  rw [FSPTwoIntergers.requireInsertCount]
  split
  · exact .ok le_rfl
  · exact fspTrailing_leaves buf _

theorem twoIntergers_leaves : Leaves IsDecompressionFailed buf.length (FSPTwoIntergers.decode (byte :: buf)) := by
  apply (requireInsertCount_leaves byte buf).bind
  rintro (_ | ric)
  · exact Reads.pure _
  · exact Reads.bind reads_deltaBase fun _ => Reads.pure _

theorem filedSectionPrefix_leaves :
    Leaves IsDecompressionFailed buf.length (FiledSectionPrefix.decode (byte :: buf)) := by
  apply (twoIntergers_leaves byte buf).bind
  rintro (_ | r)
  · exact fun _ => .ok (Nat.zero_le _)
  · exact Reads.pure _

theorem reads_reprValueString (repr : ReprPrefixBit) (midBit : MidBit) (name : Name)
    (inner : LiteralString) : ReadsQpack (ReprValueString.decode repr midBit name inner) := by
  apply (reads_string inner).bind
  intro r
  cases r with
  | decoded value => cases repr <;> first | exact Reads.pure _ | exact Reads.throw rfl
  | needMore inner => cases repr <;> exact Reads.pure _

theorem reads_reprNameAndValue (repr : ReprPrefixBit) (midBit : MidBit) (inner : LiteralString) :
    ReadsQpack (ReprNameAndValue.decode repr midBit inner) := by
  apply (reads_string inner).bind
  intro r
  cases r with
  | decoded octets => exact reads_reprValueString _ _ _ _
  | needMore inner => exact Reads.pure _

/-- What follows the integer of a line only reads on. -/
theorem reprIndex_eq (inner : ReprIndexInner) :
    ∃ next, (∀ r, ReadsQpack (next r)) ∧ ReprIndex.decode inner = ReprIndexInner.decode inner >>= next := by
  refine ⟨_, ?_, rfl⟩
  rintro (⟨⟨repr, midBit⟩, index⟩ | inner)
  · cases repr with
    | indexed | indexedWithPostIndex => exact Reads.pure _
    | literalWithIndexing | literalWithPostIndexing => exact reads_reprValueString _ _ _ _
    | literalWithLiteralName => exact reads_reprNameAndValue _ _ _
  · exact Reads.pure _

theorem reads_repr (state : ReprDecodeState) : ReadsQpack state.decode := by
  cases state with
  | filedSectionPrefix =>
    intro buf
    cases buf with
    | nil => exact .ok le_rfl
    | cons byte buf => exact (filedSectionPrefix_leaves byte buf).mono (Nat.le_succ _)
  | reprIndex inner =>
    obtain ⟨next, hnext, heq⟩ := reprIndex_eq inner
    rw [ReprDecodeState.decode, heq]
    exact (reads_indexInner _ _ inner).bind hnext
  | reprValueString repr midBit name inner => exact reads_reprValueString repr midBit name inner
  | reprNameAndValue repr midBit inner => exact reads_reprNameAndValue repr midBit inner

theorem repr_leaves :
    Leaves IsDecompressionFailed buf.length ((ReprDecodeState.reprIndex .firstByte).decode (byte :: buf)) := by
  obtain ⟨next, hnext, heq⟩ := reprIndex_eq .firstByte
  rw [ReprDecodeState.decode, heq]
  have hfirst : Leaves IsDecompressionFailed buf.length (ReprIndexInner.decode .firstByte (byte :: buf)) :=
    firstByte_leaves ReprPrefixBit.read ReprPrefixBit.mask byte buf
  exact hfirst.bind hnext

/-- The states that start with a first byte. -/
def ReprDecodeState.isFresh : Option ReprDecodeState → Bool
  | none => true
  | some (.reprIndex .firstByte) => true
  | _ => false

/-- The calls of the reader that may still follow, as for instructions. -/
def reprMeasure (r : Reading ReprDecodeState) : Nat :=
  r.buf.length + if ReprDecodeState.isFresh r.state then 1 else 2

variable {r r' : Reading ReprDecodeState} {repr : Representation}

section

variable (h : ReprDecoder.decode r = .ok (some repr) r')

include h

/-- A line leaves a state that starts with a first byte. -/
theorem isFresh_of_decode : ReprDecodeState.isFresh r'.state = true := by
  simp only [ReprDecoder.decode] at h
  split at h
  · cases h
  · split at h
    case h_2 =>
      cases h
      split <;> rfl
    all_goals cases h

theorem length_of_decode : r'.buf.length + (if ReprDecodeState.isFresh r.state then 1 else 0) ≤ r.buf.length := by
  obtain ⟨buf, state⟩ := r
  cases buf with
  | nil => cases h
  | cons byte buf =>
    simp only [ReprDecoder.decode, List.isEmpty_cons, Bool.false_eq_true, ↓reduceIte] at h
    split at h
    case h_2 repr' rest hread =>
      cases h
      have hany := (hread ▸ reads_repr _ (byte :: buf)).length_le
      have hfresh : ReprDecodeState.isFresh state = true → rest.length ≤ buf.length := by
        intro hstate
        unfold ReprDecodeState.isFresh at hstate
        split at hstate
        · have hleaves := filedSectionPrefix_leaves byte buf
          rw [show FiledSectionPrefix.decode (byte :: buf) = _ from hread] at hleaves
          exact hleaves.length_le
        · exact (hread ▸ repr_leaves byte buf).length_le
        · cases hstate
      dsimp only
      split_ifs with hstate
      · exact Nat.succ_le_succ (hfresh hstate)
      · exact hany
    all_goals cases h

theorem reprMeasure_lt : reprMeasure r' < reprMeasure r := by
  have hlength := length_of_decode h
  rw [reprMeasure, reprMeasure, isFresh_of_decode h, if_pos rfl]
  split_ifs at hlength ⊢ <;> omega

end

end YlongHttp.H3.Qpack
