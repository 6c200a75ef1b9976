/-
Reading encoder instructions and field lines (`h3/qpack/mod.rs`, `h3/qpack/integer.rs` and
`h3/qpack/format/decoder.rs`).

A decoding state is a method on the bytes to come, as for HPACK, whose integers and strings
QPACK shares. Three loops end one byte early: the one over the trailing bytes of a string
length and the two over the integers of a field section prefix want a byte after the last
one of the integer, and report `NeedMore` without it. The bytes that they had looked at are
not kept, except for the value of the integer in the first case.
-/

import YlongHttp.H2.Hpack.ReprDecoder
import YlongHttp.H3.Qpack.Table

namespace YlongHttp.H3.Qpack

open Rust
open H2.Hpack (DecResult IntegerDecoder LiteralString AsciiStringBytes HuffmanStringBytes Name)

/-! ### First bytes -/

structure MidBit where
  n : Option Bool
  t : Option Bool
  h : Option Bool
deriving DecidableEq, Repr

inductive EncoderInstPrefixBit where
  | setCap
  | insertWithIndex
  | insertWithLiteral
  | duplicate
deriving DecidableEq, Repr

namespace EncoderInstPrefixBit

def fromU8 (byte : UInt8) : EncoderInstPrefixBit :=
  if byte ≥ 0x80 then .insertWithIndex
  else if byte ≥ 0x40 then .insertWithLiteral
  else if byte ≥ 0x20 then .setCap
  else .duplicate

def prefixIndexMask : EncoderInstPrefixBit → UInt8
  | .insertWithIndex => 0x3f
  | .insertWithLiteral => 0x1f
  | .setCap => 0x1f
  | .duplicate => 0x1f

def prefixMidbitValue (byte : UInt8) : EncoderInstPrefixBit → MidBit
  | .insertWithIndex => ⟨none, some (byte &&& 0x40 != 0), none⟩
  | .insertWithLiteral => ⟨none, none, some (byte &&& 0x20 != 0)⟩
  | .setCap => ⟨none, none, none⟩
  | .duplicate => ⟨none, none, none⟩

def read (byte : UInt8) : EncoderInstPrefixBit × MidBit := (fromU8 byte, (fromU8 byte).prefixMidbitValue byte)

def mask (kind : EncoderInstPrefixBit × MidBit) : UInt8 := kind.1.prefixIndexMask

end EncoderInstPrefixBit

inductive ReprPrefixBit where
  | indexed
  | indexedWithPostIndex
  | literalWithIndexing
  | literalWithPostIndexing
  | literalWithLiteralName
deriving DecidableEq, Repr

namespace ReprPrefixBit

def fromU8 (byte : UInt8) : ReprPrefixBit :=
  if byte ≥ 0x80 then .indexed
  else if byte ≥ 0x40 then .literalWithIndexing
  else if byte ≥ 0x20 then .literalWithLiteralName
  else if byte ≥ 0x10 then .indexedWithPostIndex
  else .literalWithPostIndexing

def prefixIndexMask : ReprPrefixBit → UInt8
  | .indexed => 0x3f
  | .literalWithIndexing => 0x0f
  | .literalWithLiteralName => 0x07
  | .indexedWithPostIndex => 0x0f
  | .literalWithPostIndexing => 0x07

def prefixMidbitValue (byte : UInt8) : ReprPrefixBit → MidBit
  | .indexed => ⟨none, some (byte &&& 0x40 != 0), none⟩
  | .literalWithIndexing => ⟨some (byte &&& 0x20 != 0), some (byte &&& 0x10 != 0), none⟩
  | .literalWithLiteralName => ⟨some (byte &&& 0x10 != 0), none, some (byte &&& 0x08 != 0)⟩
  | .indexedWithPostIndex => ⟨none, none, none⟩
  | .literalWithPostIndexing => ⟨some (byte &&& 0x08 != 0), none, none⟩

def read (byte : UInt8) : ReprPrefixBit × MidBit := (fromU8 byte, (fromU8 byte).prefixMidbitValue byte)

def mask (kind : ReprPrefixBit × MidBit) : UInt8 := kind.1.prefixIndexMask

end ReprPrefixBit

inductive EncoderInstruction where
  | setCap (capacity : Nat)
  | insertWithIndex (midBit : MidBit) (name : Name) (value : List UInt8)
  | insertWithLiteral (midBit : MidBit) (name : Name) (value : List UInt8)
  | duplicate (index : Nat)
deriving DecidableEq, Repr

inductive Representation where
  | fieldSectionPrefix (requireInsertCount : Nat) (signal : Bool) (deltaBase : Nat)
  | indexed (midBit : MidBit) (index : Nat)
  | indexedWithPostIndex (index : Nat)
  | literalWithIndexing (midBit : MidBit) (name : Name) (value : List UInt8)
  | literalWithPostIndexing (midBit : MidBit) (name : Name) (value : List UInt8)
  | literalWithLiteralName (midBit : MidBit) (name : Name) (value : List UInt8)
deriving DecidableEq, Repr

/-! ### Integers -/

def decompressionFailed : QpackError := .connectionError .decompressionFailed

/-- Methods on the bytes still to be decoded. -/
abbrev Decoding := Method (List UInt8) QpackError

/-- `next_byte`, which fails with the error of QPACK where HPACK's does. -/
def nextByte (int : IntegerDecoder) (byte : UInt8) : Except QpackError (Option Nat × IntegerDecoder) :=
  match int.nextByte byte with
  | .ok r => .ok r
  | .error _ => .error decompressionFailed

def decodeTrailing (int : IntegerDecoder) : Decoding (DecResult Nat IntegerDecoder) :=
  int.decodeTrailing.mapErr fun _ => decompressionFailed

/-- The state of reading the integer that an instruction or a line starts with. -/
inductive IndexInner (κ : Type) where
  | firstByte
  | trailingBytes (kind : κ) (index : IntegerDecoder)

def TrailingBytes.decode {κ : Type} (kind : κ) (index : IntegerDecoder) :
    Decoding (DecResult (κ × Nat) (IndexInner κ)) := do
  match ← decodeTrailing index with
  | .decoded index => return .decoded (kind, index)
  | .needMore index => return .needMore (.trailingBytes kind index)

/-- The first byte says which kind of integer it starts, and the kind says how many of its
bits belong to the integer. -/
def FirstByte.decode {κ : Type} (kindOf : UInt8 → κ) (mask : κ → UInt8) :
    Decoding (DecResult (κ × Nat) (IndexInner κ)) := fun buf =>
  match buf with
  | [] => .ok (.needMore .firstByte) []
  | byte :: buf =>
    match IntegerDecoder.firstByte byte (mask (kindOf byte)) with
    | .ok index => .ok (.decoded (kindOf byte, index)) buf
    | .error int => TrailingBytes.decode (kindOf byte) int buf

def IndexInner.decode {κ : Type} (kindOf : UInt8 → κ) (mask : κ → UInt8) :
    IndexInner κ → Decoding (DecResult (κ × Nat) (IndexInner κ))
  | .firstByte => FirstByte.decode kindOf mask
  | .trailingBytes kind index => TrailingBytes.decode kind index

abbrev InstIndexInner := IndexInner (EncoderInstPrefixBit × MidBit)

def InstIndexInner.decode (inner : InstIndexInner) :
    Decoding (DecResult ((EncoderInstPrefixBit × MidBit) × Nat) InstIndexInner) :=
  IndexInner.decode EncoderInstPrefixBit.read EncoderInstPrefixBit.mask inner

abbrev ReprIndexInner := IndexInner (ReprPrefixBit × MidBit)

def ReprIndexInner.decode (inner : ReprIndexInner) :
    Decoding (DecResult ((ReprPrefixBit × MidBit) × Nat) ReprIndexInner) :=
  IndexInner.decode ReprPrefixBit.read ReprPrefixBit.mask inner

/-! ### String literals -/

/-- The string itself, once its length is known. -/
def decodeOctets (isHuffman : Bool) (length : Nat) : Decoding (DecResult (List UInt8) LiteralString) :=
  (LiteralString.decodeOctets isHuffman length).mapErr fun _ => decompressionFailed

/-- The loop stops at the last byte of the buffer: a length is complete only if a byte of
the string follows it. -/
def LengthTrailingBytes.decode (isHuffman : Bool) :
    IntegerDecoder → Decoding (DecResult (List UInt8) LiteralString)
  | length, [] => .ok (.needMore (.lengthTrailingBytes isHuffman length)) []
  | length, [_] => .ok (.needMore (.lengthTrailingBytes isHuffman length)) []
  | length, byte :: next :: buf =>
    match nextByte length byte with
    | .ok (none, length) => LengthTrailingBytes.decode isHuffman length (next :: buf)
    | .ok (some length, _) => decodeOctets isHuffman length (next :: buf)
    | .error e => .err e (next :: buf)

def LengthFirstByte.decode : Decoding (DecResult (List UInt8) LiteralString) := fun buf =>
  match buf with
  | [] => .ok (.needMore .lengthFirstByte) []
  | byte :: buf =>
    match IntegerDecoder.firstByte byte 0x7f with
    | .ok length => decodeOctets (byte &&& 0x80 = 0x80) length buf
    | .error int => LengthTrailingBytes.decode (byte &&& 0x80 = 0x80) int buf

def decodeString : LiteralString → Decoding (DecResult (List UInt8) LiteralString)
  | .lengthFirstByte => LengthFirstByte.decode
  | .lengthTrailingBytes isHuffman length => LengthTrailingBytes.decode isHuffman length
  | .asciiStringBytes s => s.decode.mapErr fun _ => decompressionFailed
  | .huffmanStringBytes s => s.decode.mapErr fun _ => decompressionFailed

/-- The name of a field whose length has been read with its first byte. -/
def nameString (midBit : MidBit) (length : Nat) : LiteralString :=
  if midBit.h = some true then .huffmanStringBytes (.new length) else .asciiStringBytes (.new length)

/-! ### Encoder instructions -/

inductive InstDecodeState where
  | encInstIndex (inner : InstIndexInner)
  | instValueString (inst : EncoderInstPrefixBit) (midBit : MidBit) (name : Name) (inner : LiteralString)
  | instNameAndValue (inst : EncoderInstPrefixBit) (midBit : MidBit) (inner : LiteralString)

/-- A value that is not complete in the buffer is an error. -/
def InstValueString.decode (inst : EncoderInstPrefixBit) (midBit : MidBit) (name : Name)
    (inner : LiteralString) : Decoding (DecResult EncoderInstruction InstDecodeState) := do
  match inst, ← decodeString inner with
  | .insertWithIndex, .decoded value => return .decoded (.insertWithIndex midBit name value)
  | .insertWithLiteral, .decoded value => return .decoded (.insertWithLiteral midBit name value)
  | _, _ => throw decompressionFailed

def InstNameAndValue.decode (inst : EncoderInstPrefixBit) (midBit : MidBit) (inner : LiteralString) :
    Decoding (DecResult EncoderInstruction InstDecodeState) := do
  match ← decodeString inner with
  | .decoded octets => InstValueString.decode inst midBit (.literal octets) .lengthFirstByte
  | .needMore inner => return .needMore (.instNameAndValue inst midBit inner)

def EncInstIndex.decode (inner : InstIndexInner) : Decoding (DecResult EncoderInstruction InstDecodeState) := do
  match ← InstIndexInner.decode inner with
  | .decoded ((.setCap, _), index) => return .decoded (.setCap index)
  | .decoded ((.insertWithIndex, midBit), index) =>
    InstValueString.decode .insertWithIndex midBit (.index index) .lengthFirstByte
  | .decoded ((.insertWithLiteral, midBit), namelen) =>
    InstNameAndValue.decode .insertWithLiteral midBit (nameString midBit namelen)
  | .decoded ((.duplicate, _), index) => return .decoded (.duplicate index)
  | .needMore inner => return .needMore (.encInstIndex inner)

def InstDecodeState.decode : InstDecodeState → Decoding (DecResult EncoderInstruction InstDecodeState)
  | .encInstIndex inner => EncInstIndex.decode inner
  | .instValueString inst midBit name inner => InstValueString.decode inst midBit name inner
  | .instNameAndValue inst midBit inner => InstNameAndValue.decode inst midBit inner

/-- The bytes to decode and the state that the last call left. -/
structure Reading (τ : Type) where
  buf : List UInt8
  state : Option τ

def EncInstDecoder.decode : Method (Reading InstDecodeState) QpackError (Option EncoderInstruction) := fun r =>
  if r.buf.isEmpty then .ok none r
  else
    match (r.state.getD (.encInstIndex .firstByte)).decode r.buf with
    | .ok (.needMore state) buf => .ok none ⟨buf, some state⟩
    | .ok (.decoded inst) buf => .ok (some inst) ⟨buf, none⟩
    | .err e buf => .err e ⟨buf, none⟩
    | .panic => .panic

/-! ### Field sections -/

/-- The trailing bytes of an integer of the prefix, without the result if the loop runs into
the last byte of the buffer. -/
def FSPTwoIntergers.trailing : IntegerDecoder → Decoding (Option Nat)
  | _, [] => .ok none []
  | _, [_] => .ok none []
  | int, byte :: next :: buf =>
    match nextByte int byte with
    | .ok (none, int) => FSPTwoIntergers.trailing int (next :: buf)
    | .ok (some index, _) => .ok (some index) (next :: buf)
    | .error e => .err e (next :: buf)

def FSPTwoIntergers.deltaBase : Decoding (Option (Bool × Nat))
  | [] => .ok none []
  | [_] => .ok none []
  | byte :: next :: buf =>
    match IntegerDecoder.firstByte byte 0x7f with
    | .ok deltaBase => .ok (some (byte &&& 0x80 != 0, deltaBase)) (next :: buf)
    | .error int =>
      (Option.map (byte &&& 0x80 != 0, ·) <$> FSPTwoIntergers.trailing int) (next :: buf)

def FSPTwoIntergers.requireInsertCount : Decoding (Option Nat)
  | [] => .ok none []
  | byte :: buf =>
    match IntegerDecoder.firstByte byte 0xff with
    | .ok ric => .ok (some ric) buf
    | .error int => FSPTwoIntergers.trailing int buf

/-- A prefix that is not complete starts anew with the next bytes. -/
def FSPTwoIntergers.decode : Decoding (Option (Nat × Bool × Nat)) := do
  match ← FSPTwoIntergers.requireInsertCount with
  | none => return none
  | some ric => Option.map (ric, ·) <$> FSPTwoIntergers.deltaBase

inductive ReprDecodeState where
  | filedSectionPrefix
  | reprIndex (inner : ReprIndexInner)
  | reprValueString (repr : ReprPrefixBit) (midBit : MidBit) (name : Name) (inner : LiteralString)
  | reprNameAndValue (repr : ReprPrefixBit) (midBit : MidBit) (inner : LiteralString)

def FiledSectionPrefix.decode : Decoding (DecResult Representation ReprDecodeState) := do
  match ← FSPTwoIntergers.decode with
  | some (ric, signal, deltaBase) => return .decoded (.fieldSectionPrefix ric signal deltaBase)
  | none => fun _ => .ok (.needMore .filedSectionPrefix) []

def ReprValueString.decode (repr : ReprPrefixBit) (midBit : MidBit) (name : Name)
    (inner : LiteralString) : Decoding (DecResult Representation ReprDecodeState) := do
  match repr, ← decodeString inner with
  | .literalWithIndexing, .decoded value => return .decoded (.literalWithIndexing midBit name value)
  | .literalWithPostIndexing, .decoded value =>
    return .decoded (.literalWithPostIndexing midBit name value)
  | .literalWithLiteralName, .decoded value =>
    return .decoded (.literalWithLiteralName midBit name value)
  | _, .needMore inner => return .needMore (.reprValueString repr midBit name inner)
  | _, _ => throw decompressionFailed

def ReprNameAndValue.decode (repr : ReprPrefixBit) (midBit : MidBit) (inner : LiteralString) :
    Decoding (DecResult Representation ReprDecodeState) := do
  match ← decodeString inner with
  | .decoded octets => ReprValueString.decode repr midBit (.literal octets) .lengthFirstByte
  | .needMore inner => return .needMore (.reprNameAndValue repr midBit inner)

def ReprIndex.decode (inner : ReprIndexInner) : Decoding (DecResult Representation ReprDecodeState) := do
  match ← ReprIndexInner.decode inner with
  | .decoded ((.indexed, midBit), index) => return .decoded (.indexed midBit index)
  | .decoded ((.indexedWithPostIndex, _), index) => return .decoded (.indexedWithPostIndex index)
  | .decoded ((.literalWithIndexing, midBit), index) =>
    ReprValueString.decode .literalWithIndexing midBit (.index index) .lengthFirstByte
  | .decoded ((.literalWithPostIndexing, midBit), index) =>
    ReprValueString.decode .literalWithPostIndexing midBit (.index index) .lengthFirstByte
  | .decoded ((.literalWithLiteralName, midBit), namelen) =>
    ReprNameAndValue.decode .literalWithLiteralName midBit (nameString midBit namelen)
  | .needMore inner => return .needMore (.reprIndex inner)

def ReprDecodeState.decode : ReprDecodeState → Decoding (DecResult Representation ReprDecodeState)
  | .filedSectionPrefix => FiledSectionPrefix.decode
  | .reprIndex inner => ReprIndex.decode inner
  | .reprValueString repr midBit name inner => ReprValueString.decode repr midBit name inner
  | .reprNameAndValue repr midBit inner => ReprNameAndValue.decode repr midBit inner

/-- After a line that ends with the buffer the state is empty, so that what comes next is
read as a field section prefix. -/
def ReprDecoder.decode : Method (Reading ReprDecodeState) QpackError (Option Representation) := fun r =>
  if r.buf.isEmpty then .ok none r
  else
    match (r.state.getD .filedSectionPrefix).decode r.buf with
    | .ok (.needMore state) buf => .ok none ⟨buf, some state⟩
    | .ok (.decoded repr) buf =>
      .ok (some repr) ⟨buf, if buf.isEmpty then none else some (.reprIndex .firstByte)⟩
    | .err e buf => .err e ⟨buf, none⟩
    | .panic => .panic

end YlongHttp.H3.Qpack
