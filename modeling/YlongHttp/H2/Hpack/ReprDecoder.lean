/-
Reading representations (`h2/hpack/representation/mod.rs` and
`h2/hpack/representation/decoder.rs`).

A decoding state is a method on the buffer: it takes the bytes it reads off the
front and gives a result or the state in which it stopped for want of bytes. The
string states carry the fact that they have not read more than the length they
were given, which is what their subtractions rely on.
-/

import YlongHttp.H2.Hpack.Integer
import YlongHttp.Huffman.Basic

namespace YlongHttp.H2.Hpack

open Rust Huffman

/-! ### Representations -/

inductive PrefixBit where
  | indexed
  | literalWithIndexing
  | sizeUpdate
  | literalNeverIndexed
  | literalWithoutIndexing
deriving DecidableEq, Repr

namespace PrefixBit

def fromU8 (byte : UInt8) : PrefixBit :=
  if byte ≥ 0x80 then .indexed
  else if byte ≥ 0x40 then .literalWithIndexing
  else if byte ≥ 0x20 then .sizeUpdate
  else if byte ≥ 0x10 then .literalNeverIndexed
  else .literalWithoutIndexing

def prefixIndexMask : PrefixBit → UInt8
  | .indexed => 0x7f
  | .literalWithIndexing => 0x3f
  | .sizeUpdate => 0x1f
  | .literalNeverIndexed => 0x0f
  | .literalWithoutIndexing => 0x0f

end PrefixBit

inductive Name where
  | index (index : Nat)
  | literal (octets : List UInt8)
deriving DecidableEq, Repr

inductive Representation where
  | indexed (index : Nat)
  | literalWithIndexing (name : Name) (value : List UInt8)
  | literalWithoutIndexing (name : Name) (value : List UInt8)
  | literalNeverIndexed (name : Name) (value : List UInt8)
  | sizeUpdate (maxSize : Nat)
deriving DecidableEq, Repr

/-! ### String literals -/

structure AsciiStringBytes where
  octets : List UInt8
  length : Nat
  octets_le : octets.length ≤ length

structure HuffmanStringBytes where
  huffman : HuffmanDecoder
  read : Nat
  length : Nat
  read_le : read ≤ length

inductive LiteralString where
  | lengthFirstByte
  | lengthTrailingBytes (isHuffman : Bool) (length : IntegerDecoder)
  | asciiStringBytes (inner : AsciiStringBytes)
  | huffmanStringBytes (inner : HuffmanStringBytes)

/-- Methods on the bytes still to be decoded. -/
abbrev Decoding := Method (List UInt8) H2Error

def AsciiStringBytes.new (length : Nat) : AsciiStringBytes := ⟨[], length, Nat.zero_le _⟩

def AsciiStringBytes.decode (s : AsciiStringBytes) : Decoding (DecResult (List UInt8) LiteralString) := fun buf =>
  if h : buf.length + s.octets.length ≥ s.length then
    (do
      let pos ← checkedSub s.length s.octets.length
      let front ← sliceTo buf pos
      let rest ← sliceFrom buf pos
      set rest
      return .decoded (s.octets ++ front) : Decoding (DecResult _ LiteralString)) buf
  else
    .ok (.needMore (.asciiStringBytes ⟨s.octets ++ buf, s.length, by
      rw [List.length_append]
      omega⟩)) []

def HuffmanStringBytes.new (length : Nat) : HuffmanStringBytes := ⟨.new, 0, length, Nat.zero_le _⟩

def HuffmanStringBytes.decode (s : HuffmanStringBytes) : Decoding (DecResult (List UInt8) LiteralString) :=
  fun buf =>
    if h : buf.length + s.read ≥ s.length then
      (do
        let pos ← checkedSub s.length s.read
        let front ← sliceTo buf pos
        match s.huffman.decode front with
        | .error _ => throw (.connectionError .compressionError)
        | .ok huffman =>
          let rest ← sliceFrom buf pos
          set rest
          match huffman.finish with
          | .ok vec => return .decoded vec
          | .error _ => throw (.connectionError .compressionError) : Decoding (DecResult _ LiteralString)) buf
    else
      match s.huffman.decode buf with
      | .error _ => .err (.connectionError .compressionError) buf
      | .ok huffman =>
        .ok (.needMore (.huffmanStringBytes ⟨huffman, s.read + buf.length, s.length, by omega⟩)) []

/-- The string itself, once its length is known. -/
def LiteralString.decodeOctets (isHuffman : Bool) (length : Nat) : Decoding (DecResult (List UInt8) LiteralString) :=
  if isHuffman then (HuffmanStringBytes.new length).decode else (AsciiStringBytes.new length).decode

def LengthTrailingBytes.decode (isHuffman : Bool) (length : IntegerDecoder) :
    Decoding (DecResult (List UInt8) LiteralString) := do
  match ← length.decodeTrailing with
  | .decoded length => LiteralString.decodeOctets isHuffman length
  | .needMore length => return .needMore (.lengthTrailingBytes isHuffman length)

def LengthFirstByte.decode : Decoding (DecResult (List UInt8) LiteralString) := fun buf =>
  match buf with
  | [] => .ok (.needMore .lengthFirstByte) []
  | byte :: buf =>
    match IntegerDecoder.firstByte byte 0x7f with
    | .ok length => LiteralString.decodeOctets (byte &&& 0x80 = 0x80) length buf
    | .error int => LengthTrailingBytes.decode (byte &&& 0x80 = 0x80) int buf

def LiteralString.decode : LiteralString → Decoding (DecResult (List UInt8) LiteralString)
  | .lengthFirstByte => LengthFirstByte.decode
  | .lengthTrailingBytes isHuffman length => LengthTrailingBytes.decode isHuffman length
  | .asciiStringBytes s => s.decode
  | .huffmanStringBytes s => s.decode

/-! ### The starting index -/

inductive IndexInner where
  | firstByte
  | trailingBytes (repr : PrefixBit) (index : IntegerDecoder)

def TrailingBytes.decode (repr : PrefixBit) (index : IntegerDecoder) :
    Decoding (DecResult (PrefixBit × Nat) IndexInner) := do
  match ← index.decodeTrailing with
  | .decoded index => return .decoded (repr, index)
  | .needMore index => return .needMore (.trailingBytes repr index)

def FirstByte.decode : Decoding (DecResult (PrefixBit × Nat) IndexInner) := fun buf =>
  match buf with
  | [] => .ok (.needMore .firstByte) []
  | byte :: buf =>
    match IntegerDecoder.firstByte byte (PrefixBit.fromU8 byte).prefixIndexMask with
    | .ok index => .ok (.decoded (PrefixBit.fromU8 byte, index)) buf
    | .error int => TrailingBytes.decode (PrefixBit.fromU8 byte) int buf

def IndexInner.decode : IndexInner → Decoding (DecResult (PrefixBit × Nat) IndexInner)
  | .firstByte => FirstByte.decode
  | .trailingBytes repr index => TrailingBytes.decode repr index

/-! ### Whole representations -/

inductive ReprDecodeState where
  | index (inner : IndexInner)
  | nameString (repr : PrefixBit) (inner : LiteralString)
  | valueString (repr : PrefixBit) (name : Name) (inner : LiteralString)

def ValueString.decode (repr : PrefixBit) (name : Name) (inner : LiteralString) :
    Decoding (DecResult Representation ReprDecodeState) := do
  match repr, ← inner.decode with
  | .literalWithIndexing, .decoded value => return .decoded (.literalWithIndexing name value)
  | .literalWithoutIndexing, .decoded value => return .decoded (.literalWithoutIndexing name value)
  | _, .decoded value => return .decoded (.literalNeverIndexed name value)
  | _, .needMore inner => return .needMore (.valueString repr name inner)

def NameString.decode (repr : PrefixBit) (inner : LiteralString) :
    Decoding (DecResult Representation ReprDecodeState) := do
  match ← inner.decode with
  | .decoded octets => ValueString.decode repr (.literal octets) .lengthFirstByte
  | .needMore inner => return .needMore (.nameString repr inner)

def Index.decode (inner : IndexInner) : Decoding (DecResult Representation ReprDecodeState) := do
  match ← inner.decode with
  | .decoded (.indexed, index) =>
    if index = 0 then throw (.connectionError .compressionError)
    else return .decoded (.indexed index)
  | .decoded (.sizeUpdate, maxSize) => return .decoded (.sizeUpdate maxSize)
  | .decoded (repr, index) =>
    if index = 0 then NameString.decode repr .lengthFirstByte
    else ValueString.decode repr (.index index) .lengthFirstByte
  | .needMore inner => return .needMore (.index inner)

def ReprDecodeState.decode : ReprDecodeState → Decoding (DecResult Representation ReprDecodeState)
  | .index inner => Index.decode inner
  | .nameString repr inner => NameString.decode repr inner
  | .valueString repr name inner => ValueString.decode repr name inner

/-- The bytes to decode and the state left by the last call. -/
structure ReprDecoder where
  buf : List UInt8
  state : Option ReprDecodeState

def ReprDecoder.decode : Method ReprDecoder H2Error (Option Representation) := fun r =>
  if r.buf.isEmpty then .ok none r
  else
    match (r.state.getD (.index .firstByte)).decode r.buf with
    | .ok (.needMore state) buf => .ok none ⟨buf, some state⟩
    | .ok (.decoded repr) buf => .ok (some repr) ⟨buf, none⟩
    | .err e buf => .err e ⟨buf, none⟩
    | .panic => .panic

end YlongHttp.H2.Hpack
