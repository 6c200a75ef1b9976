/-
What the QPACK encoder writes and reads (`h3/qpack/format/encoder.rs`).

The formats of instructions and lines are bytes appended to a buffer. The length of a literal
name is that of the name itself, also if its octets are written with the Huffman code. The
formats of names by index and of literal lines share their masks with those of other
instructions, as in the source.
-/

import YlongHttp.H2.Hpack.RoundTrip
import YlongHttp.H3.Qpack.Decoder

namespace YlongHttp.H3.Qpack

open Rust
open H2.Hpack (DecResult Octets stringOctets)

/-! ### Formats -/

def SetCap.encode (capacity : Nat) : List UInt8 := Integer.encode (Integer.index 0x20 capacity 0x1f)

def Indexed.encode (index : Nat) (isStatic : Bool) : List UInt8 :=
  if isStatic then Integer.encode (Integer.index 0xc0 index 0x3f)
  else Integer.encode (Integer.index 0x80 index 0x3f)

def IndexedWithPost.encode (index : Nat) : List UInt8 := Integer.encode (Integer.index 0x10 index 0x0f)

def IndexAndValue.encode (pre : UInt8) (index : Nat) (mask : UInt8) (value : List UInt8) (isHuffman : Bool) :
    List UInt8 :=
  Integer.encode (Integer.index pre index mask) ++ stringOctets value isHuffman

def InsertWithName.encode (index : Nat) (value : List UInt8) (isHuffman isStatic : Bool) : List UInt8 :=
  IndexAndValue.encode (if isStatic then 0xc0 else 0x80) index 0x3f value isHuffman

def IndexingWithName.encode (index : Nat) (value : List UInt8) (isHuffman isStatic noPermit : Bool) : List UInt8 :=
  match noPermit, isStatic with
  | true, true => IndexAndValue.encode 0x70 index 0x0f value isHuffman
  | true, false => IndexAndValue.encode 0x60 index 0x0f value isHuffman
  | false, true => IndexAndValue.encode 0x50 index 0x0f value isHuffman
  | false, false => IndexAndValue.encode 0x40 index 0x0f value isHuffman

def IndexingWithPostName.encode (index : Nat) (value : List UInt8) (isHuffman noPermit : Bool) : List UInt8 :=
  IndexAndValue.encode (if noPermit then 0x08 else 0x00) index 0x0f value isHuffman

/-- The index holds the length of the name, and the octets of the name follow it. -/
def NameAndValue.encode (pre : UInt8) (mask : UInt8) (name value : List UInt8) (isHuffman : Bool) : List UInt8 :=
  Integer.encode (Integer.index pre name.length mask) ++
    ((Octets.new name isHuffman).octets ++ stringOctets value isHuffman)

def IndexingWithLiteral.encode (name value : List UInt8) (isHuffman noPermit : Bool) : List UInt8 :=
  match noPermit, isHuffman with
  | true, true => NameAndValue.encode 0x38 0x1f name value isHuffman
  | true, false => NameAndValue.encode 0x30 0x1f name value isHuffman
  | false, true => NameAndValue.encode 0x28 0x1f name value isHuffman
  | false, false => NameAndValue.encode 0x20 0x1f name value isHuffman

def InsertWithLiteral.encode (name value : List UInt8) (isHuffman : Bool) : List UInt8 :=
  NameAndValue.encode (if isHuffman then 0x60 else 0x40) 0x1f name value isHuffman

/-! ### Decoder instructions -/

inductive DecoderInstPrefixBit where
  | ack
  | streamCancel
  | insertCountIncrement
deriving DecidableEq, Repr

namespace DecoderInstPrefixBit

def fromU8 (byte : UInt8) : DecoderInstPrefixBit :=
  if byte &&& 0x80 = 0x80 then .ack
  else if byte &&& 0xc0 = 0x40 then .streamCancel
  else .insertCountIncrement

def prefixIndexMask : DecoderInstPrefixBit → UInt8
  | .ack => 0x7f
  | .streamCancel => 0x3f
  | .insertCountIncrement => 0x3f

/-- The three patterns of `from_u8` leave no byte to its last arm. -/
theorem fromU8_total (byte : UInt8) : byte &&& 0x80 = 0x80 ∨ byte &&& 0xc0 = 0x40 ∨ byte &&& 0xc0 = 0 := by
  revert byte
  exact Codec.forall_byte (by decide +kernel)

end DecoderInstPrefixBit

inductive DecoderInstruction where
  | ack (streamId : Nat)
  | streamCancel (streamId : Nat)
  | insertCountIncrement (increment : Nat)
deriving DecidableEq, Repr

abbrev DecInstIndexInner := IndexInner DecoderInstPrefixBit

def decoderStreamError : QpackError := .connectionError .decoderStreamError

/-- An instruction that is not complete in the buffer is an error. -/
def DecInstIndex.decode (inner : DecInstIndexInner) : Decoding (DecResult DecoderInstruction DecInstIndexInner) := do
  match ← IndexInner.decode DecoderInstPrefixBit.fromU8 DecoderInstPrefixBit.prefixIndexMask inner with
  | .decoded (.ack, index) => return .decoded (.ack index)
  | .decoded (.streamCancel, index) => return .decoded (.streamCancel index)
  | .decoded (.insertCountIncrement, index) => return .decoded (.insertCountIncrement index)
  | .needMore _ => throw decoderStreamError

def DecInstDecoder.decode : Method (Reading DecInstIndexInner) QpackError (Option DecoderInstruction) := fun r =>
  if r.buf.isEmpty then .ok none r
  else
    match DecInstIndex.decode (r.state.getD .firstByte) r.buf with
    | .ok (.needMore state) buf => .ok none ⟨buf, some state⟩
    | .ok (.decoded inst) buf => .ok (some inst) ⟨buf, none⟩
    | .err e buf => .err e ⟨buf, none⟩
    | .panic => .panic

end YlongHttp.H3.Qpack
