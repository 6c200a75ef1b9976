/-
Huffman coding of string literals (`huffman/mod.rs`).

The encoder packs codes into a 64-bit word, `unfilled` of whose low bits are
still free, and writes the word out whenever it is full. The last word is filled
up with ones and only its used bytes are written. The decoder is a state machine
over half bytes driven by `huffmanDecodeTable`.

The 64-bit word is a natural number below `2 ^ 64`; the shifts and the rotation
drop what leaves the word, as they do on `u64`.
-/

import YlongHttp.Huffman.Consts
import YlongHttp.Codec.Bits

namespace YlongHttp.Huffman

open Codec

/-- `u64::MAX`. -/
def u64Max : Nat := 2 ^ 64 - 1

/-- `x << n` on `u64`. -/
def shl64 (x n : Nat) : Nat := (x <<< n) % 2 ^ 64

/-- `x.rotate_right(n)` on `u64`. -/
def rotateRight64 (x n : Nat) : Nat := (x >>> n) ||| shl64 x (64 - n)

/-! ### Encoding -/

/-- The variables of the encoding loop. -/
structure Packer where
  state : Nat
  unfilled : Nat
  dst : List UInt8

/-- One iteration of the encoding loop: append a code of `nbits` bits. -/
def Packer.push (p : Packer) (nbits code : Nat) : Packer :=
  if nbits < p.unfilled then
    { p with
      state := p.state ||| shl64 code (p.unfilled - nbits)
      unfilled := p.unfilled - nbits }
  else if nbits = p.unfilled then
    { state := 0
      unfilled := 64
      dst := p.dst ++ beBytes 8 (p.state ||| code) }
  else
    let rotate := rotateRight64 code (nbits - p.unfilled)
    let mask := u64Max >>> (64 - p.unfilled)
    { state := rotate &&& (u64Max ^^^ mask)
      unfilled := 64 - (nbits - p.unfilled)
      dst := p.dst ++ beBytes 8 (p.state ||| (rotate &&& mask)) }

/-- The length and the code of a byte. -/
def codeOf (byte : UInt8) : Nat × Nat := huffmanEncodeTable.getD byte.toNat (0, 0)

def Packer.pushBytes (p : Packer) (src : List UInt8) : Packer :=
  src.foldl (fun p byte => p.push (codeOf byte).1 (codeOf byte).2) p

/-- Fill the last byte with ones and write the used bytes of the word. -/
def Packer.finish (p : Packer) : List UInt8 :=
  if p.unfilled = 64 then p.dst
  else
    p.dst ++ (beBytes 8 (p.state ||| (u64Max >>> (64 - p.unfilled)))).take (8 - (p.unfilled >>> 3))

/-- `huffman_encode`, which appends to `dst`. -/
def huffmanEncode (src dst : List UInt8) : List UInt8 :=
  (Packer.pushBytes ⟨0, 64, dst⟩ src).finish

/-! ### Decoding -/

inductive HuffmanDecodeError where
  | invalidHuffmanCode
deriving DecidableEq, Repr

/-- `HUFFMAN_DECODE[state][nibble]`. -/
def decodeEntry (state nibble : Nat) : Nat × Nat × Nat :=
  (huffmanDecodeTable.getD state []).getD nibble (0, 0, 0)

/-- A decoder between two calls: the state of the machine, the flags of its last
step and the bytes decoded so far. -/
structure HuffmanDecoder where
  state : Nat
  flags : Nat
  vec : List UInt8
deriving DecidableEq, Repr

def HuffmanDecoder.new : HuffmanDecoder := ⟨0, 0, []⟩

/-- One table step of `huffman_decode_inner`. A failed call drops the bytes
decoded so far with the decoder, so the error carries nothing. -/
def decodeNibble (d : HuffmanDecoder) (nibble : Nat) : Except HuffmanDecodeError HuffmanDecoder :=
  let (state, result, flags) := decodeEntry d.state nibble
  if flags &&& 0x4 = 0x4 then .error .invalidHuffmanCode
  else .ok ⟨state, flags, if flags &&& 0x2 = 0x2 then d.vec ++ [result.toUInt8] else d.vec⟩

/-- `huffman_decode_inner`: the two halves of every byte in turn. -/
def huffmanDecodeInner : List UInt8 → HuffmanDecoder → Except HuffmanDecodeError HuffmanDecoder
  | [], d => .ok d
  | byte :: src, d => do
    let d ← decodeNibble d (byte.toNat >>> 4)
    let d ← decodeNibble d (byte.toNat &&& 0xf)
    huffmanDecodeInner src d

def HuffmanDecoder.decode (d : HuffmanDecoder) (src : List UInt8) : Except HuffmanDecodeError HuffmanDecoder :=
  huffmanDecodeInner src d

/-- All bits are used up, or what is left can be the start of the padding. -/
def HuffmanDecoder.finish (d : HuffmanDecoder) : Except HuffmanDecodeError (List UInt8) :=
  if d.state ≠ 0 ∧ d.flags &&& 0x1 = 0 then .error .invalidHuffmanCode else .ok d.vec

/-- `huffman_decode` in one call. -/
def huffmanDecode (src dst : List UInt8) : Except HuffmanDecodeError (List UInt8) := do
  let d ← huffmanDecodeInner src ⟨0, 0, dst⟩
  d.finish

end YlongHttp.Huffman
