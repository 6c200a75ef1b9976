/-
The decoder of chunked bodies (`ChunkBodyDecoder` in `body/chunk.rs`).

A call takes a segment and returns the chunks, or parts of chunks, that it finds there.
Each stage ends in the next one, so that the functions of the source call each other up to
the end of a chunk or of the segment. A chunk has no extension here: the decoder skips the
extensions, and the map that the source returns is always empty.

With `contains_trailer` the decoder also reads the trailer section. It keeps the bytes of
the lines, and `getTrailer` makes the headers of them.
-/

import YlongHttp.Message
import YlongHttp.Rust.Outcome

namespace YlongHttp.Body

open Rust

inductive Stage where
  | size
  | extension
  | sizeEnd
  | data
  | dataEnd
  | trailerCrlf
  | trailerData
  | trailerEndCrlf
deriving DecidableEq, Repr

inductive ChunkState where
  | metaSize
  | metaExt
  | metaCrlf
  | data
  | dataCrlf
  | finish
deriving DecidableEq, Repr

structure Chunk where
  id : Nat
  state : ChunkState
  size : Nat
  data : List UInt8
  trailer : Option (List UInt8)
deriving DecidableEq, Repr

def Chunk.isComplete (chunk : Chunk) : Bool := chunk.state = .finish

/-- `hex_count` is an `i64` that is never negative. -/
structure ChunkBodyDecoder where
  chunkNum : Nat
  totalSize : Nat
  restSize : Nat
  hexCount : Nat
  trailer : List UInt8
  crMeet : Bool
  chunkFlag : Bool
  numFlag : Bool
  isLastChunk : Bool
  isChunkTrailer : Bool
  isTrailer : Bool
  isTrailerCrlf : Bool
  stage : Stage
deriving DecidableEq, Repr

namespace ChunkBodyDecoder

def new : ChunkBodyDecoder :=
  ⟨0, 0, 0, 0, [], false, false, false, false, false, false, false, .size⟩

def containsTrailer (d : ChunkBodyDecoder) (containTrailer : Bool) : ChunkBodyDecoder :=
  { d with isTrailer := containTrailer }

abbrev Call := Method ChunkBodyDecoder HttpError

/-- A chunk with the rest of the segment. -/
abbrev Piece := Chunk × List UInt8

def sizedChunk (data : List UInt8) (trailer : Option (List UInt8)) (size : Nat) (state : ChunkState) : Chunk :=
  ⟨0, state, size, data, trailer⟩

def decodeCr : Call Unit := do
  if (← get).crMeet then throw .invalidInput
  modify fun d => { d with crMeet := true }

def decodeLf : Call Unit := do
  if (← get).crMeet = false then throw .invalidInput
  modify fun d => { d with crMeet := false }

def i64Max : Nat := 2 ^ 63 - 1

def hexToDecimal (count num : Nat) : Except HttpError Nat :=
  if count * 16 > i64Max then .error .invalidInput
  else if count * 16 + num > i64Max then .error .invalidInput
  else .ok (count * 16 + num)

/-- `self.hex_count = Self::hex_to_decimal(self.hex_count, num)?`. -/
def addDigit (num : Nat) : Call Unit := do
  let count ← Method.ofExcept (hexToDecimal (← get).hexCount num)
  modify fun d => { d with hexCount := count }

/-! ### The end of a chunk -/

def skipLastCrlf (data : List UInt8) (buf : List UInt8) : Call Piece := do
  modify fun d => { d with stage := .dataEnd }
  go buf
where
  go : List UInt8 → Call Piece
    | [] => do return (sizedChunk data none (← get).totalSize .dataCrlf, [])
    | b :: buf => do
      if b = 0x0d then
        decodeCr
        go buf
      else if b = 0x0a then
        decodeLf
        modify fun d => { d with stage := .size }
        let completeChunk := sizedChunk data none (← get).totalSize .finish
        modify fun d => { d with totalSize := 0 }
        return (completeChunk, buf)
      else throw .invalidInput

def decodeData (buf : List UInt8) : Call Piece := do
  modify fun d => { d with stage := .data }
  if buf = [] then return (sizedChunk [] none (← get).totalSize .data, [])
  let rest := (← get).restSize
  if buf.length ≥ rest then
    modify fun d => { d with restSize := 0, crMeet := false }
    skipLastCrlf (buf.take rest) (buf.drop rest)
  else
    modify fun d => { d with restSize := d.restSize - buf.length }
    return (sizedChunk buf none (← get).totalSize .data, [])

def skipCrlf (buf : List UInt8) : Call Piece := do
  modify fun d => { d with stage := .sizeEnd }
  go buf
where
  go : List UInt8 → Call Piece
    | [] => do return (sizedChunk [] none (← get).totalSize .metaCrlf, [])
    | b :: buf => do
      if b = 0x0d then
        decodeCr
        go buf
      else if b = 0x0a then
        decodeLf
        decodeData buf
      else throw .invalidInput

def skipChunkExt : List UInt8 → Call Piece
  | [] => do return (sizedChunk [] none (← get).totalSize .metaExt, [])
  | b :: buf => do
    if b = 0x0d then
      decodeCr
      skipCrlf buf
    else if b = 0x0a then
      decodeLf
      skipCrlf (b :: buf)
    else skipChunkExt buf

/-! ### The trailer section -/

def skipTrailerLastCrlf (data : List UInt8) (buf : List UInt8) : Call Piece := do
  modify fun d => { d with stage := .trailerEndCrlf }
  go buf
where
  go : List UInt8 → Call Piece
    | [] => return (sizedChunk [] (some data) 0 .dataCrlf, [])
    | b :: buf => do
      if b = 0x0d then
        decodeCr
        go buf
      else if b = 0x0a then
        decodeLf
        if (← get).isLastChunk then
          modify fun d => { d with stage := .trailerEndCrlf }
          return (sizedChunk [] (some []) 0 .finish, buf)
        else
          modify fun d => { d with crMeet := false, isTrailerCrlf := true, stage := .trailerData }
          return (sizedChunk [] (some data) 0 .dataCrlf, buf)
      else throw .invalidInput

def decodeTrailerData (buf : List UInt8) : Call Piece := do
  modify fun d => { d with stage := .trailerData }
  if buf = [] then return (sizedChunk [] (some []) 0 .data, [])
  if buf.head? = some 0x0d ∧ (← get).isTrailerCrlf = true then
    modify fun d => { d with isLastChunk := true }
  go [] buf
where
  -- the first argument is what stands in front of the byte that is looked at
  go : List UInt8 → List UInt8 → Call Piece
    | data, [] => do
      modify fun d => { d with isTrailerCrlf := false }
      return (sizedChunk [] (some data) 0 .data, [])
    | data, b :: buf => do
      if b = 0x0d then
        decodeCr
        skipTrailerLastCrlf data buf
      else if b = 0x0a then
        decodeLf
        skipTrailerLastCrlf data (b :: buf)
      else go (data ++ [b]) buf

def skipTrailerCrlf (buf : List UInt8) : Call Piece := do
  modify fun d => { d with stage := .trailerCrlf }
  go buf
where
  go : List UInt8 → Call Piece
    | [] => do return (sizedChunk [] (some []) (← get).totalSize .metaCrlf, [])
    | b :: buf => do
      if b = 0x0d then
        decodeCr
        go buf
      else if b = 0x0a then
        decodeLf
        modify fun d => { d with isTrailerCrlf := true }
        decodeTrailerData buf
      else throw .invalidInput

def skipTrailerExt : List UInt8 → Call Piece
  | [] => do return (sizedChunk [] (some []) (← get).totalSize .metaExt, [])
  | b :: buf => do
    if b = 0x0d then
      decodeCr
      skipTrailerCrlf buf
    else if b = 0x0a then
      decodeLf
      skipTrailerCrlf (b :: buf)
    else skipTrailerExt buf

/-! ### The size -/

def skipExtension (buf : List UInt8) : Call Piece := do
  modify fun d => { d with stage := .extension }
  if (← get).isChunkTrailer then skipTrailerExt buf else skipChunkExt buf

def decodeSpecialChar (buf : List UInt8) : Call Piece := do
  if (← get).isChunkTrailer then
    modify fun d => { d with numFlag := false }
    skipTrailerCrlf buf
  else
    modify fun d => { d with totalSize := d.hexCount, hexCount := 0, numFlag := false }
    if (← get).totalSize = 0 then
      modify fun d => { d with isLastChunk := true }
      skipExtension buf
    else
      modify fun d => { d with restSize := d.totalSize }
      skipExtension buf

/-- A byte that can follow the zero of a last chunk, as `decode_size` looks ahead for it. -/
def endsLastSize (b : UInt8) : Bool := b == 0x3b || b == 0x20 || b == 0x0d

def addNonzeroDigit (num : Nat) : Call Unit := do
  addDigit num
  modify fun d => { d with chunkFlag := true, numFlag := true }

def decodeSizeLoop : List UInt8 → Call Piece
  | [] => do return (sizedChunk [] none (← get).totalSize .metaSize, [])
  | b :: buf => do
    if b = 0x30 then
      if (buf.head?.map endsLastSize).getD false = false then
        addDigit 0
        decodeSizeLoop buf
      else
        let d ← get
        if d.isTrailer && !d.chunkFlag && !d.numFlag then
          modify fun d => { d with isChunkTrailer := true, numFlag := false }
          skipExtension (b :: buf)
        else
          addDigit 0
          decodeSizeLoop buf
    else if 0x31 ≤ b ∧ b ≤ 0x39 then
      addNonzeroDigit (b.toNat - 0x30)
      decodeSizeLoop buf
    else if 0x61 ≤ b ∧ b ≤ 0x66 then
      addNonzeroDigit (b.toNat - 0x61 + 10)
      decodeSizeLoop buf
    else if 0x41 ≤ b ∧ b ≤ 0x46 then
      addNonzeroDigit (b.toNat - 0x41 + 10)
      decodeSizeLoop buf
    else if b = 0x20 ∨ b = 0x09 ∨ b = 0x3b ∨ b = 0x0d ∨ b = 0x0a then decodeSpecialChar (b :: buf)
    else throw .invalidInput

def decodeSize (buf : List UInt8) : Call Piece := do
  modify fun d => { d with stage := .size }
  if buf = [] then return (sizedChunk [] none (← get).totalSize .metaSize, [])
  modify fun d => { d with chunkFlag := false }
  decodeSizeLoop buf

/-! ### Segments -/

def mergeTrailer (chunk : Chunk) (trailer : List UInt8) : Call Unit := do
  if chunk.state = .finish ∨ chunk.state = .dataCrlf then
    modify fun d => { d with trailer := d.trailer ++ trailer }
    if (← get).trailer ≠ [] then modify fun d => { d with trailer := d.trailer ++ [0x0d, 0x0a] }
  else modify fun d => { d with trailer := d.trailer ++ trailer }

/-- `match_decode_result`: whether the loop ends. The chunk is pushed in all cases. -/
def matchDecodeResult (chunk : Chunk) (remains : List UInt8) : Call Bool := do
  let d ← get
  match chunk.isComplete, d.isLastChunk with
  | false, _ =>
    if d.isChunkTrailer = true ∧ (chunk.state = .data ∨ chunk.state = .dataCrlf) then
      modify fun d => { d with chunkNum := d.chunkNum + 1 }
      return remains = []
    else return true
  | true, true =>
    modify fun d => { d with isLastChunk := false, chunkNum := 0 }
    return true
  | true, false =>
    modify fun d => { d with chunkNum := d.chunkNum + 1 }
    return remains = []

def decodeStage (remains : List UInt8) : Call Piece := do
  match (← get).stage with
  | .size => decodeSize remains
  | .extension => skipExtension remains
  | .sizeEnd => skipCrlf remains
  | .data => decodeData remains
  | .dataEnd => skipLastCrlf [] remains
  | .trailerCrlf => skipTrailerCrlf remains
  | .trailerData => decodeTrailerData remains
  | .trailerEndCrlf => skipTrailerLastCrlf [] remains

/-- What the loop of `decode` does with a chunk; the result says whether the loop ends. -/
def closeRound (piece : Piece) : Call (Piece × Bool) := do
  let chunk := { piece.1 with id := (← get).chunkNum }
  match chunk.trailer with
  | some trailer => mergeTrailer chunk trailer
  | none => pure ()
  let ends ← matchDecodeResult chunk piece.2
  return ((chunk, piece.2), ends)

def decodeRound (remains : List UInt8) : Call (Piece × Bool) := do
  let piece ← decodeStage remains
  closeRound piece

def decodeLoop : Nat → List UInt8 → Call (List Chunk × List UInt8)
  | 0, _ => Method.panicked
  | fuel + 1, remains => do
    let ((chunk, rest), ends) ← decodeRound remains
    if ends then return ([chunk], rest)
    let (chunks, remains) ← decodeLoop fuel rest
    return (chunk :: chunks, remains)

/-- A round that does not end the loop takes a byte at least. -/
def decode (buf : List UInt8) : Call (List Chunk × List UInt8) := decodeLoop (buf.length + 1) buf

/-! ### The trailer headers -/

def isOws (b : UInt8) : Bool := b == 0x20 || b == 0x09

/-- `trailer_value` without the blanks at both ends. A value of blanks only stays as it is,
because there is no position to cut it at. -/
def trimOws (value : List UInt8) : List UInt8 :=
  if value.all isOws then value else (value.dropWhile isOws).rdropWhile isOws

structure TrailerState where
  colon : Nat
  lf : Nat
  name : HeaderName
  headers : Headers

/-- The errors of names and values are `HttpError`s. -/
def ofHeaderError {α : Type} : Except HeaderError α → Except HttpError α
  | .ok a => .ok a
  | .error .invalidInput => .error .invalidInput

/-- The body of the loop of `get_trailer` at a byte `b`, where `seen` are the bytes in front of
it: all slices of the source end there. The result is whether the loop breaks. -/
def trailerStep (seen : List UInt8) (b : UInt8) : Method TrailerState HttpError Bool := do
  let s ← get
  if b = 0x20 then return false
  if b = 0x3a ∧ s.colon = 0 then
    modify fun s => { s with colon := seen.length }
    let trailerName ← if s.lf = 0 then pure seen else sliceFrom seen (s.lf + 1)
    let name ← Method.ofExcept (ofHeaderError (HeaderName.fromBytes trailerName))
    modify fun s => { s with name := name }
    return false
  if b = 0x0a then
    let before ← slice seen (← checkedSub seen.length 2) (← checkedSub seen.length 1)
    if before = [0x0a] then return true
    modify fun s => { s with lf := seen.length }
    let trailerValue ← slice seen (s.colon + 1) (← checkedSub seen.length 1)
    let value ← Method.ofExcept (ofHeaderError (HeaderValue.fromBytes (trimOws trailerValue)))
    modify fun s => { s with headers := s.headers.insert s.name value, colon := 0 }
  return false

def trailerLoop : List UInt8 → List UInt8 → Method TrailerState HttpError Unit
  | _, [] => pure ()
  | seen, b :: rest => do
    if ← trailerStep seen b then return ()
    trailerLoop (seen ++ [b]) rest

/-- The headers of the lines of a trailer section. -/
def trailerHeaders (trailer : List UInt8) : Outcome Unit HttpError (Option Headers) :=
  if trailer = [] then .ok none ()
  else
    ((trailerLoop [] trailer ⟨0, 0, ⟨[], by simp⟩, ∅⟩).bind fun _ s => .ok (some s.headers) s).mapState
      fun _ => ()

def getTrailer (d : ChunkBodyDecoder) : Outcome Unit HttpError (Option Headers) :=
  trailerHeaders d.trailer

end ChunkBodyDecoder

end YlongHttp.Body
