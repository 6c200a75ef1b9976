/-
The encoder of chunked bodies (`body/chunk.rs`).

A `ChunkBody` cuts a body into windows of `CHUNK_SIZE` bytes. The window comes from a slice,
from a reader or from a reader that may be pending; what is done with it is the same.
`EncodeStatus.encode` writes a part of the chunk of the current window, and `data` and
`poll_data` go on until the buffer is full. A buffer is the number of bytes it has room for,
and the bytes that are put into it are returned.

The readers do not fail. They give what each call of `read` returns, for a buffer of
`CHUNK_SIZE` bytes.
-/

import YlongHttp.Body.ChunkDecoder
import YlongHttp.Body.ChunkGrammar
import YlongHttp.Rust.Poll

namespace YlongHttp.Body

open Rust

/-- `CHUNK_SIZE`. -/
def chunkSize : Nat := 1024

/-- `format!("{n:x}")`. -/
def lowerHex (n : Nat) : List UInt8 := (Nat.toDigits 16 n).map fun c => c.toNat.toUInt8

/-- `Infallible`. -/
abbrev Infallible := Empty

inductive TokenStatus where
  | complete (written : List UInt8)
  | incomplete (written : List UInt8)
deriving DecidableEq, Repr

variable {α : Type}

/-- `WriteData::write`. The index advances also when the token is complete. -/
def writeData (src : List UInt8) (room : Nat) : Method Nat Infallible TokenStatus := do
  let srcIdx ← get
  let inputLen ← checkedSub src.length srcIdx
  let written := (src.drop srcIdx).take room
  set (srcIdx + written.length)
  if room ≥ inputLen then return .complete written
  return .incomplete written

structure EncodeHex where
  inner : List UInt8
  srcIdx : Nat
deriving DecidableEq, Repr

def EncodeHex.new (hex : List UInt8) : EncodeHex := ⟨hex, 0⟩

def EncodeHex.encode (room : Nat) : Method EncodeHex Infallible TokenStatus := fun h =>
  Method.onField srcIdx (fun i h => { h with srcIdx := i }) (writeData h.inner room) h

inductive DataState where
  | incomplete
  | complete
  | finish
deriving DecidableEq, Repr

structure StatusVar where
  cnt : Nat
  dataStatus : DataState

/-! ### One chunk -/

structure EncodeStatus where
  chunkLast : Nat
  chunkIdx : Nat
  readFlag : Bool
  chunkStatus : ChunkState
  metaCrlf : Nat
  dataCrlf : Nat
  finishCrlf : Nat
  hex : EncodeHex
  hexLast : EncodeHex
deriving DecidableEq, Repr

namespace EncodeStatus

def new : EncodeStatus where
  chunkLast := 0
  chunkIdx := 0
  readFlag := false
  chunkStatus := .metaSize
  metaCrlf := 0
  dataCrlf := 0
  finishCrlf := 0
  hex := .new (lowerHex chunkSize)
  hexLast := .new []

/-- A part of a chunk, after which `next` happens. -/
def encodePart (write : Method EncodeStatus Infallible TokenStatus) (next : EncodeStatus → EncodeStatus) :
    Method EncodeStatus Infallible (List UInt8) := do
  match ← write with
  | .complete written =>
    modify next
    return written
  | .incomplete written => return written

/-- A part after which the status of the body changes too. -/
def encodeLast (write : Method EncodeStatus Infallible TokenStatus) (next : EncodeStatus → EncodeStatus)
    (var : StatusVar) : Method EncodeStatus Infallible (List UInt8 × Option StatusVar) := do
  match ← write with
  | .complete written =>
    modify next
    return (written, some var)
  | .incomplete written => return (written, none)

/-- The size of a whole window is kept between calls; that of the last one is made anew. -/
def metaSizeEncode (room : Nat) : Method EncodeStatus Infallible (List UInt8) := do
  if (← get).chunkLast = chunkSize then
    encodePart (Method.onField hex (fun h e => { e with hex := h }) (EncodeHex.encode room))
      fun e => { e with chunkStatus := .metaCrlf, hex := { e.hex with srcIdx := 0 } }
  else
    modify fun e => { e with hexLast := .new (lowerHex e.chunkLast) }
    encodePart (Method.onField hexLast (fun h e => { e with hexLast := h }) (EncodeHex.encode room))
      fun e => { e with chunkStatus := .metaCrlf, hexLast := { e.hexLast with srcIdx := 0 } }

def metaCrlfEncode (room : Nat) : Method EncodeStatus Infallible (List UInt8) :=
  encodePart (Method.onField metaCrlf (fun i e => { e with metaCrlf := i }) (writeData crlf room))
    fun e => { e with chunkStatus := .data, metaCrlf := 0 }

def dataCrlfEncode (room : Nat) : Method EncodeStatus Infallible (List UInt8) :=
  encodePart (Method.onField dataCrlf (fun i e => { e with dataCrlf := i }) (writeData crlf room))
    fun e => { e with chunkStatus := .metaSize, dataCrlf := 0 }

def finishEncode (room : Nat) : Method EncodeStatus Infallible (List UInt8 × Option StatusVar) :=
  encodeLast (Method.onField finishCrlf (fun i e => { e with finishCrlf := i }) (writeData crlf room))
    (fun e => { e with metaCrlf := 0 }) ⟨0, .complete⟩

def dataEncode (src : List UInt8) (room : Nat) : Method EncodeStatus Infallible (List UInt8 × Option StatusVar) :=
  encodeLast (Method.onField chunkIdx (fun i e => { e with chunkIdx := i }) (writeData src room))
    (fun e => { e with chunkStatus := .dataCrlf, readFlag := false }) ⟨1, .incomplete⟩

def tailEncode (src : List UInt8) (room : Nat) : Method EncodeStatus Infallible (List UInt8 × Option StatusVar) :=
  encodeLast (Method.onField chunkIdx (fun i e => { e with chunkIdx := i }) (writeData src room))
    (fun e => { e with chunkStatus := .finish, readFlag := false }) ⟨0, .incomplete⟩

def encode (src : List UInt8) (room : Nat) : Method EncodeStatus Infallible (List UInt8 × Option StatusVar) := do
  let e ← get
  match e.chunkStatus with
  | .metaSize => return (← metaSizeEncode room, none)
  | .metaExt => return ([], none)
  | .metaCrlf => return (← metaCrlfEncode room, none)
  | .data => if e.chunkLast ≠ chunkSize then tailEncode src room else dataEncode src room
  | .dataCrlf => return (← dataCrlfEncode room, none)
  | .finish => finishEncode room

end EncodeStatus

/-! ### The body -/

structure ChunkData where
  chunkBuf : List UInt8
  chunkCount : Nat
  chunkLast : Nat
deriving DecidableEq, Repr

/-- The field `from` is called `source` here. -/
structure ChunkBody (α : Type) where
  source : α
  trailerValue : List UInt8
  chunkData : ChunkData
  dataStatus : DataState
  encodeStatus : EncodeStatus
  trailer : Nat

namespace ChunkBody

def new (source : α) (chunkBuf : List UInt8) : ChunkBody α where
  source := source
  trailerValue := []
  chunkData := ⟨chunkBuf, 0, 0⟩
  dataStatus := .incomplete
  encodeStatus := .new
  trailer := 0

/-- `chunk_encode` with a slice as source, and `chunk_encode_reader`. -/
def chunkEncode (src : List UInt8) (room : Nat) : Method (ChunkBody α) Infallible (List UInt8) := do
  modify fun b => { b with encodeStatus := { b.encodeStatus with chunkLast := b.chunkData.chunkLast } }
  let (written, var) ← Method.onField encodeStatus (fun e b => { b with encodeStatus := e })
    (EncodeStatus.encode src room)
  match var with
  | some v =>
    modify fun b => { b with chunkData := { b.chunkData with chunkCount := v.cnt }, dataStatus := v.dataStatus }
  | none => pure ()
  return written

def trailerEncode (room : Nat) : Method (ChunkBody α) Infallible (List UInt8) := do
  let trailerValue := (← get).trailerValue
  let src := [0x30, 0x0d, 0x0a] ++ (if trailerValue = [] then crlf else trailerValue ++ crlf)
  match ← Method.onField trailer (fun i b => { b with trailer := i }) (writeData src room) with
  | .complete written =>
    modify fun b => { b with dataStatus := .finish }
    return written
  | .incomplete written => return written

/-- `set_flag(true)` and `set_chunk_idx(0)`. -/
def beginWindow : Method (ChunkBody α) Infallible Unit :=
  modify fun b => { b with encodeStatus := { b.encodeStatus with readFlag := true, chunkIdx := 0 } }

/-- Encode the window, after a new one has been loaded if the last one is done with. -/
def windowEncode (loadWindow : Method (ChunkBody α) Infallible Unit)
    (window : Method (ChunkBody α) Infallible (List UInt8)) (room : Nat) :
    Method (ChunkBody α) Infallible (List UInt8) := do
  if (← get).encodeStatus.readFlag = false then
    beginWindow
    loadWindow
  let src ← window
  chunkEncode src room

/-- A round of `data`, with the way in which the source is encoded. -/
def dataStep (encodeSource : Nat → Method (ChunkBody α) Infallible (List UInt8)) (room : Nat) :
    Method (ChunkBody α) Infallible (Option (List UInt8)) := do
  match (← get).dataStatus with
  | .incomplete => some <$> encodeSource room
  | .complete => some <$> trailerEncode room
  | .finish => return none

end ChunkBody

/-! ### From bytes -/

abbrev FromBytes := List UInt8

namespace FromBytes

/-- `ChunkBody::from_bytes`. -/
def chunkBody (bytes : List UInt8) : ChunkBody FromBytes := .new bytes []

/-- The window begins behind as many whole windows as have been counted. -/
def loadWindow : Method (ChunkBody FromBytes) Infallible Unit := do
  let b ← get
  let dataLeft ← checkedSub b.source.length (b.chunkData.chunkCount * chunkSize)
  let chunkLast := if dataLeft < chunkSize then dataLeft else chunkSize
  modify fun b => { b with chunkData := { b.chunkData with chunkLast := chunkLast } }

def window : Method (ChunkBody FromBytes) Infallible (List UInt8) := do
  let b ← get
  let start := b.chunkData.chunkCount * chunkSize
  slice b.source start (start + b.chunkData.chunkLast)

def bytesEncode (room : Nat) : Method (ChunkBody FromBytes) Infallible (List UInt8) :=
  ChunkBody.windowEncode loadWindow window room

def data (room : Nat) : Method (ChunkBody FromBytes) Infallible (List UInt8) :=
  fill (ChunkBody.dataStep bytesEncode) (2 * room + 2) room

end FromBytes

/-! ### From readers -/

/-- What is read is put at the start of the buffer. -/
def ChunkBody.fillBuf (piece : List UInt8) : Method (ChunkBody α) Infallible Unit :=
  modify fun b =>
    { b with chunkData :=
      { b.chunkData with
        chunkBuf := piece ++ b.chunkData.chunkBuf.drop piece.length
        chunkLast := piece.length } }

def ChunkBody.bufWindow : Method (ChunkBody α) Infallible (List UInt8) := do
  let b ← get
  sliceTo b.chunkData.chunkBuf b.chunkData.chunkLast

/-- A piece that a reader can return for a buffer of `CHUNK_SIZE` bytes, not at the end. -/
def Piece (piece : List UInt8) : Prop := piece ≠ [] ∧ piece.length ≤ chunkSize

instance (piece : List UInt8) : Decidable (Piece piece) := inferInstanceAs (Decidable (_ ∧ _))

/-- A reader gives pieces, and nothing more after the last one. -/
structure FromReader where
  pieces : List (List UInt8)
  piece : ∀ p ∈ pieces, Piece p

namespace FromReader

def read (r : FromReader) : List UInt8 × FromReader :=
  match r with
  | ⟨[], h⟩ => ([], ⟨[], h⟩)
  | ⟨p :: pieces, h⟩ => (p, ⟨pieces, fun q hq => h q (List.mem_cons_of_mem _ hq)⟩)

/-- `ChunkBody::from_reader`. -/
def chunkBody (reader : FromReader) : ChunkBody FromReader := .new reader (List.replicate chunkSize 0)

def loadWindow : Method (ChunkBody FromReader) Infallible Unit := do
  let (piece, reader) := (← get).source.read
  modify fun b => { b with source := reader }
  ChunkBody.fillBuf piece

/-- The branch of `data` for a body that is not complete. -/
def readerEncode (room : Nat) : Method (ChunkBody FromReader) Infallible (List UInt8) :=
  ChunkBody.windowEncode loadWindow ChunkBody.bufWindow room

def data (room : Nat) : Method (ChunkBody FromReader) Infallible (List UInt8) :=
  fill (ChunkBody.dataStep readerEncode) (2 * room + 2) room

end FromReader

/-- A reader that answers a call with a piece, or is pending. -/
structure FromAsyncReader where
  answers : List (Poll (List UInt8))
  piece : ∀ p, Poll.ready p ∈ answers → Piece p

namespace FromAsyncReader

def pollRead (r : FromAsyncReader) : Poll (List UInt8) × FromAsyncReader :=
  match r with
  | ⟨[], h⟩ => (.ready [], ⟨[], h⟩)
  | ⟨answer :: answers, h⟩ => (answer, ⟨answers, fun q hq => h q (List.mem_cons_of_mem _ hq)⟩)

/-- `ChunkBody::from_async_reader`. -/
def chunkBody (reader : FromAsyncReader) : ChunkBody FromAsyncReader := .new reader (List.replicate chunkSize 0)

def pollPartial (room : Nat) : Method (ChunkBody FromAsyncReader) Infallible (Poll (List UInt8)) := do
  if (← get).encodeStatus.readFlag = false then
    let (answer, reader) := (← get).source.pollRead
    modify fun b => { b with source := reader }
    match answer with
    | .pending => return .pending
    | .ready piece =>
      ChunkBody.beginWindow
      ChunkBody.fillBuf piece
      let src ← ChunkBody.bufWindow
      return .ready (← ChunkBody.chunkEncode src room)
  else
    let src ← ChunkBody.bufWindow
    return .ready (← ChunkBody.chunkEncode src room)

/-- A round of `poll_data`. -/
def pollStep (room : Nat) : Method (ChunkBody FromAsyncReader) Infallible (Poll (Option (List UInt8))) := do
  match (← get).dataStatus with
  | .incomplete => return (← pollPartial room).map some
  | .complete => return .ready (some (← ChunkBody.trailerEncode room))
  | .finish => return .ready none

def pollData (room : Nat) : Method (ChunkBody FromAsyncReader) Infallible (Poll (List UInt8)) :=
  fillPoll pollStep (2 * room + 2) false room

end FromAsyncReader

end YlongHttp.Body
