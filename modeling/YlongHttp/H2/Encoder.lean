/-
The frame encoder (`h2/encoder.rs`).

`setFrame` takes a frame and `encode` writes it into the buffers that it is given, one
after the other. Every kind of frame has a writer for the header and one for the
payload, which continue where the last buffer ended; `encodedBytes` says where that is.
A HEADERS frame goes through the HPACK encoder, at most 16384 bytes at a time, and what
does not fit into the first frame goes into CONTINUATION frames.

A writer gets the rest of the buffer and returns it as it is afterwards, with the number
of bytes written.
-/

import YlongHttp.Codec.Octets
import YlongHttp.H2.Frame
import YlongHttp.H2.Hpack.Encoder
import YlongHttp.Rust.Buffer

namespace YlongHttp.H2

open Rust Codec H2.Hpack

inductive FrameEncoderErr where
  | encodingData
  | unexpectedPayloadType
  | noCurrentFrame
  | internalError
  | headersNotEnd
deriving DecidableEq

inductive FrameEncoderState where
  | idle
  | encodingHeadersFrame
  | encodingHeadersPayload
  | encodingHeadersPadding
  | encodingContinuationFrames
  | headersComplete
  | encodingDataHeader
  | encodingDataPayload
  | encodingDataPadding
  | encodingSettingsFrame
  | encodingSettingsPayload
  | encodingGoawayFrame
  | encodingGoawayPayload
  | encodingWindowUpdateFrame
  | encodingWindowUpdatePayload
  | encodingPriorityFrame
  | encodingPriorityPayload
  | encodingRstStreamFrame
  | encodingRstStreamPayload
  | encodingPingFrame
  | encodingPingPayload
  | dataComplete
deriving DecidableEq

/-- The states in which there is nothing to encode. -/
def FrameEncoderState.isComplete : FrameEncoderState → Bool
  | .idle | .headersComplete | .dataComplete => true
  | _ => false

/-- The length of the buffer for header blocks. -/
def headerPayloadBufferSize : Nat := 16384

structure HeaderPayloadBuffer where
  bytes : List UInt8
  length_bytes : bytes.length = headerPayloadBufferSize

namespace HeaderPayloadBuffer

def new : HeaderPayloadBuffer := ⟨List.replicate headerPayloadBufferSize 0, List.length_replicate⟩

/-- The buffer after bytes were written to its front. -/
def overwrite (b : HeaderPayloadBuffer) (bytes : List UInt8)
    (h : bytes.length ≤ headerPayloadBufferSize) : HeaderPayloadBuffer where
  bytes := bytes ++ b.bytes.drop bytes.length
  length_bytes := by rw [List.length_append, List.length_drop, b.length_bytes]; omega

end HeaderPayloadBuffer

structure FrameEncoder where
  currentFrame : Option Frame
  maxFrameSize : Nat
  hpackEncoder : HpackEncoder
  state : FrameEncoderState
  encodedBytes : Nat
  dataOffset : Nat
  remainingHeaderPayload : Nat
  remainingPayloadBytes : Nat
  isEndStream : Bool
  isEndHeaders : Bool
  headerPayloadBuffer : HeaderPayloadBuffer
  headerPayloadIndex : Nat

namespace FrameEncoder

def frameHeaderSize : Nat := 9

def new (maxFrameSize : Nat) (useHuffman : Bool) : FrameEncoder where
  currentFrame := none
  maxFrameSize := maxFrameSize
  hpackEncoder := .new 4096 useHuffman
  state := .idle
  encodedBytes := 0
  dataOffset := 0
  remainingHeaderPayload := 0
  remainingPayloadBytes := 0
  isEndStream := false
  isEndHeaders := false
  headerPayloadBuffer := .new
  headerPayloadIndex := 0

/-- What a writer returns: the rest of the buffer afterwards and the bytes written. -/
abbrev Writer := Method FrameEncoder FrameEncoderErr (List UInt8 × Nat)

def setState (state : FrameEncoderState) : Method FrameEncoder FrameEncoderErr Unit :=
  modify fun e => { e with state := state }

/-- `self.encoded_bytes += n`. -/
def advance (n : Nat) : Method FrameEncoder FrameEncoderErr Unit :=
  modify fun e => { e with encodedBytes := e.encodedBytes + n }

def updateMaxFrameSize (size : Nat) : Method FrameEncoder FrameEncoderErr Unit :=
  modify fun e => { e with maxFrameSize := size }

/-- `self.hpack_encoder.encode(&mut self.header_payload_buffer)`. -/
def hpackEncode : Method FrameEncoder FrameEncoderErr Nat := fun e =>
  match e.hpackEncoder.encode headerPayloadBufferSize with
  | .ok (size, bytes) hpackEncoder =>
    if h : bytes.length ≤ headerPayloadBufferSize then
      .ok size { e with
        hpackEncoder := hpackEncoder
        headerPayloadBuffer := e.headerPayloadBuffer.overwrite bytes h }
    else .panic
  | .panic => .panic

def readRestPayload : Method FrameEncoder FrameEncoderErr Unit := do
  modify fun e => { e with headerPayloadIndex := 0 }
  let payloadSize ← hpackEncode
  modify fun e => { e with remainingHeaderPayload := payloadSize }

def setFrame (frame : Frame) : Method FrameEncoder FrameEncoderErr Unit := do
  modify fun e => { e with
    isEndStream := frame.flags.isEndStream
    isEndHeaders := frame.flags.isEndHeaders
    currentFrame := some frame
    encodedBytes := 0 }
  match frame.payload with
  | .headers parts =>
    if !(← get).isEndHeaders then throw .headersNotEnd
    modify fun e => { e with hpackEncoder := e.hpackEncoder.setParts parts }
    readRestPayload
    setState .encodingHeadersFrame
  | .priority _ => setState .encodingPriorityFrame
  | .rstStream _ => setState .encodingRstStreamFrame
  | .ping _ => setState .encodingPingFrame
  | .data data =>
    modify fun e => { e with
      dataOffset := 0
      remainingPayloadBytes := data.length
      state := .encodingDataHeader }
  | .settings _ => setState .encodingSettingsFrame
  | .goaway _ => setState .encodingGoawayFrame
  | .windowUpdate _ => setState .encodingWindowUpdateFrame
  | .pushPromise _ _ => pure ()

def finishCurrentFrame : Method FrameEncoder FrameEncoderErr Unit :=
  modify fun e => { e with
    headerPayloadIndex := 0
    isEndStream := false
    currentFrame := none
    isEndHeaders := false
    remainingHeaderPayload := 0
    encodedBytes := 0 }

def tryRetrieveCurrentFrame : Method FrameEncoder FrameEncoderErr Frame := fun e =>
  match e.currentFrame with
  | some frame => .ok frame e
  | none => .err .noCurrentFrame e

/-! ### Frame headers -/

/-- The bytes of the header that the buffer has room for. -/
def headerBytesToWrite (encodedBytes room : Nat) : Nat :=
  min (if frameHeaderSize ≤ encodedBytes then 0 else frameHeaderSize - encodedBytes) room

/-- The byte of a header at an index. -/
def headerByte (payloadLen : Nat) (frameType flags : UInt8) (streamId : StreamId) (i : Nat) :
    Method FrameEncoder FrameEncoderErr UInt8 :=
  if i ≤ 2 then pure (octet24 payloadLen i)
  else if i = 3 then pure frameType
  else if i = 4 then pure flags
  else if i ≤ 8 then pure (octet32 streamId (i - 5))
  else throw .internalError

/-- The header writers that go by the index into the header. -/
def iterateHeader (payloadLen : Nat) (frameType flags : UInt8) (streamId : StreamId)
    (buf : List UInt8) (len : Nat) : Method FrameEncoder FrameEncoderErr (List UInt8) := do
  let e ← get
  fillItems (fun i => headerByte payloadLen frameType flags streamId (e.encodedBytes + i)) 0 len buf

def iterateHeadersHeader (frame : Frame) (buf : List UInt8) (len : Nat) :
    Method FrameEncoder FrameEncoderErr (List UInt8) := do
  let e ← get
  let flags := if e.hpackEncoder.isFinished then frame.flags.bits else frame.flags.bits &&& 0xFB
  iterateHeader e.remainingHeaderPayload FrameType.headers.code flags frame.id buf len

def iterateDataHeader (frame : Frame) (buf : List UInt8) (payloadLen len : Nat) :
    Method FrameEncoder FrameEncoderErr (List UInt8) := do
  let e ← get
  let flags :=
    if e.remainingPayloadBytes ≤ e.maxFrameSize then frame.flags.bits else frame.flags.bits &&& 0xFE
  iterateHeader payloadLen frame.payload.frameType.code flags frame.id buf len

def iterateGoawayHeader (frame : Frame) (goaway : Goaway) (buf : List UInt8) (len : Nat) :
    Method FrameEncoder FrameEncoderErr (List UInt8) :=
  iterateHeader goaway.encodedLen FrameType.goaway.code frame.flags.bits frame.id buf len

def iteratePriorityHeader (frame : Frame) (buf : List UInt8) (len : Nat) :
    Method FrameEncoder FrameEncoderErr (List UInt8) :=
  iterateHeader 5 frame.payload.frameType.code frame.flags.bits frame.id buf len

/-- The length of the payload is written out. -/
def iterateWindowUpdateHeader (frame : Frame) (buf : List UInt8) (len : Nat) :
    Method FrameEncoder FrameEncoderErr (List UInt8) := do
  let e ← get
  fillItems (fun bufIndex =>
    let i := e.encodedBytes + bufIndex
    if i ≤ 1 then pure 0
    else if i = 2 then pure 4
    else if i = 3 then pure FrameType.windowUpdate.code
    else if i = 4 then pure frame.flags.bits
    else if i ≤ 8 then pure (octet32 frame.id (i - 5))
    else throw .internalError) 0 len buf

/-- A step of the header writers of frames on stream 0. The type and the flags go to fixed
places of the buffer, and the length goes by the index into the buffer. -/
def setConnectionHeaderByte (payloadLen : Nat) (frameType flags : UInt8) (encodedBytes bufIndex : Nat)
    (buf : List UInt8) : Method FrameEncoder FrameEncoderErr (List UInt8) :=
  let i := encodedBytes + bufIndex
  if i ≤ 2 then setIndex buf bufIndex (octet24 payloadLen bufIndex)
  else if i = 3 then setIndex buf 3 frameType
  else if i = 4 then setIndex buf 4 flags
  else if i ≤ 8 then setIndex buf bufIndex 0
  else throw .internalError

def iterateConnectionHeader (payloadLen : Nat) (frameType flags : UInt8) (buf : List UInt8)
    (len : Nat) : Method FrameEncoder FrameEncoderErr (List UInt8) := do
  let e ← get
  fillRange (setConnectionHeaderByte payloadLen frameType flags e.encodedBytes) 0 len buf

def iterateSettingsHeader (frame : Frame) (buf : List UInt8) (payloadLen len : Nat) :
    Method FrameEncoder FrameEncoderErr (List UInt8) :=
  iterateConnectionHeader payloadLen FrameType.settings.code frame.flags.bits buf len

def iteratePingHeader (frame : Frame) (buf : List UInt8) (len : Nat) :
    Method FrameEncoder FrameEncoderErr (List UInt8) :=
  iterateConnectionHeader 8 FrameType.ping.code frame.flags.bits buf len

/-- A header writer: what fits of the header is written, and after the last byte of it the
payload is next. `reset` starts the count of the written bytes again. -/
def encodeHeader (iterate : Nat → Method FrameEncoder FrameEncoderErr (List UInt8))
    (next : FrameEncoderState) (reset : Bool) (room : Nat) : Writer := do
  let bytesToWrite := headerBytesToWrite (← get).encodedBytes room
  let buf ← iterate bytesToWrite
  advance bytesToWrite
  if (← get).encodedBytes = frameHeaderSize then
    modify fun e => { e with encodedBytes := if reset then 0 else e.encodedBytes, state := next }
  return (buf, bytesToWrite)

def encodeDataHeader (buf : List UInt8) : Writer := do
  let frame ← tryRetrieveCurrentFrame
  match frame.payload with
  | .data _ =>
    let e ← get
    let payloadLen := min e.remainingPayloadBytes e.maxFrameSize
    encodeHeader (iterateDataHeader frame buf payloadLen) .encodingDataPayload true buf.length
  | _ => throw .unexpectedPayloadType

def encodeGoawayFrame (buf : List UInt8) : Writer := do
  let frame ← tryRetrieveCurrentFrame
  match frame.payload with
  | .goaway goaway =>
    encodeHeader (iterateGoawayHeader frame goaway buf) .encodingGoawayPayload false buf.length
  | _ => throw .unexpectedPayloadType

def encodeWindowUpdateFrame (buf : List UInt8) : Writer := do
  let frame ← tryRetrieveCurrentFrame
  match frame.payload with
  | .windowUpdate _ =>
    encodeHeader (iterateWindowUpdateHeader frame buf) .encodingWindowUpdatePayload true buf.length
  | _ => throw .unexpectedPayloadType

def encodeSettingsFrame (buf : List UInt8) : Writer := do
  let frame ← tryRetrieveCurrentFrame
  match frame.payload with
  | .settings settings =>
    encodeHeader (iterateSettingsHeader frame buf (settings.length * 6)) .encodingSettingsPayload
      false buf.length
  | _ => throw .unexpectedPayloadType

def encodePriorityFrame (buf : List UInt8) : Writer := do
  let frame ← tryRetrieveCurrentFrame
  match frame.payload with
  | .priority _ => encodeHeader (iteratePriorityHeader frame buf) .encodingPriorityPayload false buf.length
  | _ => throw .unexpectedPayloadType

def encodePingFrame (buf : List UInt8) : Writer := do
  let frame ← tryRetrieveCurrentFrame
  match frame.payload with
  | .ping _ => encodeHeader (iteratePingHeader frame buf) .encodingPingPayload false buf.length
  | _ => throw .unexpectedPayloadType

/-- The length and the stream id go by the index into the buffer. -/
def rstStreamHeaderByte (frame : Frame) (encodedBytes bufIndex : Nat) : Method FrameEncoder FrameEncoderErr UInt8 :=
  let i := encodedBytes + bufIndex
  if i ≤ 2 then pure (octet24 4 bufIndex)
  else if i = 3 then pure FrameType.rstStream.code
  else if i = 4 then pure frame.flags.bits
  else if i ≤ 8 then do
    let streamIdByteIndex ← checkedSub bufIndex 5
    return octet32 frame.id streamIdByteIndex
  else throw .internalError

def encodeRstStreamFrame (buf : List UInt8) : Writer := do
  let frame ← tryRetrieveCurrentFrame
  let e ← get
  if frameHeaderSize ≤ e.encodedBytes then return (buf, 0)
  let bytesToWrite := min (frameHeaderSize - e.encodedBytes) buf.length
  let buf ← fillItems (rstStreamHeaderByte frame e.encodedBytes) 0 bytesToWrite buf
  advance bytesToWrite
  if (← get).encodedBytes = frameHeaderSize then setState .encodingRstStreamPayload
  return (buf, bytesToWrite)

/-! ### Payloads -/

/-- The payload writers that end nine bytes and the payload after the start of the frame. -/
def encodePayload (payloadSize : Nat)
    (iterate : Nat → Method FrameEncoder FrameEncoderErr (List UInt8)) (room : Nat) : Writer := do
  let remainingPayloadBytes := payloadSize - ((← get).encodedBytes - 9)
  let bytesToWrite := min remainingPayloadBytes room
  let buf ← iterate bytesToWrite
  advance bytesToWrite
  if (← get).encodedBytes = 9 + payloadSize then setState .dataComplete
  return (buf, bytesToWrite)

/-- The byte of a GOAWAY payload at an index. -/
def goawayByte (goaway : Goaway) (i : Nat) : Method FrameEncoder FrameEncoderErr UInt8 :=
  if i ≤ 3 then pure (octet32 goaway.lastStreamId i)
  else if i ≤ 7 then pure (octet32 goaway.errorCode (i - 4))
  else
    match goaway.debugData[i - 8]? with
    | some x => pure x
    | none => throw .internalError

def iterateGoawayPayload (goaway : Goaway) (buf : List UInt8) (len : Nat) :
    Method FrameEncoder FrameEncoderErr (List UInt8) := do
  let e ← get
  fillItems (fun bufIndex => do
    let start ← checkedSub e.encodedBytes 9
    goawayByte goaway (start + bufIndex)) 0 len buf

def encodeGoawayPayload (buf : List UInt8) : Writer := do
  let frame ← tryRetrieveCurrentFrame
  match frame.payload with
  | .goaway goaway => encodePayload goaway.encodedLen (iterateGoawayPayload goaway buf) buf.length
  | _ => throw .unexpectedPayloadType

/-- The identifier and the value of a setting. -/
def settingPair : Setting → Nat × UInt32
  | .headerTableSize v => (0x1, v)
  | .enablePush v => (0x2, if v then 1 else 0)
  | .maxConcurrentStreams v => (0x3, v)
  | .initialWindowSize v => (0x4, v)
  | .maxFrameSize v => (0x5, v)
  | .maxHeaderListSize v => (0x6, v)

/-- The byte of a SETTINGS payload at an index. -/
def settingsByte (settings : List Setting) (i : Nat) : Method FrameEncoder FrameEncoderErr UInt8 :=
  match settings[i / 6]? with
  | some setting =>
    let settingByteIndex := i % 6
    if settingByteIndex ≤ 1 then pure (octet16 (settingPair setting).1 settingByteIndex)
    else pure (octet32 (settingPair setting).2 (settingByteIndex - 2))
  | none => throw .internalError

def iterateSettingsPayload (settings : List Setting) (buf : List UInt8) (len : Nat) :
    Method FrameEncoder FrameEncoderErr (List UInt8) := do
  let e ← get
  fillItems (fun bufIndex => do
    let start ← checkedSub e.encodedBytes 9
    settingsByte settings (start + bufIndex)) 0 len buf

def encodeSettingsPayload (buf : List UInt8) : Writer := do
  let frame ← tryRetrieveCurrentFrame
  match frame.payload with
  | .settings settings =>
    encodePayload (settings.length * 6) (iterateSettingsPayload settings buf) buf.length
  | _ => throw .unexpectedPayloadType

def encodePingPayload (buf : List UInt8) : Writer := do
  let frame ← tryRetrieveCurrentFrame
  match frame.payload with
  | .ping ping =>
    let e ← get
    encodePayload 8
      (fun len => fillItems (fun bufIndex => index ping.data (e.encodedBytes - 9 + bufIndex)) 0 len buf)
      buf.length
  | _ => throw .unexpectedPayloadType

/-- The byte of a PRIORITY payload at an index. -/
def priorityByte (priority : Priority) (i : Nat) : Method FrameEncoder FrameEncoderErr UInt8 :=
  if i = 0 then
    pure ((priority.exclusive.toUInt8 <<< 7) ||| (octet32 priority.streamDependency 0 &&& 0x7F))
  else if i ≤ 3 then pure (octet32 priority.streamDependency i)
  else if i = 4 then pure priority.weight
  else throw .internalError

def encodePriorityPayload (buf : List UInt8) : Writer := do
  let frame ← tryRetrieveCurrentFrame
  match frame.payload with
  | .priority priority =>
    let e ← get
    let encodedPayloadBytes ← checkedSub e.encodedBytes frameHeaderSize
    let remainingPayloadBytes ← checkedSub 5 encodedPayloadBytes
    let bytesToWrite := min remainingPayloadBytes buf.length
    let buf ← fillItems (fun bufIndex =>
      priorityByte priority (e.encodedBytes - frameHeaderSize + bufIndex)) 0 bytesToWrite buf
    advance bytesToWrite
    if (← get).encodedBytes = frameHeaderSize + 5 then setState .dataComplete
    return (buf, bytesToWrite)
  | _ => throw .unexpectedPayloadType

def encodeRstStreamPayload (buf : List UInt8) : Writer := do
  let frame ← tryRetrieveCurrentFrame
  match frame.payload with
  | .rstStream errorCode =>
    let e ← get
    if e.encodedBytes < frameHeaderSize then return (buf, 0)
    let encodedPayloadBytes := e.encodedBytes - frameHeaderSize
    if 4 ≤ encodedPayloadBytes then return (buf, 0)
    let bytesToWrite := min (4 - encodedPayloadBytes) buf.length
    let buf ← fillItems (fun bufIndex => pure (octet32 errorCode (encodedPayloadBytes + bufIndex)))
      0 bytesToWrite buf
    advance bytesToWrite
    if (← get).encodedBytes = frameHeaderSize + 4 then setState .dataComplete
    return (buf, bytesToWrite)
  | _ => throw .unexpectedPayloadType

/-- The byte of a WINDOW_UPDATE payload at an index. -/
def windowUpdateByte (increment : UInt32) (i : Nat) : Method FrameEncoder FrameEncoderErr UInt8 := do
  let shift ← checkedSub 24 (8 * i)
  return (increment >>> UInt32.ofNat shift).toUInt8

/-- The count of the written bytes has started again after the header, but the index into
the payload is taken as if it had not. -/
def encodeWindowUpdatePayload (buf : List UInt8) : Writer := do
  let frame ← tryRetrieveCurrentFrame
  match frame.payload with
  | .windowUpdate increment =>
    let e ← get
    let payloadSize := 4
    let remainingPayloadBytes := payloadSize - (e.encodedBytes - 9)
    let bytesToWrite := min remainingPayloadBytes buf.length
    let buf ← fillItems (fun bufIndex => windowUpdateByte increment (e.encodedBytes - 9 + bufIndex))
      0 bytesToWrite buf
    advance bytesToWrite
    if (← get).encodedBytes = payloadSize then setState .dataComplete
    return (buf, bytesToWrite)
  | _ => throw .unexpectedPayloadType

def encodeSlice (buf data : List UInt8) : Writer := do
  let e ← get
  let start := e.dataOffset
  let allowToWrite := min (← checkedSub e.maxFrameSize start) e.remainingPayloadBytes
  let bytesToWrite := min allowToWrite buf.length
  let buf ← copyFromSlice buf (← slice data start (start + bytesToWrite))
  return (buf, bytesToWrite)

def encodeDataPayload (buf : List UInt8) : Writer := do
  let frame ← tryRetrieveCurrentFrame
  match frame.payload with
  | .data data =>
    let (buf, writtenBytes) ← encodeSlice buf data
    let e ← get
    let remainingPayloadBytes ← checkedSub e.remainingPayloadBytes writtenBytes
    let dataOffset := e.dataOffset + writtenBytes
    modify fun e => { e with dataOffset := dataOffset, remainingPayloadBytes := remainingPayloadBytes }
    if remainingPayloadBytes = 0 then
      modify fun e => { e with dataOffset := 0, state := .dataComplete }
    else if dataOffset = e.maxFrameSize then
      modify fun e => { e with dataOffset := 0, state := .encodingDataHeader }
    else setState .encodingDataPayload
    return (buf, writtenBytes)
  | _ => throw .unexpectedPayloadType

/-- `set_frame` never enters the states for padding. -/
def encodePadding (buf : List UInt8) : Writer := do
  let frame ← tryRetrieveCurrentFrame
  if frame.flags.isPadded then
    match frame.payload with
    | .data data =>
      let remainingPaddingBytes ← checkedSub data.length (← get).encodedBytes
      let bytesToWrite := min remainingPaddingBytes buf.length
      let buf ← fillItems (fun _ => pure 0) 0 bytesToWrite buf
      advance bytesToWrite
      if (← get).encodedBytes = data.length then setState .dataComplete
      return (buf, bytesToWrite)
    | _ => throw .unexpectedPayloadType
  else return (buf, 0)

/-! ### Header blocks -/

def writePayload (buf : List UInt8) (payloadLen : Nat) : Writer := do
  let e ← get
  let bytesToWrite := min buf.length (← checkedSub payloadLen e.headerPayloadIndex)
  let buf ← copyFromSlice buf
    (← slice e.headerPayloadBuffer.bytes e.headerPayloadIndex (e.headerPayloadIndex + bytesToWrite))
  modify fun e => { e with headerPayloadIndex := e.headerPayloadIndex + bytesToWrite }
  return (buf, bytesToWrite)

def headersHeaderStatus : Method FrameEncoder FrameEncoderErr Unit := do
  let e ← get
  if e.headerPayloadIndex < e.remainingHeaderPayload then setState .encodingHeadersPayload
  else if e.hpackEncoder.isFinished then
    finishCurrentFrame
    setState .headersComplete
  else
    readRestPayload
    setState .encodingContinuationFrames

def encodeHeadersFrame (buf : List UInt8) : Writer := do
  let frame ← tryRetrieveCurrentFrame
  match frame.payload with
  | .headers _ =>
    let bytesWritten := headerBytesToWrite (← get).encodedBytes buf.length
    let buf ← iterateHeadersHeader frame buf bytesWritten
    advance bytesWritten
    let e ← get
    if frameHeaderSize ≤ e.encodedBytes then
      let (rest, payloadBytesWritten) ←
        writePayload (← sliceFrom buf bytesWritten) e.remainingHeaderPayload
      advance payloadBytesWritten
      headersHeaderStatus
      return (buf.take bytesWritten ++ rest, bytesWritten + payloadBytesWritten)
    else return (buf, bytesWritten)
  | _ => throw .unexpectedPayloadType

def encodeHeadersPayload (buf : List UInt8) : Writer := do
  let frame ← tryRetrieveCurrentFrame
  match frame.payload with
  | .headers _ =>
    if buf.isEmpty then return (buf, 0)
    let (buf, payloadBytesWritten) ← writePayload buf (← get).remainingHeaderPayload
    advance payloadBytesWritten
    headersHeaderStatus
    return (buf, payloadBytesWritten)
  | _ => throw .unexpectedPayloadType

/-- The header of a CONTINUATION frame, in a buffer with room for it. -/
def writeContinuationHeader (id : StreamId) (continuationFrameLen : Nat) (flags : FrameFlags)
    (buf : List UInt8) : Method FrameEncoder FrameEncoderErr (List UInt8) := do
  let buf ← fillItems (fun i => pure (octet24 continuationFrameLen i)) 0 3 buf
  let buf ← setIndex buf 3 FrameType.continuation.code
  let buf ← setIndex buf 4 flags.bits
  fillRange (fun i buf => setIndex buf (5 + i) (octet32 id i)) 0 4 buf

def encodeContinuationFrames (buf : List UInt8) : Writer := do
  let frame ← tryRetrieveCurrentFrame
  match frame.payload with
  | .headers _ =>
    if buf.length < frameHeaderSize then return (buf, 0)
    let e ← get
    let continuationFrameLen := min e.remainingHeaderPayload e.maxFrameSize
    let flags :=
      if e.remainingHeaderPayload ≤ e.maxFrameSize ∧ e.hpackEncoder.isFinished ∧ e.isEndHeaders then
        FrameFlags.empty.setEndHeaders true
      else FrameFlags.empty
    let buf ← writeContinuationHeader frame.id continuationFrameLen flags buf
    let (rest, payloadBytesWritten) ←
      writePayload (← sliceFrom buf frameHeaderSize) continuationFrameLen
    advance payloadBytesWritten
    headersHeaderStatus
    return (buf.take frameHeaderSize ++ rest, frameHeaderSize + payloadBytesWritten)
  | _ => throw .unexpectedPayloadType

/-! ### The state machine -/

/-- The writer of a state. -/
def encodeState (state : FrameEncoderState) (buf : List UInt8) : Writer :=
  match state with
  | .idle | .headersComplete | .dataComplete => return (buf, 0)
  | .encodingHeadersFrame => encodeHeadersFrame buf
  | .encodingHeadersPayload => encodeHeadersPayload buf
  | .encodingHeadersPadding => encodePadding buf
  | .encodingContinuationFrames => encodeContinuationFrames buf
  | .encodingDataHeader => encodeDataHeader buf
  | .encodingDataPayload => encodeDataPayload buf
  | .encodingDataPadding => encodePadding buf
  | .encodingSettingsFrame => encodeSettingsFrame buf
  | .encodingSettingsPayload => encodeSettingsPayload buf
  | .encodingGoawayFrame => encodeGoawayFrame buf
  | .encodingGoawayPayload => encodeGoawayPayload buf
  | .encodingWindowUpdateFrame => encodeWindowUpdateFrame buf
  | .encodingWindowUpdatePayload => encodeWindowUpdatePayload buf
  | .encodingPriorityFrame => encodePriorityFrame buf
  | .encodingPriorityPayload => encodePriorityPayload buf
  | .encodingRstStreamFrame => encodeRstStreamFrame buf
  | .encodingRstStreamPayload => encodeRstStreamPayload buf
  | .encodingPingFrame => encodePingFrame buf
  | .encodingPingPayload => encodePingPayload buf

/-- The loop of `encode` on what is left of the buffer. It goes on as long as the writers
change the state and there is room, and a writer that changes the state writes a byte or
completes the frame. -/
def encodeLoop : Nat → List UInt8 → List UInt8 → Writer
  | 0, _, _ => Method.panicked
  | fuel + 1, written, buf => do
    let state := (← get).state
    if buf.isEmpty ∨ state.isComplete then return (written ++ buf, written.length)
    let (buf, bytes) ← encodeState state buf
    if (← get).state = state then return (written ++ buf, written.length + bytes)
    else encodeLoop fuel (written ++ buf.take bytes) (buf.drop bytes)

def encode (buf : List UInt8) : Writer := encodeLoop (buf.length + 2) [] buf

/-! ### Driving the encoder -/

/-- The bytes that calls of `encode` write, one call for each buffer. -/
def encodeAll : List (List UInt8) → Method FrameEncoder FrameEncoderErr (List UInt8)
  | [] => return []
  | buf :: bufs => do
    let (buf, bytes) ← encode buf
    let rest ← encodeAll bufs
    return buf.take bytes ++ rest

def produce (frame : Frame) (bufs : List (List UInt8)) : Method FrameEncoder FrameEncoderErr (List UInt8) := do
  setFrame frame
  encodeAll bufs

end FrameEncoder

end YlongHttp.H2
