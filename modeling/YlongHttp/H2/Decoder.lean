/-
The frame decoder (`h2/decoder.rs`).

The decoder reads a header of nine bytes and then the payload that the header
announces. What it has of an unfinished header or payload is kept in `buffer`, and
`offset` is how much of it there is. An open header block is recorded in
`continuations`.

The decoder is modelled over any HPACK layer: `HpackLayer` are the two operations
that it calls, and the decoder of the source is the one over `HpackDecoder`.
-/

import YlongHttp.Codec.Octets
import YlongHttp.H2.Frame
import YlongHttp.H2.Hpack.Decoder

namespace YlongHttp.H2

open Rust Codec

def frameHeaderLength : Nat := 9
def defaultMaxFrameSize : Nat := 2 <<< 13
def maxAllowedMaxFrameSize : Nat := (2 <<< 23) - 1
def defaultHeaderTableSize : Nat := 4096
def defaultMaxHeaderListSize : Nat := 16 <<< 20
def maxInitialWindowSize : Nat := (1 <<< 31) - 1

/-- A header block that is not complete yet is reported as `partial_`. -/
inductive FrameKind where
  | complete (frame : Frame)
  | partial_

/-- A complete HEADERS frame. -/
def FrameKind.IsHeaders : FrameKind → Prop
  | .complete ⟨_, _, .headers _⟩ => True
  | _ => False

inductive Stage where
  | header
  | payload
deriving DecidableEq

structure FrameHeader where
  streamId : StreamId
  flags : UInt8
  frameType : UInt8
  payloadLength : Nat
deriving DecidableEq

namespace FrameHeader

def new : FrameHeader := ⟨0, 0, 0, 0⟩

def isEndStream (h : FrameHeader) : Bool := endStreamMask &&& h.flags == endStreamMask

def isPadded (h : FrameHeader) : Bool := paddedMask &&& h.flags == paddedMask

def isEndHeaders (h : FrameHeader) : Bool := endHeadersMask &&& h.flags == endHeadersMask

def isHeadersPriority (h : FrameHeader) : Bool :=
  headersPriorityMask &&& h.flags == headersPriorityMask

def isAck (h : FrameHeader) : Bool := ackMask &&& h.flags == ackMask

/-- The frame with this header. -/
def frame (h : FrameHeader) (payload : Payload) : FrameKind :=
  .complete ⟨h.streamId, ⟨h.flags⟩, payload⟩

end FrameHeader

structure Continuations where
  flags : UInt8
  isEndStream : Bool
  streamId : StreamId
  isEndHeaders : Bool
  promisedStreamId : StreamId
deriving DecidableEq

def Continuations.new : Continuations := ⟨0, false, 0, true, 0⟩

/-! ### The HPACK layer -/

class HpackLayer (H : Type) where
  hpackDecode : List UInt8 → Method H H2Error Unit
  hpackFinish : Method H H2Error Parts

instance : HpackLayer Hpack.HpackDecoder where
  hpackDecode buf := Hpack.HpackDecoder.decode buf
  hpackFinish := Hpack.HpackDecoder.finish

structure FrameDecoder (H : Type) where
  buffer : List UInt8
  offset : Nat
  maxFrameSize : Nat
  stage : Stage
  header : FrameHeader
  hpack : H
  continuations : Continuations

namespace FrameDecoder

def new : FrameDecoder Hpack.HpackDecoder where
  buffer := []
  offset := 0
  maxFrameSize := defaultMaxFrameSize
  stage := .header
  header := .new
  hpack := .withMaxSize defaultHeaderTableSize defaultMaxHeaderListSize
  continuations := .new

def setMaxFrameSize (size : UInt32) : Method (FrameDecoder Hpack.HpackDecoder) H2Error Unit := do
  if ¬ (defaultMaxFrameSize ≤ size.toNat ∧ size.toNat ≤ maxAllowedMaxFrameSize) then
    throw (.connectionError .protocolError)
  modify fun d => { d with maxFrameSize := size.toNat }

def setMaxHeaderListSize (size : Nat) : Method (FrameDecoder Hpack.HpackDecoder) H2Error Unit :=
  modify fun d => { d with hpack := { d.hpack with headerListSize := size } }

/-- A new decoder with its settings made. -/
def configured (maxFrameSize : UInt32) (maxHeaderListSize : Nat) :
    Outcome (FrameDecoder Hpack.HpackDecoder) H2Error Unit :=
  (do
    setMaxFrameSize maxFrameSize
    setMaxHeaderListSize maxHeaderListSize : Method (FrameDecoder Hpack.HpackDecoder) H2Error Unit) new

end FrameDecoder

/-! ### Reading words -/

section Words

variable {σ : Type}

def isConnectionFrame (id : StreamId) : Bool := id == 0

def getStreamId (token : List UInt8) : Method σ H2Error StreamId := do
  return be32 ((← index token 0) &&& 0x7f) (← index token 1) (← index token 2) (← index token 3)

def getCodeValue (token : List UInt8) : Method σ H2Error UInt32 := do
  return be32 (← index token 0) (← index token 1) (← index token 2) (← index token 3)

def getSetting (id : UInt16) (value : UInt32) : Method σ H2Error (Option Setting) :=
  match id with
  | 1 => return some (.headerTableSize value)
  | 2 =>
    match value with
    | 0 => return some (.enablePush false)
    | 1 => return some (.enablePush true)
    | _ => throw (.connectionError .protocolError)
  | 3 => return some (.maxConcurrentStreams value)
  | 4 =>
    if value.toNat > maxInitialWindowSize then throw (.connectionError .flowControlError)
    else return some (.initialWindowSize value)
  | 5 =>
    if ¬ (defaultMaxFrameSize ≤ value.toNat ∧ value.toNat ≤ maxAllowedMaxFrameSize) then
      throw (.connectionError .protocolError)
    else return some (.maxFrameSize value)
  | 6 => return some (.maxHeaderListSize value)
  | _ => return none

def splitTokenToSetting (token : List UInt8) : Method σ H2Error (Option Setting) := do
  let id := be16 (← index token 0) (← index token 1)
  let value ← getCodeValue (← slice token 2 6)
  getSetting id value

/-- The settings of the chunks of six bytes; the last chunk may be shorter. -/
def splitSettings : List UInt8 → Method σ H2Error (List Setting)
  | [] => return []
  | a :: b :: c :: d :: e :: f :: rest => do
    let setting ← splitTokenToSetting [a, b, c, d, e, f]
    let settings ← splitSettings rest
    return setting.toList ++ settings
  | chunk => do
    let setting ← splitTokenToSetting chunk
    return setting.toList

end Words

namespace FrameDecoder

variable {H : Type} [HpackLayer H]

/-! ### Access to the components -/

def getHeader : Method (FrameDecoder H) H2Error FrameHeader := fun d => .ok d.header d

def getContinuations : Method (FrameDecoder H) H2Error Continuations := fun d =>
  .ok d.continuations d

def setContinuations (c : Continuations) : Method (FrameDecoder H) H2Error Unit :=
  modify fun d => { d with continuations := c }

def hpackDecode (buf : List UInt8) : Method (FrameDecoder H) H2Error Unit :=
  Method.onField (·.hpack) (fun h d => { d with hpack := h }) (HpackLayer.hpackDecode buf)

def hpackFinish : Method (FrameDecoder H) H2Error Parts :=
  Method.onField (·.hpack) (fun h d => { d with hpack := h }) HpackLayer.hpackFinish

/-- The bytes of a payload whose last part has come. -/
def mergeBuffer (buf : List UInt8) : Method (FrameDecoder H) H2Error (List UInt8) := fun d =>
  if d.offset ≠ 0 then
    .ok (d.buffer ++ buf) { d with buffer := d.buffer ++ buf, offset := d.offset + buf.length }
  else .ok buf d

/-! ### Payloads -/

def decodePingPayload (buf : List UInt8) : Method (FrameDecoder H) H2Error FrameKind := do
  let header ← getHeader
  if !isConnectionFrame header.streamId then throw (.connectionError .protocolError)
  let buf ← mergeBuffer buf
  if h : header.payloadLength = 8 ∧ buf.length = 8 then
    return header.frame (.ping ⟨buf, h.2⟩)
  else throw (.connectionError .frameSizeError)

/-- The length is checked before the buffered part is taken into account. -/
def decodePriorityPayload (buf : List UInt8) : Method (FrameDecoder H) H2Error FrameKind := do
  let header ← getHeader
  if isConnectionFrame header.streamId then throw (.connectionError .protocolError)
  if header.payloadLength ≠ 5 ∨ buf.length ≠ 5 then
    throw (.streamError header.streamId .frameSizeError)
  let buf ← mergeBuffer buf
  let exclusive := (← index buf 0) &&& 0x80 == 0x80
  let streamDependency ← getStreamId (← sliceTo buf 4)
  let weight ← index buf 4
  return header.frame (.priority ⟨exclusive, streamDependency, weight⟩)

def decodeGoawayPayload (buf : List UInt8) : Method (FrameDecoder H) H2Error FrameKind := do
  let header ← getHeader
  if !isConnectionFrame header.streamId then throw (.connectionError .protocolError)
  let buf ← mergeBuffer buf
  if header.payloadLength < 8 ∨ buf.length < 8 then throw (.connectionError .frameSizeError)
  let lastStreamId ← getStreamId (← sliceTo buf 4)
  let errorCode ← getCodeValue (← slice buf 4 8)
  let debugData ← sliceFrom buf 8
  return header.frame (.goaway ⟨errorCode, lastStreamId, debugData⟩)

def decodeWindowUpdatePayload (buf : List UInt8) : Method (FrameDecoder H) H2Error FrameKind := do
  let header ← getHeader
  let buf ← mergeBuffer buf
  if header.payloadLength ≠ 4 ∨ buf.length ≠ 4 then throw (.connectionError .frameSizeError)
  let incrementSize :=
    be32 (0x7f &&& (← index buf 0)) (← index buf 1) (← index buf 2) (← index buf 3)
  if incrementSize = 0 then throw (.streamError header.streamId .protocolError)
  return header.frame (.windowUpdate incrementSize)

def decodeResetPayload (buf : List UInt8) : Method (FrameDecoder H) H2Error FrameKind := do
  let header ← getHeader
  if isConnectionFrame header.streamId then throw (.connectionError .protocolError)
  let buf ← mergeBuffer buf
  if header.payloadLength ≠ 4 ∨ buf.length ≠ 4 then throw (.connectionError .frameSizeError)
  let code ← getCodeValue (← sliceTo buf 4)
  return header.frame (.rstStream code)

def decodeSettingsPayload (buf : List UInt8) : Method (FrameDecoder H) H2Error FrameKind := do
  let header ← getHeader
  if !isConnectionFrame header.streamId then throw (.connectionError .protocolError)
  let buf ← mergeBuffer buf
  if header.payloadLength % 6 ≠ 0 then throw (.connectionError .frameSizeError)
  if header.isAck then
    if header.payloadLength ≠ 0 ∨ !buf.isEmpty then throw (.connectionError .frameSizeError)
    return header.frame (.settings [])
  else
    let settings ← splitSettings buf
    return header.frame (.settings settings)

def decodeDataPayload (buf : List UInt8) : Method (FrameDecoder H) H2Error FrameKind := do
  let header ← getHeader
  if isConnectionFrame header.streamId then throw (.connectionError .protocolError)
  let buf ← mergeBuffer buf
  if header.payloadLength = 0 then
    return header.frame (.data [])
  else if header.isPadded then
    let paddedLength := (← index buf 0).toNat
    if header.payloadLength ≤ paddedLength then throw (.connectionError .protocolError)
    let dataEndIndex ← checkedSub header.payloadLength paddedLength
    let data ← slice buf 1 dataEndIndex
    return header.frame (.data data)
  else
    let data ← sliceTo buf header.payloadLength
    return header.frame (.data data)

def decodeContinuationPayload (buf : List UInt8) : Method (FrameDecoder H) H2Error FrameKind := do
  let header ← getHeader
  if isConnectionFrame header.streamId then throw (.connectionError .protocolError)
  let buf ← mergeBuffer buf
  if header.isEndHeaders then
    hpackDecode buf
    let parts ← hpackFinish
    let c ← getContinuations
    setContinuations .new
    return .complete ⟨c.streamId, ⟨c.flags⟩,
      if c.promisedStreamId ≠ 0 then .pushPromise c.promisedStreamId parts else .headers parts⟩
  else
    hpackDecode buf
    return .partial_

/-- Where the fragment of a padded or unpadded payload starts and ends, if the payload
has `start` bytes in front of the fragment. -/
def fragmentBounds (header : FrameHeader) (buf : List UInt8) (start : Nat) :
    Method (FrameDecoder H) H2Error (Nat × Nat) := do
  if header.isPadded then
    let paddedLength := (← index buf 0).toNat
    if header.payloadLength ≤ paddedLength then throw (.connectionError .protocolError)
    let stop ← checkedSub header.payloadLength paddedLength
    return (start + 1, stop)
  else return (start, header.payloadLength)

def decodeHeadersPayload (buf : List UInt8) : Method (FrameDecoder H) H2Error FrameKind := do
  let header ← getHeader
  if isConnectionFrame header.streamId then throw (.connectionError .protocolError)
  let buf ← mergeBuffer buf
  let (start, stop) ← fragmentBounds header buf 0
  let start := if header.isHeadersPriority then start + 5 else start
  if start > stop then throw (.connectionError .protocolError)
  if header.isEndHeaders then
    hpackDecode (← slice buf start stop)
    let parts ← hpackFinish
    return header.frame (.headers parts)
  else
    let c ← getContinuations
    setContinuations { c with
      flags := header.flags
      isEndStream := header.isEndStream
      isEndHeaders := false
      streamId := header.streamId }
    hpackDecode (← slice buf start stop)
    return .partial_

def pushPromiseFraming (endHeaders : Bool) (promisedStreamId : StreamId) :
    Method (FrameDecoder H) H2Error FrameKind := do
  let header ← getHeader
  if endHeaders then
    let parts ← hpackFinish
    return header.frame (.pushPromise promisedStreamId parts)
  else
    let c ← getContinuations
    setContinuations { c with
      flags := header.flags
      isEndHeaders := false
      streamId := header.streamId
      promisedStreamId := promisedStreamId }
    return .partial_

/-- The whole payload goes to the HPACK layer. -/
def decodePushPromisePayload (buf : List UInt8) : Method (FrameDecoder H) H2Error FrameKind := do
  let header ← getHeader
  if isConnectionFrame header.streamId then throw (.connectionError .protocolError)
  let buf ← mergeBuffer buf
  let (start, stop) ← fragmentBounds header buf 4
  if start > stop then throw (.connectionError .protocolError)
  hpackDecode buf
  let promisedStreamId ←
    if header.isPadded then getStreamId (← slice buf 1 5) else getStreamId (← sliceTo buf 4)
  if isConnectionFrame promisedStreamId then throw (.connectionError .protocolError)
  pushPromiseFraming header.isEndHeaders promisedStreamId

/-- The decoder of the payloads of a frame type. -/
def payloadDecoder (frameType : UInt8) (buf : List UInt8) : Method (FrameDecoder H) H2Error FrameKind :=
  match frameType with
  | 0 => decodeDataPayload buf
  | 1 => decodeHeadersPayload buf
  | 2 => decodePriorityPayload buf
  | 3 => decodeResetPayload buf
  | 4 => decodeSettingsPayload buf
  | 5 => decodePushPromisePayload buf
  | 6 => decodePingPayload buf
  | 7 => decodeGoawayPayload buf
  | 8 => decodeWindowUpdatePayload buf
  | 9 => decodeContinuationPayload buf
  | _ => throw (.connectionError .protocolError)

/-! ### Frames -/

/-- Keep bytes until more come. -/
def keep (buf : List UInt8) : Method (FrameDecoder H) H2Error Unit :=
  modify fun d => { d with offset := d.offset + buf.length, buffer := d.buffer ++ buf }

def clearBuffer : Method (FrameDecoder H) H2Error Unit :=
  modify fun d => if d.offset ≠ 0 then { d with offset := 0, buffer := [] } else d

def decodeFramePayload (buf : List UInt8) : Method (FrameDecoder H) H2Error (Option (List UInt8 × FrameKind)) := do
  let d ← get
  if !d.continuations.isEndHeaders ∧ (d.header.streamId ≠ d.continuations.streamId ∨ d.header.frameType ≠ 9) then
    throw (.connectionError .protocolError)
  let frameEndIndex ← checkedSub d.header.payloadLength d.offset
  if buf.length < frameEndIndex then
    keep buf
    return none
  else
    let frame ← payloadDecoder d.header.frameType (← sliceTo buf frameEndIndex)
    modify fun d => { d with header := .new }
    clearBuffer
    let remain ← sliceFrom buf frameEndIndex
    return some (remain, frame)

/-- The fields of a header. -/
def readHeader (maxFrameSize : Nat) (headerBuffer : List UInt8) : Method (FrameDecoder H) H2Error FrameHeader := do
  let payloadLength :=
    be24 (← index headerBuffer 0) (← index headerBuffer 1) (← index headerBuffer 2)
  if payloadLength > maxFrameSize then throw (.connectionError .frameSizeError)
  let frameType ← index headerBuffer 3
  let flags ← index headerBuffer 4
  let streamId ← getStreamId (← slice headerBuffer 5 9)
  return ⟨streamId, flags, frameType, payloadLength⟩

/-- The bytes a header is read from: the buffered part is completed first. -/
def mergeHeader (buf : List UInt8) (payloadPos : Nat) : Method (FrameDecoder H) H2Error (List UInt8) := fun d =>
  if d.offset = 0 then .ok buf d
  else
    (do
      let part ← sliceTo buf payloadPos
      modify fun d => { d with buffer := d.buffer ++ part }
      return d.buffer ++ part : Method (FrameDecoder H) H2Error (List UInt8)) d

def decodeFrameHeader (buf : List UInt8) : Method (FrameDecoder H) H2Error (Option (List UInt8)) := do
  let d ← get
  let payloadPos ← checkedSub frameHeaderLength d.offset
  if buf.length < payloadPos then
    keep buf
    return none
  else
    let headerBuffer ← mergeHeader buf payloadPos
    let header ← readHeader d.maxFrameSize headerBuffer
    clearBuffer
    modify fun d => { d with header := header }
    let remain ← sliceFrom buf payloadPos
    return some remain

def setStage (stage : Stage) : Method (FrameDecoder H) H2Error Unit :=
  modify fun d => { d with stage := stage }

/-- The loop of `decode`. Every header takes at least one byte, so that it ends after
two rounds for each byte. -/
def decodeLoop : Nat → List UInt8 → List FrameKind → Method (FrameDecoder H) H2Error (List FrameKind)
  | 0, _, _ => Method.panicked
  | fuel + 1, buffer, frames => do
    match (← get).stage with
    | .header =>
      match ← decodeFrameHeader buffer with
      | some remain =>
        setStage .payload
        decodeLoop fuel remain frames
      | none => return frames
    | .payload =>
      match ← decodeFramePayload buffer with
      | some (remain, frame) =>
        setStage .header
        decodeLoop fuel remain (frames ++ [frame])
      | none => return frames

def decode (buf : List UInt8) : Method (FrameDecoder H) H2Error (List FrameKind) :=
  decodeLoop (2 * buf.length + 2) buf []

end FrameDecoder

end YlongHttp.H2
