/-
Streams of a connection (`util/h2/streams.rs`).

`Streams` holds the streams of a connection, the queues they wait in, and the windows of the
connection. A loop over the stream map goes over its keys in the order of the model's list;
the iteration order of a hash map is not specified. The queues are lists with the front first.
-/

import YlongHttp.Client.H2.Window
import YlongHttp.Rust.Poll

namespace YlongHttp.Client.H2

open YlongHttp.H2 Rust

inductive FrameRecvState where
  | ok
  | ignore
  | err (e : H2Error)
deriving DecidableEq

inductive DataReadState where
  | closed
  | pending
  | ready (frame : Frame)
  | finish (frame : Frame)

inductive StreamEndState where
  | ok
  | ignore
  | err (e : H2Error)
deriving DecidableEq

inductive CloseReason where
  | localRst
  | remoteRst
  | remoteGoAway
  | localGoAway
  | endStream
deriving DecidableEq

inductive ActiveState where
  | waitHeaders
  | waitData
deriving DecidableEq

inductive H2StreamState where
  | idle
  | opened (send recv : ActiveState)
  | reservedRemote
  | localHalfClosed (recv : ActiveState)
  | remoteHalfClosed (send : ActiveState)
  | closed (reason : CloseReason)
deriving DecidableEq

def H2StreamState.isClosed : H2StreamState → Bool
  | .closed _ => true
  | _ => false

/-- The body of a request (`BodyDataRef`), until it is cleared. What a read of it returns is up to
the caller that made the request. -/
structure BodyDataRef where
  present : Bool

/-- What a read of a request body gives: bytes, or an error (`none`). -/
abbrev BodyRead := Poll (Option (List UInt8))

namespace BodyDataRef

def clear : BodyDataRef := ⟨false⟩

/-- `poll_read` with a buffer of `len` bytes, if the reader answers `read`. -/
def pollRead (body : BodyDataRef) (len : Nat) (read : BodyRead) : BodyRead :=
  if body.present then read.map fun bytes => bytes.map (List.take len) else .ready (some [])

end BodyDataRef

/-- A frame with a HEADERS payload. -/
structure HeadersFrame where
  id : StreamId
  flags : FrameFlags
  parts : Parts

def HeadersFrame.toFrame (header : HeadersFrame) : Frame := ⟨header.id, header.flags, .headers header.parts⟩

structure Stream where
  recvWindow : RecvWindow
  sendWindow : SendWindow
  state : H2StreamState
  header : Option HeadersFrame
  data : BodyDataRef

namespace Stream

def new (recvWindow : RecvWindow) (sendWindow : SendWindow) (headers : HeadersFrame) (data : BodyDataRef) : Stream :=
  ⟨recvWindow, sendWindow, .idle, some headers, data⟩

def isInitOrActiveFlowControl (stream : Stream) : Bool :=
  match stream.state with
  | .idle => true
  | .opened _ .waitData => true
  | .localHalfClosed .waitData => true
  | _ => false

def onRecvWindow {α : Type} (m : Method RecvWindow Stop α) : Method Stream Stop α :=
  m.onField recvWindow fun w stream => { stream with recvWindow := w }

def onSendWindow {α : Type} (m : Method SendWindow Stop α) : Method Stream Stop α :=
  m.onField sendWindow fun w stream => { stream with sendWindow := w }

/-- The part of `release_stream_recv_window` that changes the stream. -/
def releaseRecvWindow (id : StreamId) (size : Nat) : Method Stream Stop (Option Frame) := do
  onRecvWindow (RecvWindow.recvData size)
  match ← onRecvWindow RecvWindow.unreleasedSize with
  | none => return none
  | some _ =>
    if (← get).isInitOrActiveFlowControl then
      onRecvWindow (RecvWindow.checkWindowUpdate id)
    else
      return none

/-- The stream after it is closed for `reason`, with nothing left to send. -/
def close (stream : Stream) (reason : CloseReason) : Stream :=
  { stream with state := .closed reason, header := none, data := .clear }

end Stream

abbrev StreamMap := AList fun _ : StreamId => Stream

structure Streams where
  maxSendId : StreamId
  maxRecvId : StreamId
  latestRemoteId : StreamId
  streamRecvWindowSize : Nat
  streamSendWindowSize : Nat
  maxConcurrentStreams : Nat
  currentConcurrentStreams : Nat
  flowControl : FlowControl
  pendingConcurrency : List StreamId
  pendingStreamWindow : List StreamId
  pendingConnWindow : List StreamId
  pendingSend : List StreamId
  streamMap : StreamMap
  nextStreamId : StreamId

def defaultMaxStreamId : StreamId := 0x7fffffff

namespace Streams

def new (recvWindowSize sendWindowSize : Nat) (flowControl : FlowControl) : Streams where
  maxSendId := 0x7fffffff
  maxRecvId := 0x7fffffff
  latestRemoteId := 0
  streamRecvWindowSize := recvWindowSize
  streamSendWindowSize := sendWindowSize
  maxConcurrentStreams := 100
  currentConcurrentStreams := 0
  flowControl := flowControl
  pendingConcurrency := []
  pendingStreamWindow := []
  pendingConnWindow := []
  pendingSend := []
  streamMap := ∅
  nextStreamId := 1

/-! ### Access to the parts -/

def onFlowControl {α : Type} (m : Method FlowControl Stop α) : Method Streams Stop α :=
  m.onField flowControl fun flow streams => { streams with flowControl := flow }

def setStream (id : StreamId) (stream : Stream) (streams : Streams) : Streams :=
  { streams with streamMap := streams.streamMap.insert id stream }

/-- Run a method of the stream that was found under `id`. -/
def onStream {α : Type} (id : StreamId) (stream : Stream) (m : Method Stream Stop α) :
    Method Streams Stop α := fun streams =>
  (m stream).mapState fun stream' => streams.setStream id stream'

/-- A loop over the stream map that changes each stream. -/
def forStreams (m : Method Stream Stop Unit) : Method Streams Stop Unit := do
  (← get).streamMap.keys.forM fun id => do
    match (← get).streamMap.lookup id with
    | some stream => onStream id stream m
    | none => pure ()

/-! ### Concurrency -/

def decreaseCurrentConcurrency : Method Streams Stop Unit := do
  let streams ← get
  if streams.currentConcurrentStreams = 0 then throw (.overflow .concurrency)
  set { streams with currentConcurrentStreams := streams.currentConcurrentStreams - 1 }

def increaseCurrentConcurrency (streams : Streams) : Streams :=
  { streams with currentConcurrentStreams := streams.currentConcurrentStreams + 1 }

def reachMaxConcurrency (streams : Streams) : Bool :=
  streams.maxConcurrentStreams ≤ streams.currentConcurrentStreams

def applyMaxConcurrentStreams (num : Nat) (streams : Streams) : Streams :=
  { streams with maxConcurrentStreams := num }

def pushBackPendingSend (id : StreamId) (streams : Streams) : Streams :=
  { streams with pendingSend := streams.pendingSend ++ [id] }

def pushPendingConcurrency (id : StreamId) (streams : Streams) : Streams :=
  { streams with pendingConcurrency := streams.pendingConcurrency ++ [id] }

/-- The loop of `try_consume_pending_concurrency` over the streams that wait. -/
def consumePending : List StreamId → Streams → Streams
  | [], streams => streams
  | id :: ids, streams =>
    if streams.reachMaxConcurrency then streams
    else consumePending ids
      (({ streams with pendingConcurrency := ids }.increaseCurrentConcurrency).pushBackPendingSend id)

def tryConsumePendingConcurrency (streams : Streams) : Streams :=
  consumePending streams.pendingConcurrency streams

/-! ### Windows -/

def applySendInitialWindowSize (size : Nat) : Method Streams Stop Unit := do
  let current := (← get).streamSendWindowSize
  modify ({ · with streamSendWindowSize := size })
  if current < size then
    forStreams (Stream.onSendWindow (SendWindow.increaseSize (size - current)))
    modify fun streams =>
      { streams with pendingSend := streams.pendingSend ++ streams.pendingStreamWindow, pendingStreamWindow := [] }
  else if size < current then
    forStreams (Stream.onSendWindow (SendWindow.reduceSize (current - size)))

def applyRecvInitialWindowSize (size : Nat) : Method Streams Stop Unit := do
  let current := (← get).streamRecvWindowSize
  modify ({ · with streamRecvWindowSize := size })
  if current < size then
    forStreams (Stream.onRecvWindow (do
      RecvWindow.increaseNotification (size - current)
      RecvWindow.increaseActual (size - current)))
  else if size < current then
    forStreams (Stream.onRecvWindow (RecvWindow.reduceNotification (current - size)))

/-- `release_stream_recv_window`. The caller sends the frame that is returned. -/
def releaseStreamRecvWindow (id : StreamId) (size : Nat) : Method Streams Stop (Option Frame) := do
  match (← get).streamMap.lookup id with
  | none => return none
  | some stream =>
    if stream.recvWindow.notificationAvailable < size then throw (.stream id .flowControlError)
    onStream id stream (Stream.releaseRecvWindow id size)

/-- `release_conn_recv_window`. The caller sends the frame that is returned. -/
def releaseConnRecvWindow (size : Nat) : Method Streams Stop (Option Frame) := do
  if (← get).flowControl.recvNotificationSizeAvailable < size then throw (.connection .flowControlError)
  onFlowControl (do
    FlowControl.recvData size
    FlowControl.checkConnRecvWindowUpdate)

def increaseConnSendWindow (size : Nat) : Method Streams Stop Unit :=
  onFlowControl (FlowControl.increaseSendSize size)

def reassignConnSendWindow (streams : Streams) : Streams :=
  { streams with pendingSend := streams.pendingSend ++ streams.pendingConnWindow, pendingConnWindow := [] }

/-- A stream that waits for its window gets back into the queue. -/
def takePendingStreamWindow (id : StreamId) (streams : Streams) : Streams :=
  if id ∈ streams.pendingStreamWindow then
    { streams with pendingStreamWindow := streams.pendingStreamWindow.filter (· ≠ id) }.pushBackPendingSend id
  else streams

def reassignStreamSendWindow (id : StreamId) (size : Nat) : Method Streams Stop Unit := do
  match (← get).streamMap.lookup id with
  | some stream => onStream id stream (Stream.onSendWindow (SendWindow.increaseSize size))
  | none => pure ()
  modify (takePendingStreamWindow id)

/-! ### Requests -/

def isClosed (streams : Streams) : Bool := streams.streamMap.entries.all fun e => e.2.state.isClosed

def streamState (id : StreamId) (streams : Streams) : Option H2StreamState :=
  (streams.streamMap.lookup id).map Stream.state

def insert (id : StreamId) (headers : HeadersFrame) (data : BodyDataRef) (streams : Streams) : Streams :=
  streams.setStream id
    (.new (.new (asI32 streams.streamRecvWindowSize)) (.new (asI32 streams.streamSendWindowSize)) headers data)

def generateId : Method Streams Stop StreamId := do
  let id := (← get).nextStreamId
  if id < defaultMaxStreamId then
    modify fun streams => { streams with nextStreamId := streams.nextStreamId + 2 }
    return id
  else
    throw (.connection .protocolError)

/-- The ids do not wrap around. -/
theorem lt_next {id : StreamId} (h : id < defaultMaxStreamId) : id < id + 2 := by
  have hsmall : id.toNat < 2147483647 := UInt32.lt_iff_toNat_lt.mp h
  change id.toNat < (id.toNat + 2) % 2 ^ 32
  omega

def nextPendingStream : Method Streams Stop (Option StreamId) := do
  match (← get).pendingSend with
  | [] => return none
  | id :: ids =>
    modify ({ · with pendingSend := ids })
    return some id

/-- `headers`: the HEADERS frame of a stream, once. -/
def headers (id : StreamId) : Method Streams Stop (Option HeadersFrame) := do
  match (← get).streamMap.lookup id with
  | none => throw (.connection .intervalError)
  | some stream =>
    if stream.state.isClosed then return none
    modify (setStream id { stream with header := none })
    return stream.header

def dataFrame (id : StreamId) (data : List UInt8) : Frame := ⟨id, ⟨0⟩, .data data⟩

def endFrame (id : StreamId) : Frame := ⟨id, ⟨endStreamMask⟩, .data []⟩

/-- `poll_sized_data` with a buffer of `len` bytes. -/
def pollSizedData (id : StreamId) (len : Nat) (read : BodyRead) : Method Streams Stop DataReadState := do
  match (← get).streamMap.lookup id with
  | none => throw (.connection .intervalError)
  | some stream =>
    match stream.data.pollRead len read with
    | .ready (some []) => return .finish (endFrame id)
    | .ready (some (b :: bytes)) =>
      onStream id stream (Stream.onSendWindow (SendWindow.sendData (b :: bytes).length))
      onFlowControl (FlowControl.sendData (b :: bytes).length)
      return .ready (dataFrame id (b :: bytes))
    | .ready none => throw (.stream id .intervalError)
    | .pending =>
      modify (pushBackPendingSend id)
      return .pending

def pollReadBody (id : StreamId) (read : BodyRead) : Method Streams Stop DataReadState := do
  match (← get).streamMap.lookup id with
  | none => throw (.connection .intervalError)
  | some stream =>
    if stream.state.isClosed then return .closed
    if stream.sendWindow.sizeAvailable = 0 then
      modify fun streams =>
        { streams with pendingStreamWindow := List.insert id streams.pendingStreamWindow }
      return .pending
    if (← get).flowControl.sendSizeAvailable = 0 then
      modify fun streams => { streams with pendingConnWindow := streams.pendingConnWindow ++ [id] }
      return .pending
    let available := min stream.sendWindow.sizeAvailable (← get).flowControl.sendSizeAvailable
    pollSizedData id (min available (16 * 1024)) read

/-! ### States of a stream -/

/-- Close a stream that counts. -/
def endStream (id : StreamId) (stream : Stream) (reason : CloseReason) : Method Streams Stop Unit := do
  modify (setStream id (stream.close reason))
  decreaseCurrentConcurrency

/-- The loop of `get_unset_streams` over the keys of the stream map. -/
def unsetStreams (lastStreamId : StreamId) : List StreamId → Method Streams Stop (List StreamId)
  | [] => return []
  | id :: ids => do
    if id ≤ lastStreamId then unsetStreams lastStreamId ids
    else
      match (← get).streamMap.lookup id with
      | none => unsetStreams lastStreamId ids
      | some stream =>
        match stream.state with
        | .closed _ => pure ()
        | .idle => modify (setStream id (stream.close .remoteGoAway))
        | _ => endStream id stream .remoteGoAway
        return id :: (← unsetStreams lastStreamId ids)

/-- `get_unset_streams`: the ids above `lastStreamId`, whose streams are closed. -/
def getUnsetStreams (lastStreamId : StreamId) : Method Streams Stop (List StreamId) := do
  unsetStreams lastStreamId (← get).streamMap.keys

/-- The loop of `get_all_unclosed_streams` over the keys of the stream map. -/
def closeStreams : List StreamId → Streams → List StreamId × Streams
  | [], streams => ([], streams)
  | id :: ids, streams =>
    match streams.streamMap.lookup id with
    | none => closeStreams ids streams
    | some stream =>
      if stream.state.isClosed then closeStreams ids streams
      else
        let (closed, streams') := closeStreams ids (streams.setStream id (stream.close .localGoAway))
        (id :: closed, streams')

def getAllUnclosedStreams (streams : Streams) : List StreamId × Streams :=
  closeStreams streams.streamMap.keys streams

def clearStreamsStates (streams : Streams) : Streams :=
  { streams with
    pendingStreamWindow := [], pendingSend := [], pendingConnWindow := [], pendingConcurrency := [] }

def sendLocalReset (id : StreamId) : Method Streams Stop StreamEndState := do
  match (← get).streamMap.lookup id with
  | none => return .err (.connectionError .protocolError)
  | some stream =>
    match stream.state with
    | .closed .endStream =>
      modify (setStream id { stream with state := .closed .localRst })
      return .ignore
    | .closed _ => return .ignore
    | _ =>
      endStream id stream .localRst
      return .ok

def recvRemoteReset (id : StreamId) : Method Streams Stop StreamEndState := do
  if id > (← get).maxRecvId then return .ignore
  match (← get).streamMap.lookup id with
  | none => return .err (.connectionError .protocolError)
  | some stream =>
    if stream.state.isClosed then return .ignore
    endStream id stream .remoteRst
    return .ok

def setState (id : StreamId) (stream : Stream) (state : H2StreamState) (streams : Streams) : Streams :=
  streams.setStream id { stream with state }

/-- What a frame does to a stream: the state it leaves, or the answer if it is not for a stream in
this state. -/
abbrev Transition := H2StreamState → Except FrameRecvState H2StreamState

/-- A frame of the stream `id`. The stream no longer counts when the frame closes it. -/
def transition (next : Transition) (id : StreamId) : Method Streams Stop FrameRecvState := do
  match (← get).streamMap.lookup id with
  | none => return .err (.connectionError .protocolError)
  | some stream =>
    match next stream.state with
    | .error answer => return answer
    | .ok state =>
      modify (setState id stream state)
      if state.isClosed then decreaseCurrentConcurrency
      return .ok

def sendHeadersNext (eos : Bool) : Transition
  | .idle => .ok (if eos then .localHalfClosed .waitHeaders else .opened .waitData .waitHeaders)
  | .opened .waitHeaders recv => .ok (if eos then .localHalfClosed recv else .opened .waitData recv)
  | .remoteHalfClosed .waitHeaders =>
    .ok (if eos then .closed .endStream else .remoteHalfClosed .waitData)
  | _ => .error (.err (.connectionError .protocolError))

def sendDataNext (eos : Bool) : Transition
  | .opened .waitData recv => .ok (if eos then .localHalfClosed recv else .opened .waitData recv)
  | .remoteHalfClosed .waitData =>
    .ok (if eos then .closed .endStream else .remoteHalfClosed .waitData)
  | _ => .error (.err (.connectionError .protocolError))

def recvHeadersNext (eos : Bool) : Transition
  | .idle => .ok (if eos then .remoteHalfClosed .waitHeaders else .opened .waitHeaders .waitData)
  | .reservedRemote => .ok (if eos then .closed .endStream else .localHalfClosed .waitData)
  | .opened send .waitHeaders => .ok (if eos then .remoteHalfClosed send else .opened send .waitData)
  | .localHalfClosed .waitHeaders => .ok (if eos then .closed .endStream else .localHalfClosed .waitData)
  | .closed .localGoAway => .error .ignore
  | .closed .localRst => .error .ignore
  | _ => .error (.err (.connectionError .protocolError))

def recvDataNext (eos : Bool) : Transition
  | .opened send .waitData => .ok (if eos then .remoteHalfClosed send else .opened send .waitData)
  | .localHalfClosed .waitData => .ok (if eos then .closed .endStream else .localHalfClosed .waitData)
  | .closed .localGoAway => .error .ignore
  | .closed .localRst => .error .ignore
  | _ => .error (.err (.connectionError .protocolError))

def sendHeadersFrame (id : StreamId) (eos : Bool) : Method Streams Stop FrameRecvState :=
  transition (sendHeadersNext eos) id

def sendDataFrame (id : StreamId) (eos : Bool) : Method Streams Stop FrameRecvState :=
  transition (sendDataNext eos) id

def recvHeaders (id : StreamId) (eos : Bool) : Method Streams Stop FrameRecvState := do
  if id > (← get).maxRecvId then return .ignore
  transition (recvHeadersNext eos) id

def recvData (id : StreamId) (eos : Bool) : Method Streams Stop FrameRecvState := do
  if id > (← get).maxRecvId then return .ignore
  transition (recvDataNext eos) id

end Streams

end YlongHttp.Client.H2
