/-
The manager of a connection (`util/h2/manager.rs`, and `StreamController` and
`Http2Dispatcher::new` of `util/dispatcher.rs`).

The manager is a task that is polled. One turn of its loop is a `step`: what the task finds when
it looks at its channels is the `Event`, and what its channels answer to it during the turn is
`Answers`. A turn that returns `Poll::Pending` and one that goes on at the head of the loop both
end in a state from which the next turn starts. A turn that fails ends the task.

`history` records what passes through the channels of the manager, newest first: the frames it
receives, the requests it takes, the frames it queues for the peer and the messages it passes to
the callers. A queued frame is recorded with the streams at that moment.
-/

import YlongHttp.Client.H2.Streams

namespace YlongHttp.Client.H2

open YlongHttp.H2 Rust

def errorCodes : List ErrorCode :=
  [.noError, .protocolError, .intervalError, .flowControlError, .settingsTimeout, .streamClosed,
    .frameSizeError, .refusedStream, .cancel, .compressionError, .connectError, .enhanceYourCalm,
    .inadequateSecurity, .http11Required]

/-- `ErrorCode::into_code`. -/
def intoCode (code : ErrorCode) : UInt32 := UInt32.ofNat (errorCodes.idxOf code)

/-- `ErrorCode::try_from`. -/
def errorCodeOf (code : UInt32) : Except H2Error ErrorCode :=
  match errorCodes[code.toNat]? with
  | some e => .ok e
  | none => .error (.connectionError .protocolError)

/-- What a caller gets through the channel of its stream. -/
inductive RespMessage where
  | output (frame : Frame)
  | outputExit (e : DispatchErrorKind)

/-- What the manager gets from the task that reads frames. -/
inductive OutputMessage where
  | output (frame : Frame)
  | outputExit (e : DispatchErrorKind)

inductive Item where
  | received (frame : Frame)
  | requested (id : StreamId)
  | queued (frame : Frame) (streams : Streams)
  | delivered (id : StreamId) (message : RespMessage)

inductive SettingsState where
  | acknowledging (settings : List Setting)
  | synced

inductive ManagerState where
  | send
  | receive
  | exit (e : DispatchErrorKind)
deriving DecidableEq

/-- The senders of the response channels are known by the ids of their streams. -/
structure StreamController where
  ioShutdown : Bool
  ioGoaway : Bool
  senders : List StreamId
  currMessage : List (StreamId × RespMessage)
  streams : Streams
  goAwayErrorCode : Option UInt32
  goingAway : Option Goaway

/-- The answers of the channels to the sends of one turn, in order: a response channel takes a
message, is closed or is full, and the channel to the writing task takes a frame or is closed.
What is not answered succeeds. -/
structure Answers where
  responses : List (Poll Bool)
  input : List Bool

structure ConnManager where
  state : ManagerState
  nextState : ManagerState
  settings : SettingsState
  reqClosed : Bool
  controller : StreamController
  answers : Answers
  history : List Item

/-- A request: the flags and the fields of its HEADERS frame (`RequestWrapper`). -/
structure Request where
  flag : FrameFlags
  parts : Parts

namespace ConnManager

/-! ### Access to the parts -/

def onStreams {α : Type} (m : Method Streams Stop α) : Method ConnManager Stop α :=
  m.onField (fun manager => manager.controller.streams) fun streams manager =>
    { manager with controller := { manager.controller with streams } }

def modifyController (f : StreamController → StreamController) : Method ConnManager Stop Unit :=
  modify fun manager => { manager with controller := f manager.controller }

def modifyStreams (f : Streams → Streams) : Method ConnManager Stop Unit := onStreams (modify f)

def log (item : Item) : Method ConnManager Stop Unit :=
  modify fun manager => { manager with history := item :: manager.history }

/-- `self.state = state; self.next_state = next`. -/
def goTo (state next : ManagerState) : Method ConnManager Stop Unit :=
  modify ({ · with state, nextState := next })

def nextResponse : Method ConnManager Stop (Poll Bool) := do
  let manager ← get
  match manager.answers.responses with
  | [] => return .ready true
  | answer :: rest =>
    set { manager with answers := { manager.answers with responses := rest } }
    return answer

def nextInput : Method ConnManager Stop Bool := do
  let manager ← get
  match manager.answers.input with
  | [] => return true
  | answer :: rest =>
    set { manager with answers := { manager.answers with input := rest } }
    return answer

/-- `input_tx.send(frame)`, with the error mapped to a closed channel. -/
def queue (frame : Frame) : Method ConnManager Stop Unit := do
  if ← nextInput then
    log (.queued frame (← get).controller.streams)
  else
    throw (.error .channelClosed)

/-! ### The stream controller -/

def shutdown : Method ConnManager Stop Unit := modifyController ({ · with ioShutdown := true })

def goaway : Method ConnManager Stop Unit := modifyController ({ · with ioGoaway := true })

def getUnsentStreams (lastStreamId : StreamId) : Method ConnManager Stop (List StreamId) := do
  if (← get).controller.streams.maxSendId < lastStreamId then throw (.connection .protocolError)
  modifyStreams ({ · with maxSendId := lastStreamId })
  onStreams (Streams.getUnsetStreams lastStreamId)

def removeSender (id : StreamId) : Method ConnManager Stop Unit :=
  modifyController fun c => { c with senders := c.senders.filter (· ≠ id) }

/-- `send_message_to_stream`: `false` stands for the stream error with `NoError`. -/
def sendMessageToStream (id : StreamId) (message : RespMessage) : Method ConnManager Stop (Poll Bool) := do
  if id ∈ (← get).controller.senders then
    match ← nextResponse with
    | .ready true =>
      log (.delivered id message)
      return .ready true
    | .ready false =>
      removeSender id
      return .ready false
    | .pending =>
      modifyController fun c =>
        { c with currMessage := (id, message) :: c.currMessage.filter (·.1 ≠ id) }
      return .pending
  else
    return .ready false

def rstStream (id : StreamId) (code : ErrorCode) : Frame := ⟨id, .empty, .rstStream (intoCode code)⟩

/-- The coroutine that made the request is gone: its stream is reset. -/
def resetBlocked (id : StreamId) : Method ConnManager Stop Unit := do
  removeSender id
  match (← get).controller.streams.streamState id with
  | none => pure ()
  | some state =>
    if ¬ state.isClosed then
      match ← onStreams (Streams.sendLocalReset id) with
      | .ok =>
        -- An error of the send is ignored here.
        if ← nextInput then
          log (.queued (rstStream id .noError) (← get).controller.streams)
      | _ => pure ()

/-- The loop of `poll_blocked_message` over the blocked messages; the result says whether one is
still blocked. -/
def pollBlocked : List (StreamId × RespMessage) → Method ConnManager Stop Bool
  | [] => return false
  | (id, message) :: rest => do
    match ← nextResponse with
    | .ready true =>
      modifyController fun c => { c with currMessage := c.currMessage.filter (·.1 ≠ id) }
      log (.delivered id message)
      pollBlocked rest
    | .ready false =>
      modifyController fun c => { c with currMessage := c.currMessage.filter (·.1 ≠ id) }
      resetBlocked id
      pollBlocked rest
    | .pending =>
      let _ ← pollBlocked rest
      return true

def pollBlockedMessage : Method ConnManager Stop (Poll Unit) := do
  if ← pollBlocked (← get).controller.currMessage then return .pending else return .ready ()

/-! ### Ends of the connection -/

/-- Pass `message` to each stream; an error is ignored. The result says whether a channel is full. -/
def sendToAll (message : RespMessage) : List StreamId → Method ConnManager Stop Bool
  | [] => return false
  | id :: ids => do
    let sent ← sendMessageToStream id message
    let blocked ← sendToAll message ids
    return sent = .pending ∨ blocked

/-- `exit_with_error`. -/
def exitWithError (e : DispatchErrorKind) : Method ConnManager Stop Bool := do
  shutdown
  modify ({ · with reqClosed := true })
  modifyStreams Streams.clearStreamsStates
  let ids := (← get).controller.streams.getAllUnclosedStreams.1
  modifyStreams fun streams => streams.getAllUnclosedStreams.2
  sendToAll (.outputExit e) ids

/-- The manager ends with `e`, at once or when the blocked messages are gone. -/
def exit (e : DispatchErrorKind) : Method ConnManager Stop (Poll Unit) := do
  if ← exitWithError e then
    goTo .send (.exit e)
    return .pending
  else
    throw (.error e)

def manageStreamError (id : StreamId) (code : ErrorCode) : Method ConnManager Stop (Poll Unit) := do
  match ← onStreams (Streams.sendLocalReset id) with
  | .ok =>
    queue (rstStream id code)
    match ← sendMessageToStream id (.outputExit (.h2 (.streamError id code))) with
    | .ready _ => return .ready ()
    | .pending =>
      goTo .send .receive
      return .pending
  | .ignore => return .ready ()
  | .err e => throw (.error (.h2 e))

def goawayFrame (g : Goaway) : Frame := ⟨0, .empty, .goaway g⟩

/-- The GOAWAY frame has been sent before. -/
def sameGoaway (g : Goaway) (goingAway : Option Goaway) : Bool :=
  match goingAway with
  | some sent => sent.errorCode = g.errorCode ∧ sent.lastStreamId = g.lastStreamId
  | none => false

def manageConnError (code : ErrorCode) : Method ConnManager Stop (Poll Unit) := do
  let g : Goaway := ⟨intoCode code, (← get).controller.streams.latestRemoteId, []⟩
  if sameGoaway g (← get).controller.goingAway then return .ready ()
  modifyController ({ · with goingAway := some g })
  queue (goawayFrame g)
  exit (.h2 (.connectionError code))

def manageRespError (kind : DispatchErrorKind) : Method ConnManager Stop (Poll Unit) :=
  match kind with
  | .h2 (.streamError id code) => manageStreamError id code
  | .h2 (.connectionError code) => manageConnError code
  | other => exit other

/-! ### Frames from the peer -/

/-- The settings of the client that the peer acknowledges. -/
def acknowledge : List Setting → Method ConnManager Stop Unit
  | [] => return
  | .initialWindowSize size :: settings => do
    onStreams (Streams.applyRecvInitialWindowSize size.toNat)
    acknowledge settings
  | _ :: settings => acknowledge settings

/-- The settings of the peer. -/
def applySettings : List Setting → Method ConnManager Stop Unit
  | [] => return
  | .maxConcurrentStreams num :: settings => do
    modifyStreams (Streams.applyMaxConcurrentStreams num.toNat)
    applySettings settings
  | .initialWindowSize size :: settings => do
    onStreams (Streams.applySendInitialWindowSize size.toNat)
    applySettings settings
  | _ :: settings => applySettings settings

def recvSettingsFrame (frame : Frame) (settings : List Setting) : Method ConnManager Stop Unit := do
  if frame.flags.isAck then
    match (← get).settings with
    | .acknowledging acknowledged => acknowledge acknowledged
    | .synced => pure ()
    modify ({ · with settings := .synced })
  else
    applySettings settings
    queue ⟨frame.id, ⟨ackMask⟩, frame.payload⟩

def recvPingFrame (frame : Frame) (ping : Ping) : Method ConnManager Stop Unit := do
  if ¬ frame.flags.isAck then queue ⟨0, ⟨ackMask⟩, .ping ping⟩

def recvGoAwayFrame (g : Goaway) : Method ConnManager Stop (Poll Unit) := do
  goaway
  modify ({ · with reqClosed := true })
  let ids ← getUnsentStreams g.lastStreamId
  match errorCodeOf g.errorCode with
  | .error e => throw (.error (.h2 e))
  | .ok code =>
    let blocked ← sendToAll (.outputExit (.h2 (.connectionError code))) ids
    modifyController ({ · with goAwayErrorCode := some g.errorCode })
    return if blocked then .pending else .ready ()

/-- Pass a frame to the caller; the error of a caller that is gone is passed on. -/
def forward (frame : Frame) : Method ConnManager Stop (Poll Unit) := do
  match ← sendMessageToStream frame.id (.output frame) with
  | .ready true => return .ready ()
  | .ready false => throw (.stream frame.id .noError)
  | .pending => return .pending

def recvResetFrame (frame : Frame) : Method ConnManager Stop (Poll Unit) := do
  match ← onStreams (Streams.recvRemoteReset frame.id) with
  | .ok => forward frame
  | .err e => throw (.error (.h2 e))
  | .ignore => return .ready ()

/-- What becomes of a HEADERS or DATA frame. -/
def forwardIf (received : FrameRecvState) (frame : Frame) : Method ConnManager Stop (Poll Unit) :=
  match received with
  | .ok => forward frame
  | .err e => throw (.error (.h2 e))
  | .ignore => return .ready ()

def recvHeaderFrame (frame : Frame) : Method ConnManager Stop (Poll Unit) := do
  forwardIf (← onStreams (Streams.recvHeaders frame.id frame.flags.isEndStream)) frame

def queueUpdate (update : Option Frame) : Method ConnManager Stop Unit :=
  match update with
  | some frame => queue frame
  | none => return

def updateWindow (id : StreamId) (len : Nat) : Method ConnManager Stop Unit := do
  queueUpdate (← onStreams (Streams.releaseConnRecvWindow len))
  queueUpdate (← onStreams (Streams.releaseStreamRecvWindow id len))

def recvDataFrame (frame : Frame) (data : List UInt8) : Method ConnManager Stop (Poll Unit) := do
  updateWindow frame.id data.length
  forwardIf (← onStreams (Streams.recvData frame.id frame.flags.isEndStream)) frame

def recvWindowFrame (frame : Frame) (increment : UInt32) : Method ConnManager Stop Unit := do
  if frame.id = 0 then
    onStreams (Streams.increaseConnSendWindow increment.toNat)
    modifyStreams Streams.reassignConnSendWindow
  else
    onStreams (Streams.reassignStreamSendWindow frame.id increment.toNat)

def pollRecvFrame (frame : Frame) : Method ConnManager Stop (Poll Unit) := do
  match frame.payload with
  | .settings settings =>
    recvSettingsFrame frame settings
    return .ready ()
  | .ping ping =>
    recvPingFrame frame ping
    return .ready ()
  | .pushPromise _ _ => throw (.connection .protocolError)
  | .goaway g => recvGoAwayFrame g
  | .rstStream _ => recvResetFrame frame
  | .headers _ => recvHeaderFrame frame
  | .data data => recvDataFrame frame data
  | .windowUpdate increment =>
    recvWindowFrame frame increment
    return .ready ()
  | .priority _ => return .ready ()

/-- `poll_recv_message`. -/
def pollRecvMessage (frame : Frame) : Method ConnManager Stop (Poll Unit) := fun manager =>
  match pollRecvFrame frame manager with
  | .err (.error kind) manager' => manageRespError kind manager'
  | .ok .pending manager' => (goTo .send .receive *> return .pending) manager'
  | out => out

/-! ### Requests -/

/-- Take one request. -/
def acceptRequest (request : Request) : Method ConnManager Stop Unit := do
  let id ← onStreams Streams.generateId
  let streams := (← get).controller.streams
  if streams.reachMaxConcurrency ∨ streams.pendingConcurrency ≠ [] then
    modifyStreams (Streams.pushPendingConcurrency id)
  else
    modifyStreams fun streams => streams.increaseCurrentConcurrency.pushBackPendingSend id
  modifyController fun c => { c with senders := id :: c.senders }
  modifyStreams (Streams.insert id ⟨id, request.flag, request.parts⟩ ⟨true⟩)
  log (.requested id)

/-- `poll_recv_request` with the requests that are in the channel. A request that gets no id is
refused and ends the loop. -/
def pollRecvRequest (closed : Bool) : List Request → Method ConnManager Stop Unit
  | [] => if closed then throw (.error .channelClosed) else return
  | request :: requests => fun manager =>
    match acceptRequest request manager with
    | .ok _ manager' => pollRecvRequest closed requests manager'
    | .err (.error _) manager' => .ok () manager'
    | out => out

/-- `poll_send_frame`. -/
def pollSendFrame (frame : Frame) : Method ConnManager Stop Unit := do
  let sent ← match frame.payload with
    | .headers _ => onStreams (Streams.sendHeadersFrame frame.id frame.flags.isEndStream)
    | .data _ => onStreams (Streams.sendDataFrame frame.id frame.flags.isEndStream)
    | _ => pure .ok
  match sent with
  | .err e => throw (.error (.h2 e))
  | _ => queue frame

def dealPollBodyError (e : H2Error) : Method ConnManager Stop Unit :=
  match e with
  | .streamError id code => do
    let _ ← manageStreamError id code
    return
  | .connectionError code => throw (.connection code)

/-- One turn of the loop of `input_stream_frame`; the result says whether the loop goes on. -/
def inputData (id : StreamId) (read : BodyRead) : Method ConnManager Stop Bool := fun manager =>
  match onStreams (Streams.pollReadBody id read) manager with
  | .ok (.ready frame) manager' => (pollSendFrame frame *> return true) manager'
  | .ok (.finish frame) manager' => (pollSendFrame frame *> return false) manager'
  | .ok _ manager' => .ok false manager'
  | .err (.error (.h2 e)) manager' => (dealPollBodyError e *> return false) manager'
  | .err stop manager' => .err stop manager'
  | .panic => .panic

/-- The loop of `input_stream_frame`, with what the reads of the body answer; a body whose answers
are used up is pending. -/
def inputBody (id : StreamId) : List BodyRead → Method ConnManager Stop Unit
  | [] => do
    let _ ← inputData id .pending
    return
  | read :: reads => do
    if ← inputData id read then inputBody id reads

/-- The first part of `input_stream_frame`; the result says whether data follow. -/
def inputHeaders (id : StreamId) : Method ConnManager Stop Bool := do
  match ← onStreams (Streams.headers id) with
  | none => return true
  | some header =>
    pollSendFrame header.toFrame
    return ¬ header.flags.isEndStream

def inputStreamFrame (id : StreamId) (reads : List BodyRead) : Method ConnManager Stop Unit := do
  if ← inputHeaders id then inputBody id reads

/-- The loop of `poll_input_request`. The bodies answer with one list of reads after the other. -/
def inputStreams : Nat → List (List BodyRead) → Method ConnManager Stop Unit
  | 0, _ => return
  | n + 1, bodies => do
    match ← onStreams Streams.nextPendingStream with
    | none => return
    | some id =>
      inputStreamFrame id (bodies.headD [])
      inputStreams n bodies.tail

def pollInputRequest (bodies : List (List BodyRead)) : Method ConnManager Stop Unit := do
  modifyStreams Streams.tryConsumePendingConcurrency
  inputStreams (← get).controller.streams.pendingSend.length bodies

/-- The connection error with the code of the peer. -/
def failWithCode (errorCode : UInt32) : Method ConnManager Stop Unit :=
  match errorCodeOf errorCode with
  | .error e => throw (.error (.h2 e))
  | .ok code => throw (.connection code)

/-- `poll_deal_with_go_away` and `send_peer_goaway`. -/
def pollDealWithGoAway (errorCode : UInt32) : Method ConnManager Stop Unit := do
  if (← get).controller.streams.isClosed then
    let g : Goaway := ⟨errorCode, (← get).controller.streams.latestRemoteId, []⟩
    if ¬ sameGoaway g (← get).controller.goingAway then
      modifyController ({ · with goingAway := some g })
      queue (goawayFrame g)
    shutdown
    failWithCode errorCode

/-- `manage_pending_state`. -/
def managePendingState (requests : List Request) (closed : Bool) (bodies : List (List BodyRead)) :
    Method ConnManager Stop Unit := do
  match (← get).controller.goAwayErrorCode with
  | some errorCode => pollDealWithGoAway errorCode
  | none =>
    pollRecvRequest closed requests
    pollInputRequest bodies

/-- `poll_blocked_frames`. -/
def pollBlockedFrames : Method ConnManager Stop (Poll Unit) := do
  match ← pollBlockedMessage with
  | .ready _ =>
    goTo (← get).nextState .receive
    return .ready ()
  | .pending => return .pending

/-! ### The task -/

/-- What the manager finds: a message of the reading task, that the reading task is gone, or no
message, and then requests and bodies. `settings` is not a turn of the manager: the writing task
has sent the settings of the client. -/
inductive Event where
  | message (message : OutputMessage)
  | closed
  | pending (requests : List Request) (closed : Bool) (bodies : List (List BodyRead))
  | blocked
  | settings (settings : List Setting)

/-- One turn of `poll`, where the manager looks at the channel of the event. -/
def turn : Event → Method ConnManager Stop Unit
  | .message (.output frame) => do
    log (.received frame)
    let _ ← pollRecvMessage frame
    return
  | .message (.outputExit e) => do
    -- After a GOAWAY frame of the peer, errors of the reading task are ignored.
    if (← get).controller.goAwayErrorCode.isNone then
      let _ ← manageRespError e
      return
  | .closed => do
    let _ ← exit .channelClosed
    return
  | .pending requests closed bodies => managePendingState requests closed bodies
  | .blocked => do
    let _ ← pollBlockedFrames
    return
  | .settings settings => modify ({ · with settings := .acknowledging settings })

/-- The state in which a turn looks at the channel of the event. -/
def Event.enabled (state : ManagerState) : Event → Bool
  | .blocked => state = .send
  | .settings _ => true
  | _ => state = .receive

/-- A turn of the manager, if its state is one where it can meet the event. -/
def step (manager : ConnManager) (event : Event) (answers : Answers) : Option (Outcome ConnManager Stop Unit) :=
  if event.enabled manager.state then some (turn event { manager with answers }) else none

end ConnManager

/-! ### Start of a connection -/

/-- The values of `H2Config` that the connection uses. -/
structure H2Config where
  maxFrameSize : UInt32
  maxHeaderListSize : UInt32
  headerTableSize : UInt32
  connWindowSize : Nat
  streamWindowSize : Nat
  enablePush : Bool

instance : Inhabited H2Config where
  default := ⟨16 * 1024, 16 * 1024, 4096, 10 * 1024 * 1024, 2 * 1024 * 1024, false⟩

def defaultWindowSize : Nat := 65535

def createInitialSettings (config : H2Config) : Frame :=
  ⟨0, ⟨0⟩, .settings [.maxHeaderListSize config.maxHeaderListSize, .maxFrameSize config.maxFrameSize,
    .headerTableSize config.headerTableSize, .enablePush config.enablePush,
    .initialWindowSize (UInt32.ofNat config.streamWindowSize)]⟩

/-- The streams of a new connection, with the receive window that is configured. -/
def Streams.start (config : H2Config) : Outcome Streams Stop Unit :=
  (FlowControl.setupRecvWindow config.connWindowSize (.new defaultWindowSize defaultWindowSize)).mapState
    (.new config.streamWindowSize defaultWindowSize)

def ConnManager.new (streams : Streams) : ConnManager where
  state := .receive
  nextState := .receive
  settings := .synced
  reqClosed := false
  controller := ⟨false, false, [], [], streams, none, none⟩
  answers := ⟨[], []⟩
  history := []

/-- The frames that are queued before the manager is launched. -/
def ConnManager.queueInitial (config : H2Config) : Method ConnManager Stop Unit := do
  queue (createInitialSettings config)
  queueUpdate (← onStreams (Streams.releaseConnRecvWindow 0))

/-- `Http2Dispatcher::new`: the manager that is launched. -/
def ConnManager.launch (config : H2Config) : Outcome ConnManager Stop Unit :=
  ((Streams.start config).mapState ConnManager.new).bind fun _ => queueInitial config

end YlongHttp.Client.H2
