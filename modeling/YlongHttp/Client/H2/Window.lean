/-
Flow-control windows (`util/h2/buffer/window.rs`, `util/h2/buffer/settings.rs`).

The windows are `i32` values. `Stop` are the ways in which a task of the connection ends: with
an error that the operator `?` passes on, or with the panic of an arithmetic operation, which
nothing catches. The panics are told apart by the counter that overflows.
-/

import YlongHttp.H2.Frame
import YlongHttp.Rust.Checked

namespace YlongHttp.Client.H2

open YlongHttp.H2 Rust

/-- `DispatchErrorKind`. The kind of an I/O error is only passed on. -/
inductive DispatchErrorKind where
  | h2 (e : H2Error)
  | io
  | channelClosed
  | disconnect
deriving DecidableEq

inductive Counter where
  | sendWindow
  | recvWindow
  | concurrency
deriving DecidableEq

inductive Stop where
  | error (e : DispatchErrorKind)
  | overflow (counter : Counter)
deriving DecidableEq

def Stop.connection (code : ErrorCode) : Stop := .error (.h2 (.connectionError code))

def Stop.stream (id : StreamId) (code : ErrorCode) : Stop := .error (.h2 (.streamError id code))

def maxFlowControlWindow : Nat := 2 ^ 31 - 1

structure SendWindow where
  size : Int
deriving DecidableEq

namespace SendWindow

def new (size : Int) : SendWindow := ⟨size⟩

def sizeAvailable (w : SendWindow) : Nat := if w.size < 0 then 0 else asU32 w.size

def reduceSize (size : Nat) : Method SendWindow Stop Unit := do
  let left ← i32 (.overflow .sendWindow) ((← get).size - asI32 size)
  set (SendWindow.mk left)

def increaseSize (size : Nat) : Method SendWindow Stop Unit := do
  let curr := (← get).size + asI32 size
  if ¬ InI32 curr then throw (.connection .flowControlError)
  if curr > asI32 maxFlowControlWindow then throw (.connection .flowControlError)
  set (SendWindow.mk curr)

def sendData (size : Nat) : Method SendWindow Stop Unit := do
  let left ← i32 (.overflow .sendWindow) ((← get).size - asI32 size)
  set (SendWindow.mk left)

end SendWindow

/-- `notification` is the window that the peer sees, `actual` the window that the client wants
it to see. -/
structure RecvWindow where
  notification : Int
  actual : Int
deriving DecidableEq

namespace RecvWindow

def new (size : Int) : RecvWindow := ⟨size, size⟩

def unreleasedSize : Method RecvWindow Stop (Option Nat) := do
  let w ← get
  let unreleased ← i32 (.overflow .recvWindow) (w.actual - w.notification)
  if unreleased ≤ 0 then return none
  let twice ← i32 (.overflow .recvWindow) (unreleased * 2)
  return if twice > w.notification then some (asU32 unreleased) else none

def notificationAvailable (w : RecvWindow) : Nat :=
  if w.notification < 0 then 0 else asU32 w.notification

def reduceActual (size : Nat) : Method RecvWindow Stop Unit := do
  let actual ← i32 (.overflow .recvWindow) ((← get).actual - asI32 size)
  modify ({ · with actual })

def increaseActual (size : Nat) : Method RecvWindow Stop Unit := do
  let actual ← i32 (.overflow .recvWindow) ((← get).actual + asI32 size)
  modify ({ · with actual })

def reduceNotification (size : Nat) : Method RecvWindow Stop Unit := do
  let notification ← i32 (.overflow .recvWindow) ((← get).notification - asI32 size)
  modify ({ · with notification })

def increaseNotification (size : Nat) : Method RecvWindow Stop Unit := do
  let notification ← i32 (.overflow .recvWindow) ((← get).notification + asI32 size)
  modify ({ · with notification })

def windowUpdate (id : StreamId) (size : Nat) : Frame :=
  ⟨id, .empty, .windowUpdate (UInt32.ofNat size)⟩

def checkWindowUpdate (id : StreamId) : Method RecvWindow Stop (Option Frame) := do
  match ← unreleasedSize with
  | some size =>
    increaseNotification size
    return some (windowUpdate id size)
  | none => return none

def recvData (size : Nat) : Method RecvWindow Stop Unit := do
  let notification ← i32 (.overflow .recvWindow) ((← get).notification - asI32 size)
  modify ({ · with notification })

end RecvWindow

structure FlowControl where
  recvWindow : RecvWindow
  sendWindow : SendWindow
deriving DecidableEq

namespace FlowControl

def onRecvWindow {α : Type} (m : Method RecvWindow Stop α) : Method FlowControl Stop α :=
  m.onField recvWindow fun w flow => { flow with recvWindow := w }

def onSendWindow {α : Type} (m : Method SendWindow Stop α) : Method FlowControl Stop α :=
  m.onField sendWindow fun w flow => { flow with sendWindow := w }

def new (connRecvWindow connSendWindow : Nat) : FlowControl :=
  ⟨.new (asI32 connRecvWindow), .new (asI32 connSendWindow)⟩

def checkConnRecvWindowUpdate : Method FlowControl Stop (Option Frame) :=
  onRecvWindow (RecvWindow.checkWindowUpdate 0)

def setupRecvWindow (size : Nat) : Method FlowControl Stop Unit := do
  let actual := asU32 (← get).recvWindow.actual
  if size > actual then
    onRecvWindow (RecvWindow.increaseActual (size - actual))
  else
    onRecvWindow (RecvWindow.reduceActual (actual - size))

def increaseSendSize (size : Nat) : Method FlowControl Stop Unit :=
  onSendWindow (SendWindow.increaseSize size)

def sendSizeAvailable (flow : FlowControl) : Nat := flow.sendWindow.sizeAvailable

def recvNotificationSizeAvailable (flow : FlowControl) : Nat := flow.recvWindow.notificationAvailable

def sendData (size : Nat) : Method FlowControl Stop Unit := onSendWindow (SendWindow.sendData size)

def recvData (size : Nat) : Method FlowControl Stop Unit := onRecvWindow (RecvWindow.recvData size)

end FlowControl

end YlongHttp.Client.H2
