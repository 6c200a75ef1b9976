/-
Frames of HTTP/2 (`h2/frame.rs`).
-/

import YlongHttp.H2.Error
import YlongHttp.H2.Parts

namespace YlongHttp.H2

def endStreamMask : UInt8 := 0x01
def endHeadersMask : UInt8 := 0x04
def paddedMask : UInt8 := 0x08
def headersPriorityMask : UInt8 := 0x20
def ackMask : UInt8 := 0x1

structure FrameFlags where
  bits : UInt8
deriving DecidableEq

namespace FrameFlags

def empty : FrameFlags := ⟨0⟩

def isEndStream (f : FrameFlags) : Bool := f.bits &&& endStreamMask == endStreamMask

def isEndHeaders (f : FrameFlags) : Bool := f.bits &&& endHeadersMask == endHeadersMask

def isPadded (f : FrameFlags) : Bool := f.bits &&& paddedMask == paddedMask

def isAck (f : FrameFlags) : Bool := f.bits &&& ackMask == ackMask

def setEndHeaders (f : FrameFlags) (endHeaders : Bool) : FrameFlags :=
  if endHeaders then ⟨f.bits ||| endHeadersMask⟩ else ⟨f.bits &&& ~~~endHeadersMask⟩

end FrameFlags

inductive Setting where
  | headerTableSize (value : UInt32)
  | enablePush (value : Bool)
  | maxConcurrentStreams (value : UInt32)
  | initialWindowSize (value : UInt32)
  | maxFrameSize (value : UInt32)
  | maxHeaderListSize (value : UInt32)
deriving DecidableEq

structure Priority where
  exclusive : Bool
  streamDependency : UInt32
  weight : UInt8
deriving DecidableEq

/-- The payload of a PING frame has eight bytes. -/
structure Ping where
  data : List UInt8
  length_data : data.length = 8
deriving DecidableEq

structure Goaway where
  errorCode : UInt32
  lastStreamId : StreamId
  debugData : List UInt8
deriving DecidableEq

def Goaway.encodedLen (g : Goaway) : Nat := 8 + g.debugData.length

inductive Payload where
  | headers (parts : Parts)
  | data (data : List UInt8)
  | priority (priority : Priority)
  | rstStream (errorCode : UInt32)
  | ping (ping : Ping)
  | settings (settings : List Setting)
  | goaway (goaway : Goaway)
  | windowUpdate (windowSizeIncrement : UInt32)
  | pushPromise (promisedStreamId : StreamId) (parts : Parts)

inductive FrameType where
  | data
  | headers
  | priority
  | rstStream
  | settings
  | pushPromise
  | ping
  | goaway
  | windowUpdate
  | continuation
deriving DecidableEq

/-- The frame type as it goes over the wire. -/
def FrameType.code : FrameType → UInt8
  | .data => 0x0
  | .headers => 0x1
  | .priority => 0x2
  | .rstStream => 0x3
  | .settings => 0x4
  | .pushPromise => 0x5
  | .ping => 0x6
  | .goaway => 0x7
  | .windowUpdate => 0x8
  | .continuation => 0x9

def Payload.frameType : Payload → FrameType
  | .headers _ => .headers
  | .data _ => .data
  | .priority _ => .priority
  | .rstStream _ => .rstStream
  | .ping _ => .ping
  | .settings _ => .settings
  | .goaway _ => .goaway
  | .windowUpdate _ => .windowUpdate
  | .pushPromise _ _ => .pushPromise

structure Frame where
  id : StreamId
  flags : FrameFlags
  payload : Payload

end YlongHttp.H2
