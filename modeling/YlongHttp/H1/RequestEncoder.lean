/-
The encoder of request heads (`h1/request/encoder.rs`).

The head is written by a chain of small writers, one for each part of the request line and
of the field lines. Each keeps the index up to which it has written, and `encode` hands over
from one to the next until the buffer is full. A buffer is the number of bytes it has room
for, and the bytes that a writer puts into it are returned.
-/

import YlongHttp.Message
import YlongHttp.Rust.Drain

namespace YlongHttp.H1

open Rust

inductive TokenStatus where
  | complete (written : List UInt8)
  | incomplete (written : List UInt8)
deriving DecidableEq, Repr

def sp : List UInt8 := [0x20]

def crlf : List UInt8 := [0x0d, 0x0a]

def colon : List UInt8 := [0x3a]

/-- `WriteData::write`. A token that is complete leaves the index where it is. -/
def writeData (src : List UInt8) (room : Nat) : Method Nat HttpError TokenStatus := do
  let srcIdx ← get
  let inputLen ← checkedSub src.length srcIdx
  let written := (src.drop srcIdx).take room
  if room ≥ inputLen then return .complete written
  set (srcIdx + written.length)
  return .incomplete written

/-! ### The target -/

def originForm (uri : Uri) : List UInt8 :=
  match uri.path, uri.query with
  | none, none => [0x2f]
  | path, query => path.getD [] ++ (query.map (0x3f :: ·)).getD []

def absoluteForm (uri : Uri) : List UInt8 :=
  (uri.scheme.map (·.asStr ++ [0x3a, 0x2f, 0x2f])).getD [] ++ uri.host.getD [] ++
    (uri.port.map (0x3a :: ·)).getD [] ++ uri.path.getD [] ++ (uri.query.map (0x3f :: ·)).getD []

structure EncodeUri where
  origin : List UInt8
  absolute : Option (List UInt8)
  raw : Uri
  srcIdx : Nat
  isAbsolute : Bool

namespace EncodeUri

def new (uri : Uri) (isAbsolute : Bool) : EncodeUri := ⟨originForm uri, none, uri, 0, isAbsolute⟩

/-- The absolute form is made when it is needed for the first time. -/
def encode (room : Nat) : Method EncodeUri HttpError TokenStatus := do
  if (← get).isAbsolute then
    modify fun u => { u with absolute := some (u.absolute.getD (absoluteForm u.raw)) }
  let u ← get
  let uri := if u.isAbsolute then u.absolute.getD [] else u.origin
  Method.onField EncodeUri.srcIdx (fun i u => { u with srcIdx := i }) (writeData uri room)

end EncodeUri

/-! ### The field lines -/

inductive HeaderStatus where
  | name
  | colon
  | value
  | crlf (srcIdx : Nat)
  | emptyHeader
deriving DecidableEq, Repr

structure EncodeHeader where
  inner : List (Sigma fun _ : HeaderName => HeaderValue)
  status : Option HeaderStatus
  name : List UInt8
  value : List UInt8
  nameIdx : Nat
  colonIdx : Nat
  valueIdx : Nat

namespace EncodeHeader

/-- `new`. The name of an empty map is never written. -/
def new (header : Headers) : EncodeHeader :=
  match header.entries with
  | ⟨name, value⟩ :: inner => ⟨inner, some .name, name.name, value.toText, 0, 0, 0⟩
  | [] => ⟨[], some .emptyHeader, [0x20], [], 0, 0, 0⟩

/-- A token of a field line: the line goes on with `next`, or stays with `stay`. -/
def encodePart (write : Method EncodeHeader HttpError TokenStatus) (stay next : HeaderStatus) :
    Method EncodeHeader HttpError TokenStatus := do
  match ← write with
  | .complete written =>
    modify fun h => { h with status := some next }
    return .incomplete written
  | .incomplete written =>
    modify fun h => { h with status := some stay }
    return .incomplete written

def encodeName (room : Nat) : Method EncodeHeader HttpError TokenStatus := fun h =>
  encodePart (Method.onField nameIdx (fun i h => { h with nameIdx := i }) (writeData h.name room))
    .name .colon h

def encodeColon (room : Nat) : Method EncodeHeader HttpError TokenStatus :=
  encodePart (Method.onField colonIdx (fun i h => { h with colonIdx := i }) (writeData H1.colon room))
    .colon .value

def encodeValue (room : Nat) : Method EncodeHeader HttpError TokenStatus := fun h =>
  encodePart (Method.onField valueIdx (fun i h => { h with valueIdx := i }) (writeData h.value room))
    .value (.crlf 0) h

/-- The end of a line, after which the next line begins, if there is one. -/
def encodeCrlf (srcIdx room : Nat) : Method EncodeHeader HttpError TokenStatus := fun h =>
  match writeData H1.crlf room srcIdx with
  | .ok (.complete written) _ =>
    match h.inner with
    | ⟨name, value⟩ :: inner =>
      .ok (.incomplete written) ⟨inner, some .name, name.name, value.toText, 0, 0, 0⟩
    | [] => .ok (.complete written) h
  | .ok (.incomplete written) srcIdx => .ok (.incomplete written) { h with status := some (.crlf srcIdx) }
  | .err e _ => .err e h
  | .panic => .panic

/-- `encode`. The status is taken out first. -/
def encode (room : Nat) : Method EncodeHeader HttpError TokenStatus := do
  let status := (← get).status
  modify fun h => { h with status := none }
  match status with
  | some .name => encodeName room
  | some .colon => encodeColon room
  | some .value => encodeValue room
  | some (.crlf srcIdx) => encodeCrlf srcIdx room
  | some .emptyHeader => return .complete []
  | none => Method.panicked

end EncodeHeader

/-! ### The encoder -/

inductive EncodeState where
  | method
  | methodSp
  | uri
  | uriSp
  | version
  | versionCrlf
  | header
  | headerCrlf
  | encodeFinished
deriving DecidableEq, Repr

structure EncodeMethod where
  inner : Request.Method
  srcIdx : Nat

structure EncodeVersion where
  inner : Version
  srcIdx : Nat

structure RequestEncoder where
  encodeStatus : EncodeState
  methodPart : EncodeMethod
  methodSpPart : Nat
  uriPart : EncodeUri
  uriSpPart : Nat
  versionPart : EncodeVersion
  versionCrlfPart : Nat
  headersPart : EncodeHeader
  headersCrlfPart : Nat
  isAbsoluteUri : Bool

namespace RequestEncoder

def new (part : RequestPart) : RequestEncoder where
  encodeStatus := .method
  methodPart := ⟨part.method, 0⟩
  methodSpPart := 0
  uriPart := .new part.uri false
  uriSpPart := 0
  versionPart := ⟨part.version, 0⟩
  versionCrlfPart := 0
  headersPart := .new part.headers
  headersCrlfPart := 0
  isAbsoluteUri := false

/-- A part of the head: the encoder goes on with `next`, or stays with `stay`. -/
def encodePart (write : Method RequestEncoder HttpError TokenStatus) (stay next : EncodeState) :
    Method RequestEncoder HttpError (List UInt8) := do
  match ← write with
  | .complete written =>
    modify fun e => { e with encodeStatus := next }
    return written
  | .incomplete written =>
    modify fun e => { e with encodeStatus := stay }
    return written

def methodEncode (room : Nat) : Method RequestEncoder HttpError (List UInt8) := fun e =>
  encodePart
    (Method.onField (·.methodPart.srcIdx) (fun i e => { e with methodPart := ⟨e.methodPart.inner, i⟩ })
      (writeData e.methodPart.inner.asStr room)) .method .methodSp e

/-- The form of the target is settled when the target begins. -/
def methodSpEncode (room : Nat) : Method RequestEncoder HttpError (List UInt8) := do
  match ← Method.onField methodSpPart (fun i e => { e with methodSpPart := i }) (writeData sp room) with
  | .complete written =>
    modify fun e =>
      { e with uriPart := { e.uriPart with isAbsolute := e.isAbsoluteUri }, encodeStatus := .uri }
    return written
  | .incomplete written =>
    modify fun e => { e with encodeStatus := .methodSp }
    return written

def uriEncode (room : Nat) : Method RequestEncoder HttpError (List UInt8) :=
  encodePart (Method.onField uriPart (fun u e => { e with uriPart := u }) (EncodeUri.encode room))
    .uri .uriSp

def uriSpEncode (room : Nat) : Method RequestEncoder HttpError (List UInt8) :=
  encodePart (Method.onField uriSpPart (fun i e => { e with uriSpPart := i }) (writeData sp room))
    .uriSp .version

def versionEncode (room : Nat) : Method RequestEncoder HttpError (List UInt8) := fun e =>
  encodePart
    (Method.onField (·.versionPart.srcIdx) (fun i e => { e with versionPart := ⟨e.versionPart.inner, i⟩ })
      (writeData e.versionPart.inner.asStr room)) .version .versionCrlf e

def versionCrlfEncode (room : Nat) : Method RequestEncoder HttpError (List UInt8) :=
  encodePart (Method.onField versionCrlfPart (fun i e => { e with versionCrlfPart := i }) (writeData crlf room))
    .versionCrlf .header

def headerEncode (room : Nat) : Method RequestEncoder HttpError (List UInt8) :=
  encodePart (Method.onField headersPart (fun h e => { e with headersPart := h }) (EncodeHeader.encode room))
    .header .headerCrlf

def headerCrlfEncode (room : Nat) : Method RequestEncoder HttpError (List UInt8) :=
  encodePart (Method.onField headersCrlfPart (fun i e => { e with headersCrlfPart := i }) (writeData crlf room))
    .headerCrlf .encodeFinished

/-- One round of the loop of `encode`; nothing once the encoder has finished. -/
def encodeStep (room : Nat) : Method RequestEncoder HttpError (Option (List UInt8)) := do
  match (← get).encodeStatus with
  | .method => some <$> methodEncode room
  | .methodSp => some <$> methodSpEncode room
  | .uri => some <$> uriEncode room
  | .uriSp => some <$> uriSpEncode room
  | .version => some <$> versionEncode room
  | .versionCrlf => some <$> versionCrlfEncode room
  | .header => some <$> headerEncode room
  | .headerCrlf => some <$> headerCrlfEncode room
  | .encodeFinished => return none

def encode (room : Nat) : Method RequestEncoder HttpError (List UInt8) :=
  if room = 0 then throw .invalidInput else fill encodeStep (2 * room + 2) room

end RequestEncoder

end YlongHttp.H1
