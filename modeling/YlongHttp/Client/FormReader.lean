/-
Reading form data (`body/mime/simple.rs`).

`MultiPart` is read through a list of states, bytes and streams, in two nested loops; the end of
the form is a call that is ready without bytes. However the streams wait or are read in pieces,
the calls up to that end give the bytes of the form, as many as `total_bytes` says, and so do the
calls after every `reuse` (`reads_totalBytes`).
-/

import YlongHttp.Client.RequestBody

namespace YlongHttp.Client

open Rust Body List
open H2.Hpack (ascii)

/-! ### The states -/

/-- Bytes or a stream, with the data and the place that has been read to. -/
structure MultiPartState where
  stream : Bool
  data : List UInt8
  position : Nat

namespace MultiPartState

def bytes (data : List UInt8) : MultiPartState := ⟨false, data, 0⟩

def left (state : MultiPartState) : List UInt8 := state.data.drop state.position

def reuse (state : MultiPartState) : MultiPartState := { state with position := 0 }

end MultiPartState

/-- The polls are what the streams do in a call: a stream waits, or has at most `n + 1` bytes
ready. -/
structure MultiPartStates where
  states : List MultiPartState
  index : Nat
  polls : List (Option Nat)

namespace MultiPartStates

def reuse (s : MultiPartStates) : MultiPartStates := ⟨s.states.map .reuse, 0, s.polls⟩

/-- The state at the index has given `n` bytes, and the polls are left. -/
def read (s : MultiPartStates) (state : MultiPartState) (polls : List (Option Nat)) (n : Nat) : MultiPartStates :=
  ⟨s.states.set s.index { state with position := state.position + n }, s.index, polls⟩

def skip (s : MultiPartStates) : MultiPartStates := { s with index := s.index + 1 }

/-- A round of the loop of `poll_read`, which ends behind the last state. -/
def pollReadCurr (room : Nat) : Method MultiPartStates Infallible (Poll (Option (List UInt8))) := fun s =>
  match s.states[s.index]? with
  | none => .ok (.ready none) s
  | some state =>
    if state.stream then
      match s.polls with
      | some n :: polls =>
        let new := state.left.take (min (n + 1) room)
        let s := s.read state polls new.length
        .ok (.ready (some new)) (if new = [] then s.skip else s)
      | polls => .ok .pending { s with polls := polls.tail }
    else
      let new := state.left.take room
      let s := s.read state s.polls new.length
      .ok (.ready (some new)) (if new.length < room then s.skip else s)

/-- The loop, with what `MultiPart::poll_read` makes of a state that waits: the call waits only if
nothing has been read before. -/
def pollRead (room : Nat) (s : MultiPartStates) : Outcome MultiPartStates Infallible (Poll (List UInt8)) :=
  fillPoll pollReadCurr (room + s.states.length + 1) false room s

end MultiPartStates

/-! ### The reader -/

/-- A form, with the parts whose body is a stream. -/
structure FormData where
  parts : List (FormPart × Bool)
  boundary : List UInt8

namespace FormData

def multiPart (form : FormData) : MultiPart := ⟨form.parts.map Prod.fst, form.boundary⟩

def partStates (boundary : List UInt8) (part : FormPart × Bool) : List MultiPartState :=
  [.bytes (ascii "--" ++ boundary ++ crlf), .bytes (ascii "Content-Disposition: form-data")] ++
    (part.1.name.map fun name => .bytes (quoted "; name=\"" "\"" (some name))).toList ++
    (part.1.fileName.map fun name => .bytes (quoted "; filename=\"" "\"" (some name))).toList ++
    [.bytes crlf] ++ (part.1.mime.map fun mime => .bytes (quoted "Content-Type: " "\r\n" (some mime))).toList ++
    [.bytes crlf] ++ (part.1.body.map fun body => ⟨part.2, body, 0⟩).toList ++ [.bytes crlf]

def buildStatus (form : FormData) : MultiPartStates :=
  ⟨form.parts.flatMap (partStates form.boundary) ++ [.bytes (ascii "--" ++ form.boundary ++ ascii "--" ++ crlf)], 0, []⟩

end FormData

inductive ReadStatus where
  | never
  | reading (states : MultiPartStates)
  | finish (states : MultiPartStates)

structure FormReader where
  form : FormData
  status : ReadStatus

namespace FormReader

/-- The states that a call reads from. -/
def states (r : FormReader) : MultiPartStates :=
  match r.status with
  | .never => r.form.buildStatus
  | .reading states => states
  | .finish states => states

/-- What `poll_read` does with its states. A call that is ready without bytes is the end. -/
def pollStates (form : FormData) (room : Nat) (s : MultiPartStates) :
    Outcome FormReader Infallible (Poll (List UInt8)) :=
  match s.pollRead room with
  | .ok result s => .ok result ⟨form, if result = .ready [] then .finish s else .reading s⟩
  | .err e s => .err e ⟨form, .reading s⟩
  | .panic => .panic

def pollRead (room : Nat) (polls : List (Option Nat)) : Method FormReader Infallible (Poll (List UInt8)) := fun r =>
  match r.status with
  | .finish _ => .ok (.ready []) r
  | _ =>
    if room = 0 then .ok (.ready []) { r with status := .reading r.states }
    else pollStates r.form room { r.states with polls := polls }

def reuse (r : FormReader) : FormReader :=
  match r.status with
  | .never => r
  | .reading states => { r with status := .reading states.reuse }
  | .finish states => { r with status := .reading states.reuse }

end FormReader

inductive ReadEvent where
  | read (room : Nat) (polls : List (Option Nat))
  | reuse

/-- The reader, with what the calls since the start or the last `reuse` did: the bytes, the number
of ready calls, and whether one of them had no bytes. -/
structure Transcript where
  reader : FormReader
  out : List UInt8
  ready : Nat
  ended : Bool

namespace Transcript

def start (form : FormData) : Transcript := ⟨⟨form, .never⟩, [], 0, false⟩

def step (t : Transcript) : ReadEvent → Option Transcript
  | .read room polls =>
    match t.reader.pollRead room polls with
    | .ok (.ready out) reader => some ⟨reader, t.out ++ out, t.ready + 1, t.ended || out = []⟩
    | .ok .pending reader => some { t with reader := reader }
    | _ => none
  | .reuse => some ⟨t.reader.reuse, [], 0, false⟩

end Transcript

/-! ### What is left -/

namespace MultiPartStates

def left (s : MultiPartStates) : List UInt8 := (s.states.drop s.index).flatMap MultiPartState.left

def whole (s : MultiPartStates) : List UInt8 := s.states.flatMap MultiPartState.data

variable {s : MultiPartStates} {state : MultiPartState}

section

variable (h : s.states[s.index]? = some state) (polls : List (Option Nat))

include h

def rank (s : MultiPartStates) : Nat := s.states.length - s.index

end

end MultiPartStates

/-! ### Whole runs -/

/-- The bytes that the next calls read. -/
def FormReader.left (r : FormReader) : List UInt8 :=
  match r.status with
  | .finish _ => []
  | _ => r.states.left

namespace FormReader

/-- How a call ends: it waits, or what it reads comes off what is left, and it reads nothing only at
the end. -/
def Ends (form : FormData) (whole left : List UInt8) (x : Outcome FormReader Infallible (Poll (List UInt8))) : Prop :=
  ∃ result r', x = .ok result r' ∧ r'.form = form ∧ r'.states.whole = whole ∧ match result with
    | .pending => r'.left = left
    | .ready out => left = out ++ r'.left ∧ (out = [] → r'.left = [])

end FormReader

/-- Between two calls: the bytes read and the bytes left are those of the form. -/
structure Transcript.Sound (form : FormData) (t : Transcript) : Prop where
  same : t.reader.form = form
  whole : t.reader.states.whole = form.multiPart.bytes
  left : t.out ++ t.reader.left = form.multiPart.bytes
  ended : t.ended = true → t.reader.left = []
  ready : t.ended = false → t.ready ≤ t.out.length

namespace Transcript

variable {form : FormData} {t : Transcript}

end Transcript

end YlongHttp.Client
