/-
The decoder of response heads (`h1/response/decoder.rs`).

The decoder goes through the parts of the head, and keeps the part that the end of a
segment has cut. A field line is a cycle of five parts: name, blanks, value, line end, and
the question whether a blank line follows. The source has a loop for each part that a
segment can start with. They are one loop here, over the parts in the order of the loop.
-/

import YlongHttp.Message
import YlongHttp.H1.HeaderBytes
import YlongHttp.Rust.Outcome

namespace YlongHttp.H1

open Rust
open H2.Hpack (ascii)

inductive HeaderStage where
  | start
  | key
  | owsBefore
  | value
  | crlf
  | endCrlf
deriving DecidableEq, Repr

inductive ParseStage where
  | initial
  | version
  | statusCode
  | reason
  | statusCrlf
  | header (stage : HeaderStage)
  | blankLine
deriving DecidableEq, Repr

structure ResponseDecoder where
  stage : ParseStage
  version : Option Version
  statusCode : Option StatusCode
  headers : Option Headers
  headKey : List UInt8
  rest : List UInt8
  newLine : Bool

namespace ResponseDecoder

inductive TokenStatus (α β : Type) where
  | complete (value : α)
  | incomplete (rest : β)
deriving DecidableEq, Repr

/-! ### Tokens -/

def isValidByte (b : UInt8) : Bool := b > 0x1f && b < 0x7f

def isLegalReasonByte (b : UInt8) : Bool :=
  b == 0x09 || b == 0x20 || (0x21 ≤ b && b ≤ 0x7e) || 0x80 ≤ b

def isLineEnd (b : UInt8) : Bool := b == 0x0d || b == 0x0a

def isBlank (b : UInt8) : Bool := b == 0x20 || b == 0x09

/-- The loop of `status_token`, `decode_reason`, `get_header_name` and `get_header_value`:
the bytes in front of the first byte that ends the token, and the bytes from there on. -/
def takeToken (ends legal : UInt8 → Bool) : List UInt8 →
    Except HttpError (Option (List UInt8 × List UInt8))
  | [] => .ok none
  | b :: buffer =>
    if ends b then .ok (some ([], b :: buffer))
    else if legal b then
      match takeToken ends legal buffer with
      | .ok (some (token, unparsed)) => .ok (some (b :: token, unparsed))
      | .ok none => .ok none
      | .error e => .error e
    else .error .invalidResponse

abbrev TokenResult := Except HttpError (TokenStatus (List UInt8 × List UInt8) (List UInt8))

/-- A token whose last byte is skipped. -/
def skippingEnd (ends legal : UInt8 → Bool) (buffer : List UInt8) : TokenResult :=
  match takeToken ends legal buffer with
  | .ok (some (token, unparsed)) => .ok (.complete (token, unparsed.drop 1))
  | .ok none => .ok (.incomplete buffer)
  | .error e => .error e

def statusToken (buffer : List UInt8) : TokenResult := skippingEnd (· == 0x20) isValidByte buffer

def getHeaderName (buffer : List UInt8) : TokenResult := skippingEnd (· == 0x3a) headerNameByte buffer

def getHeaderValue (buffer : List UInt8) : TokenResult :=
  match takeToken isLineEnd headerValueByte buffer with
  | .ok (some (token, unparsed)) => .ok (.complete (token, unparsed))
  | .ok none => .ok (.incomplete buffer)
  | .error e => .error e

def decodeReason (buffer : List UInt8) : Except HttpError (Option (List UInt8)) :=
  match takeToken isLineEnd isLegalReasonByte buffer with
  | .ok (some (_, unparsed)) => .ok (some unparsed)
  | .ok none => .ok none
  | .error e => .error e

def consumeCrlf (buffer : List UInt8) (crMeet : Bool) : Except HttpError (TokenStatus (List UInt8) Nat) :=
  match buffer with
  | [] => .ok (.incomplete 0)
  | b :: bytes =>
    if b = 0x0d then
      if crMeet then .error .invalidResponse
      else
        match bytes with
        | [] => .ok (.incomplete 1)
        | c :: unparsed => if c = 0x0a then .ok (.complete unparsed) else .error .invalidResponse
    else if b = 0x0a then .ok (.complete bytes)
    else .error .invalidResponse

def trimOws : List UInt8 → Option (List UInt8)
  | [] => none
  | b :: buffer => if isBlank b then trimOws buffer else some (b :: buffer)

def versionFromBytes (value : List UInt8) : Except HttpError Version :=
  if value = ascii "HTTP/1.0" then .ok .http10
  else if value = ascii "HTTP/1.1" then .ok .http11
  else .error .invalidResponse

def statusFromBytes (value : List UInt8) : Except HttpError StatusCode :=
  match StatusCode.fromBytes value with
  | .ok status => .ok status
  | .error _ => .error .invalidResponse

/-! ### The status line -/

def new : ResponseDecoder := ⟨.initial, none, none, none, [], [], false⟩

def takeValue (value : List UInt8) : Method ResponseDecoder HttpError (List UInt8) := do
  let d ← get
  if d.rest ≠ [] then
    set { d with rest := [] }
    return d.rest ++ value
  else return value

def decodeVersionToken (value : List UInt8) : Method ResponseDecoder HttpError Version := do
  if (← get).rest = [] then Method.ofExcept (versionFromBytes value)
  else
    let version ← takeValue value
    Method.ofExcept (versionFromBytes version)

def decodeStatusToken (value : List UInt8) : Method ResponseDecoder HttpError StatusCode := do
  if (← get).rest = [] then Method.ofExcept (statusFromBytes value)
  else
    let status ← takeValue value
    Method.ofExcept (statusFromBytes status)

def decodeStatusCrlf (buffer : List UInt8) : Method ResponseDecoder HttpError (Option (List UInt8)) := do
  let crMeet := (← get).newLine
  modify fun d => { d with newLine := false }
  match ← Method.ofExcept (consumeCrlf buffer crMeet) with
  | .complete unparsed =>
    modify fun d => { d with newLine := false }
    return some unparsed
  | .incomplete 0 => return none
  | .incomplete 1 =>
    modify fun d => { d with newLine := true }
    return none
  | .incomplete _ => throw .invalidResponse

/-! ### Field lines -/

/-- `header_insert`. The bytes have been checked when they were read; a byte that was not
would be undefined behaviour. -/
def headerInsert (name value : List UInt8) (headers : Headers) : Method ResponseDecoder HttpError Headers :=
  if h : (∀ b ∈ name, headerNameByte b = true) ∧ ∀ b ∈ value, headerValueByte b = true then
    return headers.appendValidatedH1 name value h.1 h.2
  else Method.panicked

def decodeOws (buffer : List UInt8) : Method ResponseDecoder HttpError (Option (List UInt8)) := do
  modify fun d => { d with stage := .header .owsBefore }
  return trimOws buffer

def decodeKey (buffer : List UInt8) : Method ResponseDecoder HttpError (Option (List UInt8)) := do
  modify fun d => { d with stage := .header .key }
  match ← Method.ofExcept (getHeaderName buffer) with
  | .complete (key, unparsed) =>
    if (← get).rest ≠ [] then modify fun d => { d with headKey := d.rest ++ key, rest := [] }
    else modify fun d => { d with headKey := key }
    return some unparsed
  | .incomplete rest =>
    modify fun d => { d with rest := d.rest ++ rest }
    return none

def decodeValue (buffer : List UInt8) : Method ResponseDecoder HttpError (Option (List UInt8)) := do
  modify fun d => { d with stage := .header .value }
  match ← Method.ofExcept (getHeaderValue buffer) with
  | .complete (value, unparsed) =>
    let completeValue ← takeValue value
    let headKey := (← get).headKey
    let headers := (← get).headers
    modify fun d => { d with headKey := [], headers := none }
    match headers with
    | none => Method.panicked
    | some headers =>
      let headers ← headerInsert headKey (completeValue.rdropWhile isBlank) headers
      modify fun d => { d with headers := some headers }
      return some unparsed
  | .incomplete rest =>
    modify fun d => { d with rest := d.rest ++ rest }
    return none

/-- `decode_crlf`. All callers pass `false` for `cr_meet`. -/
def decodeCrlf (crMeet : Bool) (buffer : List UInt8) : Method ResponseDecoder HttpError (Option (List UInt8)) := do
  modify fun d => { d with stage := .header .crlf }
  match ← Method.ofExcept (consumeCrlf buffer crMeet) with
  | .complete unparsed =>
    modify fun d => { d with newLine := false }
    return some unparsed
  | .incomplete step =>
    if step = 1 then modify fun d => { d with newLine := true }
    return none

/-- The parts of the cycle of a field line. -/
inductive Phase where
  | key
  | ows
  | value
  | crlf
  | blank
deriving DecidableEq, Repr

/-- How a part ends: with the next part, with a wait for more bytes, or in front of the
blank line. -/
inductive Flow where
  | next (buffer : List UInt8)
  | wait
  | blank (buffer : List UInt8)
deriving DecidableEq, Repr

/-- `get_unparsed_or_return`. -/
def unparsedOrReturn (part : Method ResponseDecoder HttpError (Option (List UInt8))) :
    Method ResponseDecoder HttpError Flow := do
  match ← part with
  | some unparsed => return .next unparsed
  | none => return .wait

/-- `detect_blank_and_return`. -/
def detectBlankAndReturn (buffer : List UInt8) : Method ResponseDecoder HttpError Flow :=
  match buffer with
  | [] => do
    modify fun d => { d with stage := .header .endCrlf }
    return .wait
  | b :: _ => if isLineEnd b then return .blank buffer else return .next buffer

def Phase.decode : Phase → List UInt8 → Method ResponseDecoder HttpError Flow
  | .key, buffer => unparsedOrReturn (decodeKey buffer)
  | .ows, buffer => unparsedOrReturn (decodeOws buffer)
  | .value, buffer => unparsedOrReturn (decodeValue buffer)
  | .crlf, buffer => unparsedOrReturn (decodeCrlf false buffer)
  | .blank, buffer => detectBlankAndReturn buffer

/-- The body of a loop. -/
def decodeRound : List Phase → List UInt8 → Method ResponseDecoder HttpError Flow
  | [], buffer => return .next buffer
  | phase :: phases, buffer => do
    match ← phase.decode buffer with
    | .next unparsed => decodeRound phases unparsed
    | flow => return flow

def decodeLoop (phases : List Phase) : Nat → List UInt8 →
    Method ResponseDecoder HttpError (Option (List UInt8))
  | 0, _ => Method.panicked
  | fuel + 1, buffer => do
    match ← decodeRound phases buffer with
    | .next unparsed => decodeLoop phases fuel unparsed
    | .wait => return none
    | .blank unparsed => return some unparsed

def decodeHeaderFromValue (buffer : List UInt8) : Method ResponseDecoder HttpError (Option (List UInt8)) :=
  decodeLoop [.value, .crlf, .blank, .key, .ows] (buffer.length + 1) buffer

def decodeHeaderFromKey (buffer : List UInt8) : Method ResponseDecoder HttpError (Option (List UInt8)) :=
  decodeLoop [.key, .ows, .value, .crlf, .blank] (buffer.length + 1) buffer

def decodeHeaderFromOwsBefore (buffer : List UInt8) : Method ResponseDecoder HttpError (Option (List UInt8)) :=
  decodeLoop [.ows, .value, .crlf, .blank, .key] (buffer.length + 1) buffer

def decodeHeaderFromCrlf (buffer : List UInt8) : Method ResponseDecoder HttpError (Option (List UInt8)) :=
  decodeLoop [.crlf, .blank, .key, .ows, .value] (buffer.length + 1) buffer

def decodeHeaderFromCrlfEnd (buffer : List UInt8) : Method ResponseDecoder HttpError (Option (List UInt8)) :=
  decodeLoop [.blank, .key, .ows, .value, .crlf] (buffer.length + 1) buffer

def decodeHeader (buffer : List UInt8) : Method ResponseDecoder HttpError (Option (List UInt8)) := do
  match (← get).stage with
  | .header .start =>
    match buffer with
    | [] => return none
    | b :: _ => if isLineEnd b then return some buffer else decodeHeaderFromKey buffer
  | .header .key => decodeHeaderFromKey buffer
  | .header .owsBefore => decodeHeaderFromOwsBefore buffer
  | .header .value => decodeHeaderFromValue buffer
  | .header .crlf => decodeHeaderFromCrlf buffer
  | .header .endCrlf => decodeHeaderFromCrlfEnd buffer
  | _ => throw .invalidResponse

/-! ### The phases -/

abbrev Head := Option (ResponsePart × List UInt8)

def blankLinePhase (buffer : List UInt8) : Method ResponseDecoder HttpError Head := do
  modify fun d => { d with stage := .blankLine }
  match ← decodeStatusCrlf buffer with
  | some unparsed =>
    let d ← get
    set { d with version := none, statusCode := none, headers := none }
    match d.version, d.statusCode, d.headers with
    | some version, some status, some headers => return some (⟨version, status, headers⟩, unparsed)
    | _, _, _ => Method.panicked
  | none => return none

def headerPhase (buffer : List UInt8) : Method ResponseDecoder HttpError Head := do
  match ← decodeHeader buffer with
  | some unparsed => blankLinePhase unparsed
  | none => return none

def headerPhaseWithInit (buffer : List UInt8) : Method ResponseDecoder HttpError Head := do
  modify fun d => { d with headers := some ∅ }
  match buffer with
  | [] =>
    modify fun d => { d with stage := .header .start }
    return none
  | b :: _ =>
    if isLineEnd b then blankLinePhase buffer
    else
      modify fun d => { d with stage := .header .key }
      match ← decodeHeader buffer with
      | some unparsed => blankLinePhase unparsed
      | none => return none

def statusCrlfPhase (buffer : List UInt8) : Method ResponseDecoder HttpError Head := do
  modify fun d => { d with stage := .statusCrlf }
  match ← decodeStatusCrlf buffer with
  | some unparsed => headerPhaseWithInit unparsed
  | none => return none

def reasonPhase (buffer : List UInt8) : Method ResponseDecoder HttpError Head := do
  modify fun d => { d with stage := .reason }
  match ← Method.ofExcept (decodeReason buffer) with
  | some unparsed => statusCrlfPhase unparsed
  | none => return none

def statusCodePhase (buffer : List UInt8) : Method ResponseDecoder HttpError Head := do
  modify fun d => { d with stage := .statusCode }
  match ← Method.ofExcept (statusToken buffer) with
  | .complete (code, unparsed) =>
    let status ← decodeStatusToken code
    modify fun d => { d with statusCode := some status }
    reasonPhase unparsed
  | .incomplete rest =>
    modify fun d => { d with rest := d.rest ++ rest }
    return none

def versionPhase (buffer : List UInt8) : Method ResponseDecoder HttpError Head := do
  modify fun d => { d with stage := .version }
  match ← Method.ofExcept (statusToken buffer) with
  | .complete (version, unparsed) =>
    let version ← decodeVersionToken version
    modify fun d => { d with version := some version }
    statusCodePhase unparsed
  | .incomplete rest =>
    modify fun d => { d with rest := d.rest ++ rest }
    return none

def decode (buf : List UInt8) : Method ResponseDecoder HttpError Head := do
  match (← get).stage with
  | .initial => versionPhase buf
  | .version => versionPhase buf
  | .statusCode => statusCodePhase buf
  | .reason => reasonPhase buf
  | .statusCrlf => statusCrlfPhase buf
  | .header _ => headerPhase buf
  | .blankLine => blankLinePhase buf

end ResponseDecoder

end YlongHttp.H1
