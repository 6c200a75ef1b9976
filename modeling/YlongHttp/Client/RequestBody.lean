/-
The bodies of requests and their framing (`async_impl/request.rs`, `body/mime/simple.rs`,
`request_body_encoding` of `async_impl/conn/http1.rs`).

The builder writes the length of the body to `Content-Length`. A redirect with 301, 302 or 303
removes the field, with `Transfer-Encoding`, but the body is rewound and sent again, and its
encoding is chosen without the field. So a message is self-delimiting exactly if its body is
empty or no such answer came before it (`selfDelimiting_iff_keepsFraming`).
-/

import YlongHttp.Client.Origin
import YlongHttp.Body.ChunkReaders

namespace YlongHttp.Client

open Rust Body List
open H2.Hpack (ascii)

/-! ### Bodies -/

/-- A part of form data. The body is what is read from it. -/
structure FormPart where
  name : Option (List UInt8)
  fileName : Option (List UInt8)
  mime : Option (List UInt8)
  length : Option Nat
  body : Option (List UInt8)

def crlf : List UInt8 := [0x0d, 0x0a]

/-- An optional text between two others. -/
def quoted (before behind : String) (text : Option (List UInt8)) : List UInt8 :=
  match text with
  | some text => ascii before ++ text ++ ascii behind
  | none => []

structure MultiPart where
  parts : List FormPart
  boundary : List UInt8

namespace MultiPart

/-- The states that `build_status` makes for a part, one after the other. -/
def partBytes (boundary : List UInt8) (part : FormPart) : List UInt8 :=
  ascii "--" ++ boundary ++ crlf ++ ascii "Content-Disposition: form-data" ++ quoted "; name=\"" "\"" part.name ++
    quoted "; filename=\"" "\"" part.fileName ++ crlf ++ quoted "Content-Type: " "\r\n" part.mime ++ crlf ++
    part.body.getD [] ++ crlf

def bytes (m : MultiPart) : List UInt8 :=
  (m.parts.map (partBytes m.boundary)).flatten ++ (ascii "--" ++ m.boundary ++ ascii "--" ++ crlf)

/-- What `total_bytes` adds for a part besides its length. -/
def overhead (boundary : List UInt8) (part : FormPart) : Nat :=
  2 + boundary.length + 2 + 30 + (part.name.map (9 + ·.length)).getD 0 + (part.fileName.map (13 + ·.length)).getD 0 +
    2 + (part.mime.map (16 + ·.length)).getD 0 + 2 + 2

def totalBytes (m : MultiPart) : Option Nat := do
  let size ← m.parts.foldlM (fun size part => part.length.map (size + · + overhead m.boundary part)) 0
  return size + (2 + m.boundary.length + 4)

end MultiPart

/-- The kinds of bodies with the place that has been read to. -/
inductive RequestBody where
  | empty
  | slice (data : List UInt8) (position : Nat)
  | multipart (form : MultiPart) (position : Nat)

namespace RequestBody

def isEmpty : RequestBody → Bool
  | .empty => true
  | .slice data position => data.length == position
  | .multipart _ _ => false

def reuse : RequestBody → RequestBody
  | .empty => .empty
  | .slice data _ => .slice data 0
  | .multipart form _ => .multipart form 0

def seek (position : Nat) : RequestBody → RequestBody
  | .empty => .empty
  | .slice data _ => .slice data position
  | .multipart form _ => .multipart form position

/-- What is still to be read. -/
def rest : RequestBody → List UInt8
  | .empty => []
  | .slice data position => data.drop position
  | .multipart form position => form.bytes.drop position

/-- The length that the builder writes to `Content-Length`. -/
def declared : RequestBody → Option Nat
  | .empty => none
  | .slice data _ => some data.length
  | .multipart form _ => form.totalBytes

theorem reuse_seek (body : RequestBody) (position : Nat) : (body.seek position).reuse = body.reuse := by
  cases body <;> rfl

theorem reuse_reuse (body : RequestBody) : body.reuse.reuse = body.reuse := by
  cases body <;> rfl

end RequestBody

/-- The type that the builder gives to form data. -/
def RequestBuilder.typed (headers : Headers) : RequestBody → Except HeaderError Headers
  | .multipart form _ =>
    headers.insertField (ascii "Content-Type") (ascii "multipart/form-data; boundary=" ++ form.boundary)
  | _ => .ok headers

/-- `RequestBuilder::body`, for a request whose other parts are valid. -/
def RequestBuilder.body (part : RequestPart) (body : RequestBody) : Except HeaderError RequestPart :=
  match RequestBuilder.typed part.headers body with
  | .error e => .error e
  | .ok headers =>
    match body.declared with
    | none => .ok { part with headers := headers }
    | some length =>
      match headers.insertField (ascii "Content-Length") (decimalText length) with
      | .error e => .error e
      | .ok headers => .ok { part with headers := headers }

variable {n : Nat} {m : HttpMessage}

theorem contentLength_value {map map' : Headers}
    (h : map.insertField (ascii "Content-Length") (decimalText n) = .ok map') :
    ∃ value, map'.get (ascii "content-length") = some value ∧ value.inner = [decimalText n] := by
  have hsame : HeaderName.fromBytes (ascii "content-length") = HeaderName.fromBytes (ascii "Content-Length") :=
    HeaderName.fromBytes_congr (by decide)
  rw [Headers.insertField] at h
  rw [Headers.get, hsame]
  cases hname : HeaderName.fromBytes (ascii "Content-Length") with
  | error e =>
    rw [hname] at h
    cases h
  | ok name =>
    rw [hname, HeaderValue.fromBytes] at h
    by_cases hvalue : ∀ b ∈ decimalText n, ValidByte b
    · rw [dif_pos hvalue] at h
      cases h
      exact ⟨_, AList.lookup_insert map, rfl⟩
    · rw [dif_neg hvalue] at h
      cases h

/-! ### Messages -/

/-- A transfer of the body: what the reads of the encoder get, the buffers it is given, and the
place where it stops. -/
structure Transfer where
  reader : FromAsyncReader
  rooms : Nat → Nat
  rooms_pos : ∀ k, 0 < rooms k
  position : Nat

def Transfer.Fits (transfer : Transfer) (body : RequestBody) : Prop :=
  (piecesOf transfer.reader.answers).flatten = body.rest

inductive RequestBodyEncoding where
  | none
  | text
  | chunk
deriving DecidableEq, Repr

def mentionsChunked (part : RequestPart) : Bool :=
  match part.headers.get (ascii "transfer-encoding") with
  | some value => headerValueContains value (ascii "chunked")
  | none => false

def requestBodyEncoding (part : RequestPart) (body : RequestBody) : RequestBodyEncoding :=
  if mentionsChunked part then .chunk else if body.isEmpty then .none else .text

abbrev HttpMessage := Message RequestBody Transfer

/-- The bytes behind the head: none, everything that is read, or what the chunk encoder makes of
it. -/
def Message.Writes (m : HttpMessage) (out : List UInt8) : Prop :=
  match requestBodyEncoding m.part m.body with
  | .none => out = []
  | .text => out = m.body.rest
  | .chunk => PollProduces FromAsyncReader.pollData m.transfer.rooms (FromAsyncReader.chunkBody m.transfer.reader) out

/-- The last of the codings that are separated by commas, in lower case and without blanks. -/
def finalCoding (text : List UInt8) : List UInt8 :=
  ((text.reverse.takeWhile (· != 0x2c)).filter fun b => b != 0x20 && b != 0x09).reverse.map headerChar

def Announced (part : RequestPart) : Prop :=
  ∃ value, part.headers.get (ascii "transfer-encoding") = some value ∧ finalCoding value.toText = ascii "chunked"

def ContentLength (part : RequestPart) (n : Nat) : Prop :=
  ∃ value, part.headers.get (ascii "content-length") = some value ∧ value.inner = [decimalText n]

theorem contentLength_built {part built : RequestPart} {body : RequestBody} (hdeclared : body.declared = some n)
    (h : RequestBuilder.body part body = .ok built) : ContentLength built n := by
  rw [RequestBuilder.body, hdeclared] at h
  split at h
  next => cases h
  next =>
    dsimp only at h
    split at h
    next => cases h
    next headers hinsert =>
      cases h
      exact contentLength_value hinsert

/-- A body in plain bytes has the length in the head, a body in chunks is complete and announced. -/
def Message.SelfDelimiting (m : HttpMessage) : Prop :=
  ∃ out, m.Writes out ∧ match requestBodyEncoding m.part m.body with
    | .none => out = []
    | .text => ContentLength m.part out.length
    | .chunk => Announced m.part ∧ ChunkedBody usizeBound out m.body.rest

/-- The reads give whole windows up to a shorter one, and no buffer ends inside the size of the
last window. -/
def Transfer.WholeWindows (transfer : Transfer) : Prop :=
  ∃ front last, piecesOf transfer.reader.answers = front ++ [last] ∧ (∀ p ∈ front, p.length = chunkSize) ∧
    last.length < chunkSize ∧ ¬ SizeCut transfer.rooms front.length (readWindows transfer.reader.answers)

/-- The framing of a request that has the fields of its builder. -/
def Opens (part : RequestPart) (body : RequestBody) : Prop :=
  if mentionsChunked part then Announced part else body.isEmpty = true ∨ body.declared = some body.rest.length

def Chunks (part : RequestPart) (transfer : Transfer) : Prop := mentionsChunked part = true → transfer.WholeWindows

theorem selfDelimiting_chunk (hfits : m.transfer.Fits m.body) (h : mentionsChunked m.part = true) :
    m.SelfDelimiting ↔ Announced m.part ∧ m.transfer.WholeWindows := by
  have hencoding : requestBodyEncoding m.part m.body = .chunk := by rw [requestBodyEncoding, if_pos h]
  have hchunked := m.transfer.reader.chunkedBody_iff m.transfer.rooms_pos
  rw [hfits] at hchunked
  simp only [Message.SelfDelimiting, Message.Writes, hencoding]
  constructor
  · rintro ⟨out, hout, hannounced, hbody⟩
    exact ⟨hannounced, hchunked.mp ⟨out, hout, hbody⟩⟩
  · rintro ⟨hannounced, hwhole⟩
    obtain ⟨out, hout, hbody⟩ := hchunked.mpr hwhole
    exact ⟨out, hout, hannounced, hbody⟩

theorem selfDelimiting_plain (h : mentionsChunked m.part = false) :
    m.SelfDelimiting ↔ m.body.isEmpty = true ∨ ContentLength m.part m.body.rest.length := by
  cases hempty : m.body.isEmpty with
  | true =>
    have hencoding : requestBodyEncoding m.part m.body = .none := by
      rw [requestBodyEncoding, h, hempty]
      rfl
    simp only [Message.SelfDelimiting, Message.Writes, hencoding]
    exact ⟨fun _ => .inl trivial, fun _ => ⟨[], rfl, rfl⟩⟩
  | false =>
    have hencoding : requestBodyEncoding m.part m.body = .text := by
      rw [requestBodyEncoding, h, hempty]
      rfl
    simp only [Message.SelfDelimiting, Message.Writes, hencoding]
    constructor
    · rintro ⟨out, rfl, hlength⟩
      exact .inr hlength
    · rintro (hfalse | hlength)
      · cases hfalse
      · exact ⟨m.body.rest, rfl, hlength⟩

/-- A message with the fields of its builder. -/
theorem selfDelimiting_of_fields (hfits : m.transfer.Fits m.body)
    (hdeclared : m.body.declared = some n) (hlength : ContentLength m.part n) :
    m.SelfDelimiting ↔ Opens m.part m.body ∧ Chunks m.part m.transfer := by
  rw [Opens, Chunks]
  cases hmentions : mentionsChunked m.part with
  | true =>
    rw [selfDelimiting_chunk hfits hmentions]
    exact and_congr_right fun _ => ⟨fun hwhole _ => hwhole, fun hwhole => hwhole rfl⟩
  | false =>
    rw [selfDelimiting_plain hmentions]
    have hlengths : ContentLength m.part m.body.rest.length ↔ m.body.declared = some m.body.rest.length := by
      obtain ⟨value, hvalue, hinner⟩ := hlength
      constructor
      · rintro ⟨value', hvalue', hinner'⟩
        obtain rfl := Option.some.inj (hvalue.symm.trans hvalue')
        rw [hdeclared, decimalText_injective (singleton_inj.mp (hinner.symm.trans hinner'))]
      · intro heq
        obtain rfl := Option.some.inj (hdeclared.symm.trans heq)
        exact ⟨value, hvalue, hinner⟩
    rw [hlengths]
    exact ⟨fun h => ⟨h, fun hfalse => by cases hfalse⟩, fun h => h.1⟩

/-! ### Runs -/

/-- The fields that say where a message ends. -/
def framingHeaders : List (List UInt8) := [ascii "transfer-encoding", ascii "content-length"]

def http1Client (tls : Bool) (strategy : Strategy) : Config RequestBody Transfer :=
  ⟨tls, strategy, fun transfer body => body.seek transfer.position, RequestBody.reuse⟩

namespace Event

variable {τ : Type}

def transfer : Event τ → τ
  | .response _ _ transfer => transfer
  | .retry transfer => transfer

/-- An answer with 301, 302 or 303. -/
def rewrites : Event τ → Bool
  | .response part _ _ => Client.rewrites part.status
  | .retry _ => false

end Event

section Sends

variable {β τ : Type} {client : Config β τ} {s s' : Chain β τ} {newest : Message β τ}

/-- The step hands a message to a connection. -/
def Config.Sends (client : Config β τ) (s : Chain β τ) : Event τ → Prop
  | .response part proceed _ => proceed = true ∧ ∃ target uri,
      followed client.strategy part s.request s.info = some target ∧ UriFormatter.format client.tls target = .ok uri
  | .retry _ => ∃ uri, UriFormatter.format client.tls s.request.uri = .ok uri

theorem get_answered {name : List UInt8} (h : name ∈ framingHeaders) (response : ResponsePart) (request : RequestPart) :
    (answered response request).headers.get name =
      if rewrites response.status then none else request.headers.get name := by
  have hmem : ∀ name ∈ framingHeaders, name ∈ updatedHeaders := by decide +kernel
  rw [answered, rewritten]
  split
  next => exact Headers.get_removeAll_of_mem (hmem name h) request.headers
  next =>
    split
    next => rfl
    next => rfl

theorem get_follow {name : List UInt8} (h : name ∈ framingHeaders) (previous : Option Uri) (target : Uri)
    (request : RequestPart) : (follow previous target request).headers.get name = request.headers.get name := by
  have hne : ∀ name ∈ framingHeaders, ∀ other ∈ sensitiveHeaders, other.map headerChar ≠ name.map headerChar := by
    decide +kernel
  unfold follow
  split
  next =>
    split
    next => exact Headers.get_removeAll_of_ne (hne name h) request.headers
    next => rfl
  next => rfl

/-- What a step that starts from the fields `fields` leaves, given whether it sends. -/
structure Config.Leaves (client : Config β τ) (s : Chain β τ) (sends : Prop) (transfer : τ)
    (fields : List UInt8 → Option HeaderValue) (s' : Chain β τ) : Prop where
  fields : ∀ name ∈ framingHeaders, s'.request.headers.get name = fields name
  body : s'.body = s.body ∨ s'.body = client.reuse s.body ∨ s'.body = client.consume transfer (client.reuse s.body)
  sent : sends → s'.sent = ⟨s'.request, client.reuse s.body, transfer⟩ :: s.sent
  idle : ¬ sends → s'.sent = s.sent

theorem leaves_send (client : Config β τ) (old s : Chain β τ) (hok : ¬ Refused s.request)
    (hbody : s.body = client.reuse old.body) (hsent : s.sent = old.sent) (transfer : τ) :
    client.Leaves old (∃ uri, UriFormatter.format client.tls s.request.uri = .ok uri) transfer
      s.request.headers.get (client.send transfer s) := by
  have hfree : ∀ name ∈ framingHeaders, NotFormatted name := by decide +kernel
  rcases client.send_cases transfer s with ⟨part, hformat, heq⟩ | ⟨part, ⟨e, hformat⟩, heq⟩
  · rw [heq]
    refine ⟨fun name hname => (formatted_of_ok hformat).headers (hfree name hname), .inr (.inr ?_), fun _ => ?_, fun hno => ?_⟩
    · rw [← hbody]
    · rw [← hbody, ← hsent]
    · exact absurd ⟨_, (uri_of_format hformat).1⟩ hno
  · obtain rfl := not_refused_of_err hok hformat
    rw [heq]
    refine ⟨fun _ _ => rfl, .inr (.inl hbody), ?_, fun _ => hsent⟩
    rintro ⟨uri, huri⟩
    obtain ⟨part', hok', -⟩ := format_of_uri hok huri
    cases hok'.symm.trans hformat

theorem leaves_step {event : Event τ} (h : s.Tracks newest) (hstep : client.step s event = some s') :
    client.Leaves s (client.Sends s event) event.transfer
      (fun name => if event.rewrites then none else s.request.headers.get name) s' := by
  cases client.does_of_step hstep with
  | answer _ hstay _ =>
    refine ⟨fun name hname => get_answered hname _ _, .inl rfl, ?_, fun _ => rfl⟩
    rintro ⟨-, target, uri, hnext, -⟩
    cases hstay.symm.trans hnext
  | @link part proceed transfer info target hphase hnext =>
    have hfields : ∀ name ∈ framingHeaders,
        (follow (some s.request.uri) target (answered part s.request)).headers.get name =
          if rewrites part.status then none else s.request.headers.get name :=
      fun name hname => (get_follow hname _ _ _).trans (get_answered hname part s.request)
    cases proceed with
    | false =>
      refine ⟨hfields, .inl rfl, ?_, fun _ => rfl⟩
      rintro ⟨hfalse, -⟩
      cases hfalse
    | true =>
      have hok : ¬ Refused (follow (some s.request.uri) target (answered part s.request)) := by
        rw [refused_follow]
        exact not_refused_answered h.accepted
      have hleaves := leaves_send client s { s with
        request := follow (some s.request.uri) target (answered part s.request)
        info := info
        phase := .idle
        body := client.reuse s.body } hok rfl rfl transfer
      refine ⟨fun name hname => (hleaves.fields name hname).trans (hfields name hname), hleaves.body, ?_, ?_⟩
      · rintro ⟨-, target', uri, hnext', huri⟩
        obtain rfl := Option.some.inj (hnext.symm.trans hnext')
        exact hleaves.sent ⟨uri, by rwa [follow_uri]⟩
      · intro hno
        refine hleaves.idle ?_
        rintro ⟨uri, huri⟩
        exact hno ⟨rfl, target, uri, hnext, by rwa [follow_uri] at huri⟩
  | @retry transfer _ =>
    exact leaves_send client s { s with info := ⟨[]⟩, phase := .idle, body := client.reuse s.body } h.accepted rfl rfl transfer

end Sends

/-- After an answer with 301, 302 or 303 a message is sent only with an empty body; other messages
with a body in chunks read it in whole windows. -/
def Config.KeepsFraming (client : Config RequestBody Transfer) (s : Chain RequestBody Transfer)
    (event : Event Transfer) : Prop :=
  client.Sends s event →
    if event.rewrites = true ∨ s.request.headers.get (ascii "content-length") = none then s.body.reuse.isEmpty = true
    else Chunks s.request event.transfer

/-- The framing fields are those of the builder, or gone. -/
structure Chain.Framed (built : RequestPart) (body : RequestBody) (s : Chain RequestBody Transfer) : Prop where
  tracked : s.Tracked
  fields : (∀ name ∈ framingHeaders, s.request.headers.get name = built.headers.get name) ∨
    ∀ name ∈ framingHeaders, s.request.headers.get name = none
  body : s.body.reuse = body

section Framed

variable {tls : Bool} {strategy : Strategy} {built part : RequestPart} {body : RequestBody} {n : Nat}
  {s s' : Chain RequestBody Transfer} {event : Event Transfer}

theorem framed_step (h : s.Framed built body) (hstep : (http1Client tls strategy).step s event = some s') :
    s'.Framed built body := by
  obtain ⟨newest, htracks⟩ := h.tracked
  have hleaves := leaves_step htracks hstep
  refine ⟨tracked_step h.tracked hstep, ?_, ?_⟩
  · cases hrewrites : event.rewrites with
    | true =>
      refine .inr fun name hname => (hleaves.fields name hname).trans ?_
      rw [hrewrites]
      rfl
    | false =>
      have hsame : ∀ name ∈ framingHeaders, s'.request.headers.get name = s.request.headers.get name := by
        intro name hname
        rw [hleaves.fields name hname, hrewrites]
        rfl
      exact h.fields.imp (fun h name hname => (hsame name hname).trans (h name hname))
        fun h name hname => (hsame name hname).trans (h name hname)
  · rcases hleaves.body with heq | heq | heq
    · rw [heq, h.body]
    · rw [heq, ← h.body]
      exact s.body.reuse_reuse
    · rw [heq, ← h.body]
      exact (s.body.reuse.reuse_seek event.transfer.position).trans s.body.reuse_reuse

section

variable {a b : RequestPart}
  (h : a.headers.get (ascii "transfer-encoding") = b.headers.get (ascii "transfer-encoding"))

include h

theorem mentionsChunked_congr : mentionsChunked a = mentionsChunked b := by
  rw [mentionsChunked, mentionsChunked, h]

theorem opens_congr : Opens a body ↔ Opens b body := by
  rw [Opens, Opens, mentionsChunked_congr h, Announced, Announced, h]

end

/-- A message that has lost its fields. -/
theorem selfDelimiting_of_none {m : HttpMessage} (h : ∀ name ∈ framingHeaders, m.part.headers.get name = none) :
    m.SelfDelimiting ↔ m.body.isEmpty = true := by
  have hplain : mentionsChunked m.part = false := by
    rw [mentionsChunked, h (ascii "transfer-encoding") (by decide)]
  rw [selfDelimiting_plain hplain]
  refine or_iff_left ?_
  rintro ⟨value, hvalue, -⟩
  cases (h (ascii "content-length") (by decide)).symm.trans hvalue

/-- A step keeps the messages self-delimiting exactly if it keeps the framing. -/
theorem selfDelimiting_step (h : s.Framed built body) (hsent : ∀ m ∈ s.sent, m.SelfDelimiting) (hopens : Opens built body)
    (hdeclared : body.declared = some n) (hlength : ContentLength built n) (hfits : event.transfer.Fits body)
    (hstep : (http1Client tls strategy).step s event = some s') :
    (∀ m ∈ s'.sent, m.SelfDelimiting) ↔ (http1Client tls strategy).KeepsFraming s event := by
  obtain ⟨newest, htracks⟩ := h.tracked
  have hleaves := leaves_step htracks hstep
  by_cases hsends : (http1Client tls strategy).Sends s event
  · have hnew : (∀ m ∈ s'.sent, m.SelfDelimiting) ↔
        Message.SelfDelimiting (⟨s'.request, body, event.transfer⟩ : HttpMessage) := by
      rw [hleaves.sent hsends, forall_mem_cons, ← h.body]
      exact and_iff_left hsent
    rw [hnew, Config.KeepsFraming, forall_prop_of_true hsends]
    split
    next hgone =>
      rw [h.body]
      refine selfDelimiting_of_none fun name hname => (hleaves.fields name hname).trans ?_
      split
      next => rfl
      next hrewrites =>
        -- without the field of the builder there is no other one either
        rcases h.fields with hbuilt | hnone
        · obtain ⟨value, hvalue, -⟩ := hlength
          have hcl := (hbuilt (ascii "content-length") (by decide)).trans hvalue
          rcases hgone with hrewrites' | hcl'
          · exact absurd hrewrites' hrewrites
          · cases hcl'.symm.trans hcl
        · exact hnone name hname
    next hkept =>
      rw [not_or, Bool.not_eq_true] at hkept
      have hsame : ∀ name ∈ framingHeaders, s'.request.headers.get name = s.request.headers.get name := by
        intro name hname
        rw [hleaves.fields name hname, hkept.1]
        rfl
      rcases h.fields with hbuilt | hnone
      · have hfields := fun name hname => (hsame name hname).trans (hbuilt name hname)
        have hlength' : ContentLength s'.request n := by
          rw [ContentLength, hfields _ (by decide)]
          exact hlength
        refine (selfDelimiting_of_fields (m := ⟨s'.request, body, event.transfer⟩) hfits hdeclared hlength').trans ?_
        rw [opens_congr (hfields _ (by decide)), Chunks, mentionsChunked_congr (hsame _ (by decide))]
        exact and_iff_right hopens
      · exact absurd (hnone _ (by decide)) hkept.2
  · rw [hleaves.idle hsends]
    exact ⟨fun _ h => absurd h hsends, fun _ => hsent⟩

/-- Every message of a run is self-delimiting exactly if the request is framed as its builder
declares and every step keeps the framing. -/
theorem selfDelimiting_iff_keepsFraming {transfer : Transfer} {first last : Chain RequestBody Transfer}
    {events : List (Event Transfer)} (hknown : body.declared.isSome) (hnew : body.reuse = body)
    (hbuilt : RequestBuilder.body part body = .ok built)
    (hstart : (http1Client tls strategy).start built body transfer = some first)
    (hrun : run (http1Client tls strategy).step events first = some last) (hfirst : transfer.Fits body)
    (hfits : ∀ event ∈ events, event.transfer.Fits body) :
    (∀ done s, done <+: events → run (http1Client tls strategy).step done first = some s → ∀ m ∈ s.sent, m.SelfDelimiting) ↔
      (Opens built body ∧ Chunks built transfer) ∧
        Along (http1Client tls strategy).step (http1Client tls strategy).KeepsFraming events first := by
  obtain ⟨n, hdeclared⟩ := Option.isSome_iff_exists.mp hknown
  have hlength := contentLength_built hdeclared hbuilt
  have htracked := (start_confined hstart).2
  obtain ⟨part', hformat, rfl⟩ := Config.start_cases _ hstart
  have hfree : ∀ name ∈ framingHeaders, NotFormatted name := by decide +kernel
  have hfields := fun name hname => (formatted_of_ok hformat).headers (hfree name hname)
  have hframed : Chain.Framed built body ⟨part', body.seek transfer.position, ⟨[]⟩, .awaiting, [⟨part', body, transfer⟩]⟩ :=
    ⟨htracked, .inl hfields, (body.reuse_seek _).trans hnew⟩
  -- the first message
  have hopening : (⟨part', body, transfer⟩ : HttpMessage).SelfDelimiting ↔ Opens built body ∧ Chunks built transfer := by
    have hlength' : ContentLength part' n := by
      rw [ContentLength, hfields _ (by decide)]
      exact hlength
    refine (selfDelimiting_of_fields (m := ⟨part', body, transfer⟩) hfirst hdeclared hlength').trans ?_
    rw [opens_congr (hfields _ (by decide)), Chunks, Chunks, mentionsChunked_congr (hfields _ (by decide))]
  have hpoints : Opens built body ∧ Chunks built transfer → _ := fun hopens =>
    points_iff (I := fun s : Chain RequestBody Transfer => (∀ m ∈ s.sent, m.SelfDelimiting) ∧ s.Framed built body)
      (P := (http1Client tls strategy).KeepsFraming) (Q := fun _ event => event.transfer.Fits body)
      (fun hI hfits hstep =>
        ⟨fun hs' => (selfDelimiting_step hI.2 hI.1 hopens.1 hdeclared hlength hfits hstep).mp hs'.1,
          fun hkeeps => ⟨(selfDelimiting_step hI.2 hI.1 hopens.1 hdeclared hlength hfits hstep).mpr hkeeps,
            framed_step hI.2 hstep⟩⟩)
      ⟨forall_mem_singleton.mpr (hopening.mpr hopens), hframed⟩ hrun (along_of_mem (fun event hevent _ => hfits event hevent) _)
  constructor
  · intro hall
    have hopens := hopening.mp (hall [] _ nil_prefix rfl _ mem_cons_self)
    refine ⟨hopens, (hpoints hopens).mp fun done s hdone hs => ?_⟩
    exact ⟨hall done s hdone hs, run_invariant (fun hI hstep => framed_step hI hstep) hframed hs⟩
  · rintro ⟨hopens, halong⟩ done s hdone hs
    exact ((hpoints hopens).mpr halong done s hdone hs).1

end Framed

/-! ### A body behind a rewritten request -/

/-- `POST http://a/` without a body. -/
def posted : RequestPart := ⟨⟨some .http, some ⟨ascii "a", none⟩, some (ascii "/"), none⟩, .post, .http11, ∅⟩

theorem piece_hi : ∀ p, Poll.ready p ∈ [Poll.ready (ascii "hi")] → Piece p := by
  intro p hp
  cases mem_singleton.mp hp
  decide +kernel

theorem rooms_hi (_ : Nat) : 0 < 16384 := by decide

/-- The body `hi` in one read. -/
def hiTransfer : Transfer := ⟨⟨[.ready (ascii "hi")], piece_hi⟩, fun _ => 16384, rooms_hi, 2⟩

/-- The events of a request that is answered by 302. -/
def answeredByFound : List (Event Transfer) := [.response (found (ascii "/")) true hiTransfer]

/-- The fields and the body of the messages of a run. -/
def framings (s : Chain RequestBody Transfer) : List (List (Option HeaderValue) × Bool) :=
  s.sent.map fun m => (framingHeaders.map m.part.headers.get, m.body.isEmpty)

theorem ok_of_toOption {ε α : Type} {x : Except ε α} {a : α} (h : x.toOption = some a) : x = .ok a := by
  cases x with
  | error e => cases h
  | ok b => exact congrArg _ (Option.some.inj h)

/-- The second message has the body `hi` and no field that says so. -/
theorem found_unannounced : ∃ built first last m,
    RequestBuilder.body posted (.slice (ascii "hi") 0) = .ok built ∧
    (http1Client true (.limitTimes 10)).start built (.slice (ascii "hi") 0) hiTransfer = some first ∧
    run (http1Client true (.limitTimes 10)).step answeredByFound first = some last ∧
    m ∈ last.sent ∧ ¬ m.SelfDelimiting := by
  have hcomputed : ((RequestBuilder.body posted (.slice (ascii "hi") 0)).toOption.bind fun built =>
      ((http1Client true (.limitTimes 10)).start built (.slice (ascii "hi") 0) hiTransfer).bind fun first =>
        (run (http1Client true (.limitTimes 10)).step answeredByFound first).bind fun last =>
          (framings last).head?) = some ([none, none], false) := by decide +kernel
  obtain ⟨built, hbuilt, hrest⟩ := Option.bind_eq_some_iff.mp hcomputed
  obtain ⟨first, hfirst, hrest⟩ := Option.bind_eq_some_iff.mp hrest
  obtain ⟨last, hlast, hframings⟩ := Option.bind_eq_some_iff.mp hrest
  rw [framings, head?_map, Option.map_eq_some_iff] at hframings
  obtain ⟨m, hm, hparts⟩ := hframings
  refine ⟨built, first, last, m, ok_of_toOption hbuilt, hfirst, hlast, mem_of_mem_head? hm, ?_⟩
  obtain ⟨hfields, hempty⟩ := Prod.mk.inj hparts
  rw [selfDelimiting_of_none, hempty]
  · decide
  · have hnone : ∀ value ∈ framingHeaders.map m.part.headers.get, value = none := by
      rw [hfields]
      decide
    exact fun name hname => hnone _ (mem_map_of_mem hname)

/-- The theorem on the request without an answer. -/
theorem selfDelimiting_iff_keepsFraming_hi : ∃ built first,
    RequestBuilder.body posted (.slice (ascii "hi") 0) = .ok built ∧
    (http1Client true (.limitTimes 10)).start built (.slice (ascii "hi") 0) hiTransfer = some first ∧
    ((∀ done s, done <+: [] → run (http1Client true (.limitTimes 10)).step done first = some s →
      ∀ m ∈ s.sent, m.SelfDelimiting) ↔
      (Opens built (.slice (ascii "hi") 0) ∧ Chunks built hiTransfer) ∧
        Along (http1Client true (.limitTimes 10)).step (http1Client true (.limitTimes 10)).KeepsFraming [] first) := by
  have hcomputed : ((RequestBuilder.body posted (.slice (ascii "hi") 0)).toOption.bind fun built =>
      (http1Client true (.limitTimes 10)).start built (.slice (ascii "hi") 0) hiTransfer).isSome := by decide +kernel
  obtain ⟨first, hsome⟩ := Option.isSome_iff_exists.mp hcomputed
  obtain ⟨built, hbuilt, hfirst⟩ := Option.bind_eq_some_iff.mp hsome
  have hbuilt := ok_of_toOption hbuilt
  refine ⟨built, first, hbuilt, hfirst, ?_⟩
  exact selfDelimiting_iff_keepsFraming rfl rfl hbuilt hfirst rfl rfl (by simp)

end YlongHttp.Client
