/-
Redirects and retries of the async client (`util/redirect.rs`, `Client::request` and
`Client::redirect` of `async_impl/client.rs`).

One request object is used for all attempts. A redirect answer changes it in place, also if the
redirect then fails, and a retry goes on with what is left of it. `Chain` is the state of a
call of `Client::request`, with the messages that it has handed to a connection, the newest
one first. `step` is what the client does with an answer or after a failure of the transport.
The kind of the body and of the transfer are parameters.
-/

import YlongHttp.Client.Normalizer
import YlongHttp.Rust.Run

namespace YlongHttp.Client

open Rust
open H2.Hpack (ascii)

/-! ### One redirect -/

structure RedirectInfo where
  previous : List Uri
deriving DecidableEq, Repr

inductive Strategy where
  | limitTimes (max : Nat)
  | noRedirect
deriving DecidableEq, Repr

inductive Trigger where
  | nextLink
  | stop
deriving DecidableEq, Repr

def Strategy.trigger (strategy : Strategy) (info : RedirectInfo) : Except HttpClientError Trigger :=
  match strategy with
  | .limitTimes max =>
    if info.previous.length < max then .ok .nextLink else .error ⟨.build, some "Over redirect max limit"⟩
  | .noRedirect => .ok .stop

/-- `UPDATED_HEADERS`. -/
def updatedHeaders : List (List UInt8) :=
  [ascii "transfer-encoding", ascii "content-encoding", ascii "content-type", ascii "content-length",
    ascii "content-language", ascii "content-location", ascii "digest", ascii "last-modified"]

/-- `SENSITIVE_HEADERS`. -/
def sensitiveHeaders : List (List UInt8) :=
  [ascii "authorization", ascii "cookie", ascii "cookie2", ascii "proxy-authorization", ascii "www-authenticate"]

/-- The statuses after which a request is rewritten to `GET`. -/
def rewrites (status : StatusCode) : Bool := status.code = 301 || status.code = 302 || status.code = 303

/-- The request after the match on the status, if the status is one of a redirect. -/
def rewritten (status : StatusCode) (request : RequestPart) : Option RequestPart :=
  if rewrites status then
    let method := match request.method with
      | .get => .get
      | .head => .head
      | _ => .get
    some { request with headers := request.headers.removeAll updatedHeaders, method := method }
  else if status.code = 307 ∨ status.code = 308 then some request
  else none

/-- The `Location` of an answer. -/
def location (response : ResponsePart) : Except HttpClientError Uri :=
  match response.headers.get (ascii "Location") with
  | none => .error ⟨.redirect, some "Illegal location header in response"⟩
  | some value =>
    match Uri.fromBytes value.toText with
    | .error _ => .error ⟨.redirect, some "Illegal location header in response"⟩
    | .ok uri => .ok uri

/-- A location without a scheme or without an authority gets those of the request. -/
def resolve (origin location : Uri) : Uri :=
  if location.scheme = none ∨ location.authority = none then
    { location with scheme := origin.scheme, authority := origin.authority }
  else location

/-- The request for the next link. -/
def follow (previous : Option Uri) (target : Uri) (request : RequestPart) : RequestPart :=
  match previous with
  | some uri =>
    if target.authority ≠ uri.authority then
      { request with uri := target, headers := request.headers.removeAll sensitiveHeaders }
    else { request with uri := target }
  | none => { request with uri := target }

def redirect (strategy : Strategy) (response : ResponsePart) :
    Rust.Method (RequestPart × RedirectInfo) HttpClientError Trigger := fun (request, info) =>
  match rewritten response.status request with
  | none => .ok .stop (request, info)
  | some request =>
    let info : RedirectInfo := ⟨info.previous ++ [request.uri]⟩
    match location response with
    | .error e => .err e (request, info)
    | .ok uri =>
      match strategy.trigger info with
      | .error e => .err e (request, info)
      | .ok .stop => .ok .stop (request, info)
      | .ok .nextLink =>
        .ok .nextLink (follow info.previous.getLast? (resolve request.uri uri) request, info)

/-- The place that a request goes to next, if the answer is a redirect that is followed. -/
def followed (strategy : Strategy) (response : ResponsePart) (request : RequestPart) (info : RedirectInfo) : Option Uri :=
  match rewritten response.status request, location response, strategy.trigger ⟨info.previous ++ [request.uri]⟩ with
  | some _, .ok uri, .ok .nextLink => some (resolve request.uri uri)
  | _, _, _ => none

/-- The request after an answer that is not followed. -/
def answered (response : ResponsePart) (request : RequestPart) : RequestPart :=
  (rewritten response.status request).getD request

theorem rewritten_uri {status : StatusCode} {request request' : RequestPart}
    (h : rewritten status request = some request') : request'.uri = request.uri := by
  rw [rewritten] at h
  split at h
  next =>
    cases h
    rfl
  next =>
    split at h
    next =>
      cases h
      rfl
    next => cases h

theorem answered_uri (response : ResponsePart) (request : RequestPart) : (answered response request).uri = request.uri := by
  rw [answered]
  cases h : rewritten response.status request with
  | none => rfl
  | some request' => exact rewritten_uri h

/-- What a redirect does, by whether it is followed. -/
theorem redirect_cases (strategy : Strategy) (response : ResponsePart) (request : RequestPart) (info : RedirectInfo) :
    (followed strategy response request info = none ∧ ∃ info',
      redirect strategy response (request, info) = .ok .stop (answered response request, info') ∨
      ∃ e, redirect strategy response (request, info) = .err e (answered response request, info')) ∨
    ∃ target info', followed strategy response request info = some target ∧
      redirect strategy response (request, info) =
        .ok .nextLink (follow (some request.uri) target (answered response request), info') := by
  rw [redirect, followed, answered]
  cases hrewrite : rewritten response.status request with
  | none => exact .inl ⟨rfl, info, .inl rfl⟩
  | some request' =>
    rw [← rewritten_uri hrewrite]
    cases hloc : location response with
    | error e => exact .inl ⟨rfl, _, .inr ⟨e, rfl⟩⟩
    | ok uri =>
      cases htrigger : strategy.trigger ⟨info.previous ++ [request'.uri]⟩ with
      | error e =>
        refine .inl ⟨rfl, ⟨info.previous ++ [request'.uri]⟩, .inr ⟨e, ?_⟩⟩
        dsimp only
        rw [htrigger]
        rfl
      | ok trigger =>
        cases trigger with
        | stop =>
          refine .inl ⟨rfl, ⟨info.previous ++ [request'.uri]⟩, .inl ?_⟩
          dsimp only
          rw [htrigger]
          rfl
        | nextLink =>
          refine .inr ⟨resolve request'.uri uri, ⟨info.previous ++ [request'.uri]⟩, rfl, ?_⟩
          dsimp only
          rw [htrigger, List.getLast?_concat]
          rfl

/-! ### Runs of the client -/

/-- A request as it is handed to a connection. -/
structure Message (β τ : Type) where
  part : RequestPart
  body : β
  transfer : τ

inductive Phase where
  | awaiting
  | idle
  | done
deriving DecidableEq, Repr

structure Chain (β τ : Type) where
  request : RequestPart
  body : β
  info : RedirectInfo
  phase : Phase
  sent : List (Message β τ)

/-- An answer, or another attempt after a failure. After an answer that is followed, rewinding
the body or an interceptor may fail, so that the client does not proceed. -/
inductive Event (τ : Type) where
  | response (part : ResponsePart) (proceed : Bool) (transfer : τ)
  | retry (transfer : τ)

/-- The client, with what a transfer leaves of a body and how a body is rewound. -/
structure Config (β τ : Type) where
  tls : Bool
  strategy : Strategy
  consume : τ → β → β
  reuse : β → β

namespace Config

variable {β τ : Type} (client : Config β τ)

/-- `send_unformatted_request`. -/
def send (transfer : τ) (s : Chain β τ) : Chain β τ :=
  match RequestFormatter.format client.tls s.request with
  | .ok _ part =>
    { s with
      request := part
      body := client.consume transfer s.body
      phase := .awaiting
      sent := ⟨part, s.body, transfer⟩ :: s.sent }
  | .err _ part => { s with request := part, phase := .idle }
  | .panic => { s with phase := .idle }

/-- The first attempt, if the request can be formatted. -/
def start (request : RequestPart) (body : β) (transfer : τ) : Option (Chain β τ) :=
  let s := client.send transfer ⟨request, body, ⟨[]⟩, .idle, []⟩
  if s.phase = .awaiting then some s else none

/-- The client goes on with the next link. -/
def next (proceed : Bool) (transfer : τ) (s : Chain β τ) : Chain β τ :=
  if proceed then client.send transfer { s with body := client.reuse s.body } else s

def step (s : Chain β τ) : Event τ → Option (Chain β τ)
  | .response part proceed transfer =>
    if s.phase = .awaiting then
      match redirect client.strategy part (s.request, s.info) with
      | .ok .stop (request, info) => some { s with request := request, info := info, phase := .done }
      | .ok .nextLink (request, info) =>
        some (client.next proceed transfer { s with request := request, info := info, phase := .idle })
      | .err _ (request, info) => some { s with request := request, info := info, phase := .idle }
      | .panic => none
    else none
  | .retry transfer =>
    if s.phase = .done then none
    else some (client.send transfer { s with info := ⟨[]⟩, phase := .idle, body := client.reuse s.body })

/-- What a step does: it changes the request after an answer that is not followed, it prepares
the next link without sending, or it sends. -/
inductive Does (s : Chain β τ) : Event τ → Chain β τ → Prop where
  | answer {part : ResponsePart} {proceed : Bool} {transfer : τ} {info : RedirectInfo} {phase : Phase}
      (hphase : s.phase = .awaiting) (hstay : followed client.strategy part s.request s.info = none)
      (hidle : phase ≠ .awaiting) :
      Does s (.response part proceed transfer) { s with request := answered part s.request, info := info, phase := phase }
  | link {part : ResponsePart} {proceed : Bool} {transfer : τ} {info : RedirectInfo} {target : Uri}
      (hphase : s.phase = .awaiting) (hnext : followed client.strategy part s.request s.info = some target) :
      Does s (.response part proceed transfer) (client.next proceed transfer
        { s with request := follow (some s.request.uri) target (answered part s.request), info := info, phase := .idle })
  | retry {transfer : τ} (hphase : s.phase ≠ .done) :
      Does s (.retry transfer) (client.send transfer { s with info := ⟨[]⟩, phase := .idle, body := client.reuse s.body })

theorem does_of_step {s s' : Chain β τ} {event : Event τ} (h : client.step s event = some s') :
    client.Does s event s' := by
  cases event with
  | retry transfer =>
    rw [step] at h
    split at h
    next => cases h
    next hphase =>
      cases h
      exact .retry hphase
  | response part proceed transfer =>
    rw [step] at h
    split at h
    next hphase =>
      rcases redirect_cases client.strategy part s.request s.info with
        ⟨hstay, info, heq | ⟨e, heq⟩⟩ | ⟨target, info, hnext, heq⟩
      · rw [heq] at h
        cases h
        exact .answer hphase hstay (by decide)
      · rw [heq] at h
        cases h
        exact .answer hphase hstay (by decide)
      · rw [heq] at h
        cases h
        exact .link hphase hnext
    next => cases h

/-- A message that is sent, or a request that cannot be formatted. -/
theorem send_cases (transfer : τ) (s : Chain β τ) :
    (∃ part, RequestFormatter.format client.tls s.request = .ok () part ∧ client.send transfer s =
      { s with
        request := part
        body := client.consume transfer s.body
        phase := .awaiting
        sent := ⟨part, s.body, transfer⟩ :: s.sent }) ∨
    ∃ part, (∃ e, RequestFormatter.format client.tls s.request = .err e part) ∧
      client.send transfer s = { s with request := part, phase := .idle } := by
  rw [send]
  cases hformat : RequestFormatter.format client.tls s.request with
  | ok value part => exact .inl ⟨part, rfl, rfl⟩
  | err e part => exact .inr ⟨part, ⟨e, rfl⟩, rfl⟩
  | panic =>
    rw [RequestFormatter.format] at hformat
    split at hformat
    next => cases hformat
    next =>
      split at hformat
      next => cases hformat
      next =>
        split at hformat
        next => cases hformat
        next => cases hformat

theorem start_cases {request : RequestPart} {body : β} {transfer : τ} {s : Chain β τ}
    (h : client.start request body transfer = some s) :
    ∃ part, RequestFormatter.format client.tls request = .ok () part ∧
      s = ⟨part, client.consume transfer body, ⟨[]⟩, .awaiting, [⟨part, body, transfer⟩]⟩ := by
  rw [start] at h
  split at h
  next hphase =>
    cases h
    rcases client.send_cases transfer (⟨request, body, ⟨[]⟩, .idle, []⟩ : Chain β τ) with
      ⟨part, hformat, heq⟩ | ⟨part, -, heq⟩
    · exact ⟨part, hformat, heq⟩
    · rw [heq] at hphase
      cases hphase
  next => cases h

end Config

end YlongHttp.Client
