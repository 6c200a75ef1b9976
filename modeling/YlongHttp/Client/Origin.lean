/-
Which origins get the sensitive fields of a request along a chain of redirects.

`Chain.Confined` says that the newest message carries a sensitive field only if all messages so
far went to its origin. Sensitive fields are removed where the authority of the next link is not
the one of the request; the schemes are not compared. So the fields stay confined exactly along
the runs in which no request that carries one changes the scheme under the same authority
(`confined_iff_keepsScheme`). The invariant is `Tracked`: a request that still carries a
sensitive field has the authority of the newest message.
-/

import YlongHttp.Client.Redirect

namespace YlongHttp.Client

open Rust
open H2.Hpack (ascii)

/-! ### Sensitive fields -/

def Carries (part : RequestPart) : Prop := ∃ name ∈ sensitiveHeaders, part.headers.get name ≠ none

theorem carries_congr {a b : RequestPart} (h : ∀ name ∈ sensitiveHeaders, a.headers.get name = b.headers.get name) :
    Carries a ↔ Carries b := by
  constructor
  · rintro ⟨name, hname, hget⟩
    exact ⟨name, hname, by rwa [← h name hname]⟩
  · rintro ⟨name, hname, hget⟩
    exact ⟨name, hname, by rwa [h name hname]⟩

theorem carries_answered (response : ResponsePart) (request : RequestPart) :
    Carries (answered response request) ↔ Carries request := by
  have hne : ∀ name ∈ sensitiveHeaders, ∀ other ∈ updatedHeaders, other.map headerChar ≠ name.map headerChar := by
    decide +kernel
  refine carries_congr fun name hname => ?_
  rw [answered, rewritten]
  split
  next => exact Headers.get_removeAll_of_ne (hne name hname) request.headers
  next =>
    split
    next => rfl
    next => rfl

theorem not_carries_removeAll (request : RequestPart) (uri : Uri) :
    ¬ Carries { request with uri := uri, headers := request.headers.removeAll sensitiveHeaders } := by
  rintro ⟨name, hname, hget⟩
  exact hget (Headers.get_removeAll_of_mem hname request.headers)

variable {target uri : Uri} {request part part' : RequestPart} {tls : Bool}

theorem carries_follow {previous : Uri} :
    Carries (follow (some previous) target request) ↔ Carries request ∧ target.authority = previous.authority := by
  unfold follow
  dsimp only
  split
  next hne => exact ⟨fun h => absurd h (not_carries_removeAll request target), fun h => absurd h.2 hne⟩
  next heq => exact ⟨fun h => ⟨h, not_not.mp heq⟩, fun h => h.1⟩

theorem follow_uri (previous : Option Uri) (target : Uri) (request : RequestPart) :
    (follow previous target request).uri = target := by
  unfold follow
  split
  next =>
    split
    next => rfl
    next => rfl
  next => rfl

theorem carries_formatted (h : RequestFormatted tls part part') : Carries part' ↔ Carries part := by
  have hfree : ∀ name ∈ sensitiveHeaders, NotFormatted name := by decide +kernel
  exact carries_congr fun name hname => h.headers (hfree name hname)

/-! ### Requests that can be sent again -/

/-- The methods that HTTP/1.0 does not know. -/
def Refused (part : RequestPart) : Prop := part.version = .http10 ∧ part.method = .connect

theorem not_refused_rewritten {status : StatusCode} {request' : RequestPart}
    (h : rewritten status request = some request') (hok : ¬ Refused request) : ¬ Refused request' := by
  rw [rewritten] at h
  split at h
  next =>
    cases h
    rintro ⟨-, hmethod⟩
    split at hmethod
    next => cases hmethod
    next => cases hmethod
    next => cases hmethod
  next =>
    split at h
    next =>
      cases h
      exact hok
    next => cases h

variable {response : ResponsePart}

theorem not_refused_answered (hok : ¬ Refused request) : ¬ Refused (answered response request) := by
  rw [answered]
  cases h : rewritten response.status request with
  | none => exact hok
  | some request' => exact not_refused_rewritten h hok

theorem refused_follow {previous : Option Uri} : Refused (follow previous target request) ↔ Refused request := by
  unfold follow
  split
  next =>
    split
    next => exact Iff.rfl
    next => exact Iff.rfl
  next => exact Iff.rfl

theorem formatHostValue_of_normalized (h : uriAlreadyNormalized uri = true) :
    ∃ value, formatHostValue uri = .ok value := by
  simp only [uriAlreadyNormalized, Bool.and_eq_true, Option.isSome_iff_exists] at h
  obtain ⟨⟨⟨-, host, hhost⟩, n, hport⟩, -⟩ := h
  obtain ⟨text, htext, hparse⟩ := Option.bind_eq_some_iff.mp hport
  rw [formatHostValue, hhost, htext]
  dsimp only
  rw [hparse]
  dsimp only
  split
  next => exact ⟨host, rfl⟩
  next => exact ⟨_, rfl⟩

/-- A request that HTTP/1.0 does not refuse is formatted if its URI is. -/
theorem format_of_uri (hok : ¬ Refused part) (h : UriFormatter.format tls part.uri = .ok uri) :
    ∃ part', RequestFormatter.format tls part = .ok () part' ∧ part'.uri = uri := by
  obtain ⟨value, hvalue⟩ := formatHostValue_of_normalized (formatted_of_format h).normalized
  have hformat : RequestFormatter.format tls part =
      .ok () { part with uri := uri, headers := RequestFormatter.headers part value } := by
    rw [RequestFormatter.format, if_neg (show ¬ (part.version = .http10 ∧ part.method = .connect) from hok), h]
    dsimp only
    rw [hvalue]
  exact ⟨_, hformat, rfl⟩

/-- What the formatter leaves, if it succeeds. -/
theorem uri_of_format (h : RequestFormatter.format tls part = .ok () part') :
    UriFormatter.format tls part.uri = .ok part'.uri ∧ ¬ Refused part' := by
  rw [RequestFormatter.format] at h
  split at h
  next => cases h
  next hok =>
    split at h
    next => cases h
    next uri huri =>
      split at h
      next => cases h
      next =>
        cases h
        exact ⟨huri, hok⟩

theorem not_refused_of_err {e : HttpClientError} (hok : ¬ Refused part)
    (h : RequestFormatter.format tls part = .err e part') : part' = part := by
  rw [RequestFormatter.format, if_neg (show ¬ (part.version = .http10 ∧ part.method = .connect) from hok)] at h
  split at h
  next =>
    cases h
    rfl
  next uri huri =>
    -- the value of the field `Host` is there for every formatted URI
    obtain ⟨value, hvalue⟩ := formatHostValue_of_normalized (formatted_of_format huri).normalized
    rw [hvalue] at h
    cases h

/-! ### Where a request goes -/

/-- A URI under the authority of a formatted one is formatted to the same host and port. -/
theorem origin_formatted {uri' last : Uri} (hlast : uriAlreadyNormalized last = true)
    (hauthority : uri.authority = last.authority) (hscheme : uri.scheme.isSome) (h : Formatted tls uri uri') :
    uri'.origin = last.origin ↔ uri.scheme = last.scheme := by
  obtain ⟨scheme, hscheme⟩ := Option.isSome_iff_exists.mp hscheme
  have hhost : uri.host = last.host := by
    rw [Uri.host, Uri.host, hauthority]
  have hport : uri.portNumber = last.portNumber := by
    rw [Uri.portNumber, Uri.portNumber, Uri.port, Uri.port, hauthority]
  simp only [uriAlreadyNormalized, Bool.and_eq_true, Option.isSome_iff_exists] at hlast
  obtain ⟨⟨-, n, hn⟩, -⟩ := hlast
  have hsame : uri'.portNumber = some n := by
    rw [h.port, UriFormatter.port, hport, hn, Option.getD_some]
  rw [Uri.origin, Uri.origin, hsame, hn, h.host, hhost, h.scheme, hscheme]
  constructor
  · intro heq
    exact congrArg Prod.fst heq
  · intro heq
    rw [← heq]
    rfl

theorem resolve_scheme {origin location : Uri} (h : origin.scheme.isSome) : (resolve origin location).scheme.isSome := by
  rw [resolve]
  split
  next => exact h
  next hboth =>
    rw [not_or] at hboth
    exact Option.isSome_iff_ne_none.mpr hboth.1

theorem followed_scheme {strategy : Strategy} {info : RedirectInfo}
    (hscheme : request.uri.scheme.isSome) (h : followed strategy response request info = some target) :
    target.scheme.isSome := by
  rw [followed] at h
  split at h
  next =>
    cases h
    exact resolve_scheme hscheme
  next => cases h

/-! ### Runs -/

section Runs

variable {β τ : Type}

/-- The newest message carries a sensitive field only if every message so far, and so every hop,
had its scheme, host and effective port. -/
def Chain.Confined (s : Chain β τ) : Prop :=
  ∀ newest ∈ s.sent.head?, Carries newest.part → ∀ message ∈ s.sent, message.part.uri.origin = newest.part.uri.origin

/-- No request that carries a sensitive field changes the scheme while it keeps the authority:
neither by a link that is followed, nor with a link that an attempt before has left. -/
def Config.KeepsScheme (client : Config β τ) (s : Chain β τ) : Event τ → Prop
  | .response part proceed _ =>
    proceed = true → Carries s.request → ∀ target uri, followed client.strategy part s.request s.info = some target →
      UriFormatter.format client.tls target = .ok uri → target.authority = s.request.uri.authority →
        target.scheme = s.request.uri.scheme
  | .retry _ =>
    Carries s.request → ∀ uri, UriFormatter.format client.tls s.request.uri = .ok uri →
      ∀ newest ∈ s.sent.head?, s.request.uri.scheme = newest.part.uri.scheme

/-- The request against the newest message. -/
structure Chain.Tracks (s : Chain β τ) (newest : Message β τ) : Prop where
  sent : s.sent.head? = some newest
  normalized : uriAlreadyNormalized newest.part.uri = true
  carries : Carries s.request → Carries newest.part
  authority : Carries s.request → s.request.uri.authority = newest.part.uri.authority
  scheme : s.request.uri.scheme.isSome
  accepted : ¬ Refused s.request
  awaiting : s.phase = .awaiting → s.request = newest.part

def Chain.Tracked (s : Chain β τ) : Prop := ∃ newest, s.Tracks newest

theorem scheme_of_normalized {uri : Uri} (h : uriAlreadyNormalized uri = true) : uri.scheme.isSome := by
  simp only [uriAlreadyNormalized, Bool.and_eq_true] at h
  exact h.1.1.1

variable {client : Config β τ} {s s' : Chain β τ} {newest : Message β τ}
  {request : RequestPart} {body : β} {transfer : τ} {event : Event τ}

/-- A message that has just been sent is tracked. -/
theorem tracks_sent {part : RequestPart} {left : β} {info : RedirectInfo}
    {rest : List (Message β τ)} (hformat : RequestFormatter.format client.tls request = .ok () part) :
    Chain.Tracks (⟨part, left, info, .awaiting, ⟨part, body, transfer⟩ :: rest⟩ : Chain β τ) ⟨part, body, transfer⟩ := by
  obtain ⟨huri, hok⟩ := uri_of_format hformat
  have hnorm := (formatted_of_format huri).normalized
  exact ⟨rfl, hnorm, id, fun _ => rfl, scheme_of_normalized hnorm, hok, fun _ => rfl⟩

section

variable (h : s.Tracks newest)

include h

/-- The body and the list of previous links do not matter. -/
theorem Chain.Tracks.idle (body : β) (info : RedirectInfo) :
    Chain.Tracks { s with body := body, info := info, phase := .idle } newest :=
  ⟨h.sent, h.normalized, h.carries, h.authority, h.scheme, h.accepted, fun hphase => by cases hphase⟩

theorem tracked_send (transfer : τ) : (client.send transfer s).Tracked := by
  rcases client.send_cases transfer s with ⟨part, hformat, heq⟩ | ⟨part, ⟨e, hformat⟩, heq⟩
  · rw [heq]
    exact ⟨_, tracks_sent hformat⟩
  · obtain rfl := not_refused_of_err h.accepted hformat
    rw [heq]
    exact ⟨newest, h.idle s.body s.info⟩

/-- An answer that is not followed leaves the sensitive fields and the URI. -/
theorem tracks_answered (response : ResponsePart) (info : RedirectInfo) {phase : Phase} (hidle : phase ≠ .awaiting) :
    Chain.Tracks { s with request := answered response s.request, info := info, phase := phase } newest := by
  refine ⟨h.sent, h.normalized, ?_, ?_, ?_, not_refused_answered h.accepted, fun hphase => absurd hphase hidle⟩
  · exact fun hcarries => h.carries ((carries_answered response s.request).mp hcarries)
  · intro hcarries
    exact (congrArg Uri.authority (answered_uri response s.request)).trans
      (h.authority ((carries_answered response s.request).mp hcarries))
  · exact (congrArg (fun uri => uri.scheme.isSome) (answered_uri response s.request)).trans h.scheme

/-- The request for the next link, before it is sent. -/
theorem tracks_follow (hphase : s.phase = .awaiting) {response : ResponsePart} {target : Uri}
    (hnext : followed client.strategy response s.request s.info = some target) (body : β) (info : RedirectInfo) :
    Chain.Tracks { s with
      request := follow (some s.request.uri) target (answered response s.request), body, info, phase := .idle } newest := by
  have huri := follow_uri (some s.request.uri) target (answered response s.request)
  refine ⟨h.sent, h.normalized, ?_, ?_, ?_, ?_, fun hphase => by cases hphase⟩
  · intro hcarries
    exact h.carries ((carries_answered response s.request).mp (carries_follow.mp hcarries).1)
  · intro hcarries
    have hkept := (carries_follow.mp hcarries).2
    exact (congrArg Uri.authority huri).trans (hkept.trans (congrArg (fun part => part.uri.authority) (h.awaiting hphase)))
  · exact (congrArg (fun uri => uri.scheme.isSome) huri).trans (followed_scheme h.scheme hnext)
  · rw [refused_follow]
    exact not_refused_answered h.accepted

end

/-- A step keeps track of the newest message. -/
theorem tracked_step (h : s.Tracked) (hstep : client.step s event = some s') : s'.Tracked := by
  obtain ⟨newest, h⟩ := h
  cases client.does_of_step hstep with
  | answer _ _ hidle => exact ⟨newest, tracks_answered h _ _ hidle⟩
  | link hphase hnext =>
    rw [Config.next]
    split
    next => exact tracked_send (tracks_follow h hphase hnext _ _) _
    next => exact ⟨newest, tracks_follow h hphase hnext _ _⟩
  | retry _ => exact tracked_send (h.idle _ _) _

/-- A message keeps the fields confined exactly if it keeps the scheme of the newest one. -/
theorem confined_send (h : s.Tracks newest) (hconfined : s.Confined) (transfer : τ) :
    (client.send transfer s).Confined ↔ (Carries s.request → ∀ uri, UriFormatter.format client.tls s.request.uri = .ok uri →
      s.request.uri.scheme = newest.part.uri.scheme) := by
  rcases client.send_cases transfer s with ⟨part, hformat, heq⟩ | ⟨part, ⟨e, hformat⟩, heq⟩
  · have hcarries := carries_formatted (formatted_of_ok hformat)
    have huri := (uri_of_format hformat).1
    have horigin := fun hc => origin_formatted h.normalized (h.authority hc) h.scheme (formatted_of_format huri)
    rw [heq]
    constructor
    · intro hsent hc uri _
      refine (horigin hc).mp (hsent _ rfl (hcarries.mpr hc) newest ?_).symm
      exact List.mem_cons_of_mem _ (List.mem_of_mem_head? h.sent)
    · rintro hscheme - ⟨⟩ hc message hmem
      have hc := hcarries.mp hc
      rcases List.mem_cons.mp hmem with rfl | hmem
      · rfl
      · exact (hconfined newest h.sent (h.carries hc) message hmem).trans
          ((horigin hc).mpr (hscheme hc part.uri huri)).symm
  · rw [heq]
    refine ⟨fun _ _ uri huri => ?_, fun _ => hconfined⟩
    obtain ⟨part', hok, -⟩ := format_of_uri h.accepted huri
    cases hok.symm.trans hformat

/-- A step keeps the sensitive fields confined exactly if it keeps the scheme. -/
theorem confined_step (htracked : s.Tracked) (hconfined : s.Confined)
    (hstep : client.step s event = some s') : s'.Confined ↔ client.KeepsScheme s event := by
  obtain ⟨newest, h⟩ := htracked
  cases client.does_of_step hstep with
  | answer _ hstay _ =>
    refine ⟨fun _ _ _ target uri hnext => ?_, fun _ => hconfined⟩
    cases hstay.symm.trans hnext
  | @link part proceed transfer info target hphase hnext =>
    have huri := follow_uri (some s.request.uri) target (answered part s.request)
    have hnewest := congrArg (fun part => part.uri.scheme) (h.awaiting hphase)
    cases proceed with
    | false =>
      refine ⟨fun _ hproceed => ?_, fun _ => hconfined⟩
      cases hproceed
    | true =>
      refine (confined_send (tracks_follow h hphase hnext _ _) hconfined transfer).trans ?_
      simp only [huri, carries_follow, carries_answered]
      constructor
      · intro hsend _ hcarries target' uri hnext' hformat hauthority
        obtain rfl := Option.some.inj (hnext.symm.trans hnext')
        exact (hsend ⟨hcarries, hauthority⟩ uri hformat).trans hnewest.symm
      · rintro hkeeps ⟨hcarries, hauthority⟩ uri hformat
        exact (hkeeps rfl hcarries target uri hnext hformat hauthority).trans hnewest
  | @retry transfer _ =>
    refine (confined_send (h.idle _ _) hconfined transfer).trans ?_
    constructor
    · rintro hsend hcarries uri hformat newest' hnewest
      obtain rfl := Option.some.inj (h.sent.symm.trans hnewest)
      exact hsend hcarries uri hformat
    · intro hkeeps hcarries uri hformat
      exact hkeeps hcarries uri hformat newest h.sent

/-- The first message is confined and tracked. -/
theorem start_confined (h : client.start request body transfer = some s) : s.Confined ∧ s.Tracked := by
  obtain ⟨part, hformat, rfl⟩ := client.start_cases h
  refine ⟨?_, ⟨_, tracks_sent hformat⟩⟩
  rintro - ⟨⟩ - message hmem
  obtain rfl := List.mem_singleton.mp hmem
  rfl

/-- Along a run, each message carries a sensitive field only if all messages so far had its origin,
exactly if no request that carries one changes the scheme under its authority. -/
theorem confined_iff_keepsScheme {request : RequestPart} {body : β} {transfer : τ} {first last : Chain β τ}
    {events : List (Event τ)} (hstart : client.start request body transfer = some first)
    (hrun : run client.step events first = some last) :
    (∀ done s, done <+: events → run client.step done first = some s → s.Confined) ↔
      Along client.step client.KeepsScheme events first := by
  have hpoints := points_iff (I := fun s : Chain β τ => s.Confined ∧ s.Tracked)
    (P := client.KeepsScheme) (Q := fun _ _ => True)
    (fun hI _ hstep => ⟨fun hs' => (confined_step hI.2 hI.1 hstep).mp hs'.1,
      fun hkeeps => ⟨(confined_step hI.2 hI.1 hstep).mpr hkeeps, tracked_step hI.2 hstep⟩⟩)
    (start_confined hstart) hrun (along_of_forall (fun _ _ => trivial) events first)
  refine Iff.trans ?_ hpoints
  constructor
  · intro hconfined done s hdone hs
    exact ⟨hconfined done s hdone hs, run_invariant (fun hI hstep => tracked_step hI hstep) (start_confined hstart).2 hs⟩
  · intro hboth done s hdone hs
    exact (hboth done s hdone hs).1

end Runs

/-! ### An answer that changes the scheme only -/

/-- A client that follows up to ten links, with nothing to send as a body. -/
def plainClient : Config Unit Unit := ⟨true, .limitTimes 10, fun _ body => body, id⟩

/-- `GET https://a` with a field `Authorization`. -/
def authorized : RequestPart :=
  ⟨⟨some .https, some ⟨ascii "a", none⟩, none, none⟩, .get, .http11, insertValid ∅ (ascii "Authorization") (ascii "secret")⟩

theorem found_three : 100 ≤ 302 ∧ 302 ≤ 999 := by decide

def found (uri : List UInt8) : ResponsePart := ⟨.http11, ⟨302, found_three⟩, insertValid ∅ (ascii "Location") uri⟩

/-- The messages of a run, with what can be seen of them. -/
def visible (s : Chain Unit Unit) : List (Option Scheme × Bool) :=
  s.sent.map fun message => (message.part.uri.scheme, (message.part.headers.get (ascii "authorization")).isSome)

/-- The request for `https://a` goes to `a:443`, so that an answer with `http://a:443/` keeps the
authority, and the field is sent over http. -/
theorem sent_over_http : ∃ first last, plainClient.start authorized () () = some first ∧
    run plainClient.step [.response (found (ascii "http://a:443/")) true ()] first = some last ∧
    visible last = [(some .http, true), (some .https, true)] ∧ ¬ last.Confined := by
  have hvisible : ((plainClient.start authorized () ()).bind
      (run plainClient.step [.response (found (ascii "http://a:443/")) true ()])).map visible =
        some [(some .http, true), (some .https, true)] := by decide +kernel
  obtain ⟨last, hlast, hmessages⟩ := Option.map_eq_some_iff.mp hvisible
  obtain ⟨first, hfirst, hrun⟩ := Option.bind_eq_some_iff.mp hlast
  refine ⟨first, last, hfirst, hrun, hmessages, ?_⟩
  intro hconfined
  obtain ⟨newest, rest, hsent, hnewest, hrest⟩ := List.map_eq_cons_iff.mp hmessages
  obtain ⟨old, rest, rfl, hold, -⟩ := List.map_eq_cons_iff.mp hrest
  have hcarries : Carries newest.part := by
    refine ⟨ascii "authorization", List.mem_cons_self, ?_⟩
    exact Option.isSome_iff_ne_none.mp (congrArg Prod.snd hnewest)
  have horigin := hconfined newest (by rw [hsent]; rfl) hcarries old (by rw [hsent]; simp)
  have hold : old.part.uri.scheme = some .https := congrArg Prod.fst hold
  have hnewest : newest.part.uri.scheme = some .http := congrArg Prod.fst hnewest
  have hscheme : old.part.uri.scheme = newest.part.uri.scheme := congrArg Prod.fst horigin
  rw [hold, hnewest] at hscheme
  cases hscheme

/-- The theorem on the same request and an answer that keeps the origin. -/
theorem confined_iff_keepsScheme_samePort : ∃ first last, plainClient.start authorized () () = some first ∧
    run plainClient.step [.response (found (ascii "https://a:443/next")) true ()] first = some last ∧
    ((∀ done s, done <+: [.response (found (ascii "https://a:443/next")) true ()] →
      run plainClient.step done first = some s → s.Confined) ↔
      Along plainClient.step plainClient.KeepsScheme [.response (found (ascii "https://a:443/next")) true ()] first) := by
  have hsome : ((plainClient.start authorized () ()).bind
      (run plainClient.step [.response (found (ascii "https://a:443/next")) true ()])).isSome := by decide +kernel
  obtain ⟨last, hlast⟩ := Option.isSome_iff_exists.mp hsome
  obtain ⟨first, hfirst, hrun⟩ := Option.bind_eq_some_iff.mp hlast
  exact ⟨first, last, hfirst, hrun, confined_iff_keepsScheme hfirst hrun⟩

end YlongHttp.Client
