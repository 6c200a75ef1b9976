/-
Requests and responses as the clients normalize them (`util/normalizer.rs`).

`RequestFormatter.format` gives the URI of a request an explicit port and a path before the
request is sent. `Formatted` is what is left of a URI: the host and the effective port stay, and
a missing scheme is the one of the build. A URI that has all parts is left alone, also if its port
is not written as a number is (`format_agrees_iff`). `BodyLengthParser.parse` decides how the body
of a response ends, by a search for `chunked` in the transfer codings (`parse_chunk_iff`).
-/

import YlongHttp.Uri.Authority
import YlongHttp.Rust.Outcome

namespace YlongHttp

open H2.Hpack (ascii)
open List

def Scheme.defaultPort : Scheme → Nat
  | .http => 80
  | .https => 443

def Authority.toStr (authority : Authority) : List UInt8 :=
  match authority.port with
  | some port => authority.host ++ 0x3a :: port
  | none => authority.host

namespace StatusCode

def isInformational (status : StatusCode) : Bool := status.code ≥ 100 && 200 > status.code

def isSuccessful (status : StatusCode) : Bool := status.code ≥ 200 && 300 > status.code

end StatusCode

/-! ### Numbers as text -/

def decimalDigits : Nat → Nat → List UInt8
  | 0, _ => []
  | fuel + 1, n => (if n < 10 then [] else decimalDigits fuel (n / 10)) ++ [(0x30 + n % 10).toUInt8]

/-- A number as `format!` writes it. -/
def decimalText (n : Nat) : List UInt8 := decimalDigits (n + 1) n

theorem toNat_digit {d : Nat} (h : d < 10) : (0x30 + d).toUInt8.toNat = 0x30 + d := by
  exact Nat.mod_eq_of_lt (by omega)

theorem digit_decimalDigits (fuel n : Nat) : ∀ b ∈ decimalDigits fuel n, Uri.Digit b := by
  induction fuel generalizing n with
  | zero => simp [decimalDigits]
  | succ fuel ih =>
    intro b hb
    rw [decimalDigits, mem_append] at hb
    rcases hb with hb | hb
    · split at hb
      next => cases hb
      next => exact ih _ b hb
    · obtain rfl := mem_singleton.mp hb
      have hdigit := toNat_digit (Nat.mod_lt n (by decide : 0 < 10))
      have hlt := Nat.mod_lt n (by decide : 0 < 10)
      constructor
      · rw [UInt8.le_iff_toNat_le, hdigit]
        exact Nat.le_add_right 48 (n % 10)
      · rw [UInt8.le_iff_toNat_le, hdigit]
        exact Nat.add_le_add_left (Nat.le_of_lt_succ hlt) 48

theorem decimal_append_digit (digits : List UInt8) {d : Nat} (h : d < 10) :
    Uri.decimal (digits ++ [(0x30 + d).toUInt8]) = 10 * Uri.decimal digits + d := by
  rw [Uri.decimal, foldl_append, foldl_cons, toNat_digit h, Nat.add_sub_cancel_left]
  rfl

theorem decimal_decimalDigits {fuel n : Nat} (h : n < 10 ^ fuel) : Uri.decimal (decimalDigits fuel n) = n := by
  induction fuel generalizing n with
  | zero =>
    exact (Nat.lt_one_iff.mp h).symm
  | succ fuel ih =>
    rw [decimalDigits, decimal_append_digit _ (Nat.mod_lt n (by decide))]
    split
    next hsmall =>
      have hzero : Uri.decimal [] = 0 := rfl
      omega
    next =>
      rw [ih (Nat.div_lt_of_lt_mul (by rw [mul_comm]; exact h))]
      exact Nat.div_add_mod n 10

theorem decimal_decimalText (n : Nat) : Uri.decimal (decimalText n) = n :=
  decimal_decimalDigits (lt_trans (Nat.lt_succ_self n) (Nat.lt_pow_self (by decide)))

theorem decimalText_injective {m n : Nat} (h : decimalText m = decimalText n) : m = n := by
  rw [← decimal_decimalText m, h, decimal_decimalText]

theorem decimalText_ne_nil (n : Nat) : decimalText n ≠ [] := by
  exact append_ne_nil_of_right_ne_nil _ (cons_ne_nil _ _)

theorem parseU16_decimalText {n : Nat} (h : n < 65536) : Uri.parseU16 (decimalText n) = some n := by
  have hdigits : ∀ b ∈ decimalText n, Uri.Digit b := digit_decimalDigits (n + 1) n
  have hall : (decimalText n).all (fun b => 0x30 ≤ b && b ≤ 0x39) = true := by
    rw [all_eq_true]
    intro b hb
    have hdigit := hdigits b hb
    rw [Bool.and_eq_true, decide_eq_true_eq, decide_eq_true_eq]
    exact hdigit
  have hvalid : ¬ ((decimalText n).isEmpty ∨ ¬ (decimalText n).all (fun b => 0x30 ≤ b && b ≤ 0x39)) := by
    rw [not_or, not_not]
    exact ⟨fun hempty => decimalText_ne_nil n (isEmpty_iff.mp hempty), hall⟩
  have hvalue := decimal_decimalText n
  rw [Uri.decimal] at hvalue
  unfold Uri.parseU16
  dsimp only
  split
  next rest heq =>
    -- a plus sign is not a digit
    have hplus : Uri.Digit 0x2b := hdigits 0x2b (heq ▸ mem_cons_self)
    exact absurd hplus (by decide)
  next => rw [if_neg hvalid, hvalue, if_pos h]

namespace Uri

/-- The port as a number, if there is one (`Port::as_u16`). -/
def portNumber (uri : Uri) : Option Nat := uri.port.bind parseU16

/-- Scheme, host and effective port. -/
def origin (uri : Uri) : Option Scheme × Option (List UInt8) × Nat :=
  (uri.scheme, uri.host, uri.portNumber.getD (uri.scheme.getD .http).defaultPort)

/-- A URI with a host is determined by its parts. -/
theorem eq_of_parts {u v : Uri} (hsome : u.host.isSome) (hscheme : u.scheme = v.scheme) (hhost : u.host = v.host)
    (hport : u.port = v.port) (hpath : u.path = v.path) (hquery : u.query = v.query) : u = v := by
  obtain ⟨scheme, authority, path, query⟩ := u
  obtain ⟨scheme', authority', path', query'⟩ := v
  cases hscheme
  cases hpath
  cases hquery
  cases authority with
  | none => cases hsome
  | some a =>
    cases authority' with
    | none => cases hhost
    | some a' =>
      obtain ⟨host, port⟩ := a
      cases hhost
      cases hport
      rfl

end Uri

namespace Client

open Rust

/-! ### Errors -/

/-- The kinds of `HttpClientError`. -/
inductive ErrorKind where
  | bodyDecode
  | bodyTransfer
  | build
  | connect
  | connectionUpgrade
  | other
  | redirect
  | request
  | timeout
  | userAborted
deriving DecidableEq, Repr

/-- An error of the client, with its text if it is made from one. -/
structure HttpClientError where
  kind : ErrorKind
  text : Option String
deriving DecidableEq, Repr

/-! ### Requests -/

def uriAlreadyNormalized (uri : Uri) : Bool :=
  uri.scheme.isSome && uri.host.isSome && uri.portNumber.isSome && uri.path.isSome

namespace UriFormatter

/-- The scheme of a URI without one: `HTTPS` in a build with the feature `__tls`. -/
def defaultScheme (tls : Bool) : Scheme := if tls then .https else .http

def port (scheme : Scheme) (uri : Uri) : Nat := uri.portNumber.getD scheme.defaultPort

/-- `UriFormatter::format`. The builder gets parts that are built already, except for the
authority, so that only the authority and the check of the whole can fail. -/
def format (tls : Bool) (uri : Uri) : Except HttpClientError Uri :=
  if uriAlreadyNormalized uri then .ok uri
  else
    match uri.host with
    | none => .error ⟨.request, some "No host in url"⟩
    | some host =>
      let scheme := uri.scheme.getD (defaultScheme tls)
      match Authority.fromBytes (host ++ 0x3a :: decimalText (port scheme uri)) with
      | .error _ => .error ⟨.request, some "Normalize url failed"⟩
      | .ok authority =>
        match Uri.validityCheck ⟨some scheme, some authority, some (uri.path.getD (ascii "/")), uri.query⟩ with
        | .error _ => .error ⟨.request, some "Normalize url failed"⟩
        | .ok uri => .ok uri

end UriFormatter

variable {uri : Uri} {tls : Bool} {name needle : List UInt8}

theorem portNumber_lt {n : Nat} (h : uri.portNumber = some n) : n < 65536 := by
  obtain ⟨text, -, hparse⟩ := Option.bind_eq_some_iff.mp h
  unfold Uri.parseU16 at hparse
  dsimp only at hparse
  -- the sign in front first, then the two tests
  split at hparse <;>
  · split at hparse
    next => cases hparse
    next =>
      split at hparse
      next hlt =>
        cases hparse
        exact hlt
      next => cases hparse

theorem port_lt (scheme : Scheme) (uri : Uri) : UriFormatter.port scheme uri < 65536 := by
  rw [UriFormatter.port]
  cases hport : uri.portNumber with
  | some n => exact portNumber_lt hport
  | none => cases scheme <;> decide

/-- What `format` leaves of a URI. -/
structure Formatted (tls : Bool) (uri uri' : Uri) : Prop where
  normalized : uriAlreadyNormalized uri' = true
  scheme : uri'.scheme = some (uri.scheme.getD (UriFormatter.defaultScheme tls))
  host : uri'.host = uri.host
  port : uri'.portNumber = some (UriFormatter.port (uri.scheme.getD (UriFormatter.defaultScheme tls)) uri)

theorem formatted_of_normalized (tls : Bool) (h : uriAlreadyNormalized uri = true) : Formatted tls uri uri := by
  have hparts := h
  simp only [uriAlreadyNormalized, Bool.and_eq_true, Option.isSome_iff_exists] at hparts
  obtain ⟨⟨⟨⟨scheme, hscheme⟩, -⟩, n, hport⟩, -⟩ := hparts
  refine ⟨h, ?_, rfl, ?_⟩
  · rw [hscheme]
    rfl
  · rw [UriFormatter.port, hport]
    rfl

theorem formatted_of_format {uri' : Uri} (h : UriFormatter.format tls uri = .ok uri') : Formatted tls uri uri' := by
  rw [UriFormatter.format] at h
  split at h
  next hnorm =>
    cases h
    exact formatted_of_normalized tls hnorm
  next =>
    split at h
    next => cases h
    next host hhost =>
      dsimp only at h
      split at h
      next => cases h
      next authority hauthority =>
        split at h
        next => cases h
        next built hvalid =>
          cases h
          obtain rfl := Uri.eq_of_validityCheck hvalid
          obtain ⟨s, htext⟩ := Uri.authorityText_of_fromBytes hauthority
          obtain rfl := htext.of_port (decimalText_ne_nil _) fun b hb => .inl (digit_decimalDigits _ _ b hb)
          have hport := parseU16_decimalText (port_lt (uri.scheme.getD (UriFormatter.defaultScheme tls)) uri)
          refine ⟨?_, rfl, hhost.symm, hport⟩
          simp only [uriAlreadyNormalized, Uri.host, Uri.portNumber, Uri.port, Option.map_some, Option.bind_some, hport,
            Option.isSome_some, Bool.and_self]

namespace UriFormatter

/-- The path of `format` that builds the URI anew. -/
def rebuild (tls : Bool) (uri : Uri) : Except HttpClientError Uri :=
  match uri.host with
  | none => .error ⟨.request, some "No host in url"⟩
  | some host =>
    let scheme := uri.scheme.getD (defaultScheme tls)
    match Authority.fromBytes (host ++ 0x3a :: decimalText (port scheme uri)) with
    | .error _ => .error ⟨.request, some "Normalize url failed"⟩
    | .ok authority =>
      match Uri.validityCheck ⟨some scheme, some authority, some (uri.path.getD (ascii "/")), uri.query⟩ with
      | .error _ => .error ⟨.request, some "Normalize url failed"⟩
      | .ok uri => .ok uri

theorem format_eq (tls : Bool) (uri : Uri) :
    format tls uri = if uriAlreadyNormalized uri then .ok uri else rebuild tls uri := rfl

/-- A URI with a host is built anew from its parts, with the port as a number. -/
theorem rebuild_eq {bytes host : List UInt8} {uri : Uri} (tls : Bool) (h : Uri.fromBytes bytes = .ok uri)
    (hhost : uri.host = some host) : rebuild tls uri = .ok ⟨some (uri.scheme.getD (defaultScheme tls)),
      some ⟨host, some (decimalText (port (uri.scheme.getD (defaultScheme tls)) uri))⟩,
      some (uri.path.getD (ascii "/")), uri.query⟩ := by
  obtain ⟨a, ha, rfl⟩ := Option.map_eq_some_iff.mp hhost
  obtain ⟨s, htext⟩ := (Uri.printable_of_fromBytes h).authority a ha
  have hport := parseU16_decimalText (port_lt (uri.scheme.getD (defaultScheme tls)) uri)
  rw [rebuild, hhost]
  simp only [htext.with_port (decimalText_ne_nil _) (by rw [hport]; rfl)]
  rfl

end UriFormatter

/-- The port is written as a number is. -/
def PlainPort (uri : Uri) : Prop := ∀ n ∈ uri.portNumber, uri.port = some (decimalText n)

/-- Formatting leaves a formatted URI alone, and the shortcut leaves what is built otherwise. -/
def Settles (tls : Bool) (uri : Uri) : Prop :=
  (∀ uri', UriFormatter.format tls uri = .ok uri' → UriFormatter.format tls uri' = .ok uri') ∧
    (uriAlreadyNormalized uri = true → UriFormatter.rebuild tls uri = UriFormatter.format tls uri)

theorem settles_iff {bytes : List UInt8} (tls : Bool) (h : Uri.fromBytes bytes = .ok uri) :
    Settles tls uri ↔ (uriAlreadyNormalized uri = true → PlainPort uri) := by
  have hkept : ∀ uri', UriFormatter.format tls uri = .ok uri' → UriFormatter.format tls uri' = .ok uri' :=
    fun uri' h => if_pos (formatted_of_format h).normalized
  rw [Settles, and_iff_right hkept]
  refine forall_congr' fun hnorm => ?_
  have hparts := hnorm
  simp only [uriAlreadyNormalized, Bool.and_eq_true, Option.isSome_iff_exists] at hparts
  obtain ⟨⟨⟨⟨scheme, hscheme⟩, host, hhost⟩, n, hport⟩, path, hpath⟩ := hparts
  have hnumber : UriFormatter.port (uri.scheme.getD (UriFormatter.defaultScheme tls)) uri = n := by
    rw [UriFormatter.port, hport, Option.getD_some]
  rw [UriFormatter.rebuild_eq tls h hhost, UriFormatter.format_eq, if_pos hnorm, hnumber, PlainPort, hport]
  constructor
  · rintro heq n ⟨⟩
    exact (congrArg Uri.port (Except.ok.inj heq)).symm
  · intro hplain
    refine congrArg Except.ok (Uri.eq_of_parts rfl ?_ hhost.symm (hplain n rfl).symm ?_ rfl)
    · rw [hscheme, Option.getD_some]
    · rw [hpath, Option.getD_some]

/-- Two URIs with the same parts, up to the writing of the port, have the same form, and it is kept, exactly
if ports are written as numbers are in those that have all parts already. -/
theorem format_agrees_iff (tls : Bool) {bytes bytes' : List UInt8} {u v : Uri} (hu : Uri.fromBytes bytes = .ok u)
    (hv : Uri.fromBytes bytes' = .ok v) (hsome : u.host.isSome)
    (hsame : u.scheme = v.scheme ∧ u.host = v.host ∧ u.portNumber = v.portNumber ∧ u.path = v.path ∧ u.query = v.query) :
    ((∃ w, UriFormatter.format tls u = .ok w ∧ UriFormatter.format tls v = .ok w) ∧ Settles tls u ∧ Settles tls v) ↔
      (uriAlreadyNormalized u = true → PlainPort u ∧ PlainPort v) := by
  obtain ⟨hscheme, hhosts, hport, hpath, hquery⟩ := hsame
  have hnorm : uriAlreadyNormalized v = uriAlreadyNormalized u := by
    rw [uriAlreadyNormalized, uriAlreadyNormalized, hscheme, hhosts, hport, hpath]
  rw [settles_iff tls hu, settles_iff tls hv, hnorm]
  constructor
  · rintro ⟨-, hplain, hplain'⟩ hall
    exact ⟨hplain hall, hplain' hall⟩
  · intro hplain
    refine ⟨?_, fun hall => (hplain hall).1, fun hall => (hplain hall).2⟩
    obtain ⟨host, hhost⟩ := Option.isSome_iff_exists.mp hsome
    rw [UriFormatter.format_eq, UriFormatter.format_eq, hnorm]
    split
    next hall =>
      obtain ⟨hu', hv'⟩ := hplain hall
      simp only [uriAlreadyNormalized, Bool.and_eq_true, Option.isSome_iff_exists] at hall
      obtain ⟨n, hn⟩ := hall.1.2
      have hports : u.port = v.port := (hu' n hn).trans (hv' n (hport ▸ hn)).symm
      exact ⟨u, rfl, congrArg Except.ok (Uri.eq_of_parts hsome hscheme hhosts hports hpath hquery).symm⟩
    next =>
      refine ⟨_, UriFormatter.rebuild_eq tls hu hhost, ?_⟩
      rw [UriFormatter.rebuild_eq tls hv (hhosts ▸ hhost), UriFormatter.port, UriFormatter.port, hscheme, hport, hpath, hquery]

/-- A URI in two ways of writing its scheme. -/
theorem format_agrees_iff_upper : ∃ u v, Uri.fromBytes (ascii "http://a:80/") = .ok u ∧
    Uri.fromBytes (ascii "HTTP://a:80/") = .ok v ∧
      (((∃ w, UriFormatter.format true u = .ok w ∧ UriFormatter.format true v = .ok w) ∧ Settles true u ∧ Settles true v) ↔
        (uriAlreadyNormalized u = true → PlainPort u ∧ PlainPort v)) := by
  have hu : Uri.fromBytes (ascii "http://a:80/") = .ok ⟨some .http, some ⟨ascii "a", some (ascii "80")⟩, some (ascii "/"), none⟩ := by
    decide +kernel
  have hv : Uri.fromBytes (ascii "HTTP://a:80/") = .ok ⟨some .http, some ⟨ascii "a", some (ascii "80")⟩, some (ascii "/"), none⟩ := by
    decide +kernel
  exact ⟨_, _, hu, hv, format_agrees_iff true hu hv rfl ⟨rfl, rfl, rfl, rfl, rfl⟩⟩

/-- A port with a leading zero stays as it is. -/
theorem format_leadingZero : ∃ u v, Uri.fromBytes (ascii "http://a:080/") = .ok u ∧
    Uri.fromBytes (ascii "http://a:80/") = .ok v ∧ u.portNumber = v.portNumber ∧
      (UriFormatter.format true u).toOption ≠ (UriFormatter.format true v).toOption := by
  refine ⟨⟨some .http, some ⟨ascii "a", some (ascii "080")⟩, some (ascii "/"), none⟩,
    ⟨some .http, some ⟨ascii "a", some (ascii "80")⟩, some (ascii "/"), none⟩, ?_⟩
  decide +kernel

def formatHostValue (uri : Uri) : Except HttpClientError (List UInt8) :=
  match uri.host, uri.port with
  | some host, some port =>
    match Uri.parseU16 port with
    | none => .error ⟨.request, none⟩
    | some n =>
      if n = (uri.scheme.getD .http).defaultPort then .ok host
      else .ok ((uri.authority.map Authority.toStr).getD [])
  | some host, none => .ok host
  | none, _ => .error ⟨.request, some "Request Uri lack host"⟩

/-- `let _ = headers.insert(name, value)`. -/
def insertValid (headers : Headers) (name value : List UInt8) : Headers :=
  match headers.insertField name value with
  | .ok headers => headers
  | .error _ => headers

namespace RequestFormatter

def headers (part : RequestPart) (hostValue : List UInt8) : Headers :=
  let accepting :=
    if (part.headers.get (ascii "accept")).isNone then insertValid part.headers (ascii "Accept") (ascii "*/*")
    else part.headers
  insertValid accepting (ascii "Host") hostValue

def format (tls : Bool) : Rust.Method RequestPart HttpClientError Unit := fun part =>
  if part.version = .http10 ∧ part.method = .connect then .err ⟨.request, some "Unknown METHOD in HTTP/1.0"⟩ part
  else
    match UriFormatter.format tls part.uri with
    | .error e => .err e part
    | .ok uri =>
      match formatHostValue uri with
      | .error e => .err e { part with uri := uri }
      | .ok hostValue => .ok () { part with uri := uri, headers := headers part hostValue }

end RequestFormatter

theorem get_insertValid_of_ne {other value : List UInt8} (h : name.map headerChar ≠ other.map headerChar)
    (map : Headers) : (insertValid map name value).get other = map.get other := by
  rw [insertValid]
  split
  next map' hinsert => exact Headers.get_insertField_of_ne h hinsert
  next => rfl

/-- The fields that `format` does not set. -/
def NotFormatted (name : List UInt8) : Prop :=
  (ascii "Accept").map headerChar ≠ name.map headerChar ∧ (ascii "Host").map headerChar ≠ name.map headerChar

instance (name : List UInt8) : Decidable (NotFormatted name) := inferInstanceAs (Decidable (_ ∧ _))

theorem get_headers (h : NotFormatted name) (part : RequestPart) (hostValue : List UInt8) :
    (RequestFormatter.headers part hostValue).get name = part.headers.get name := by
  rw [RequestFormatter.headers, get_insertValid_of_ne h.2]
  split
  next => exact get_insertValid_of_ne h.1 part.headers
  next => rfl

/-- What `format` leaves of a request. -/
structure RequestFormatted (tls : Bool) (part part' : RequestPart) : Prop where
  uri : Formatted tls part.uri part'.uri
  headers : ∀ {name}, NotFormatted name → part'.headers.get name = part.headers.get name

theorem formatted_of_ok {part part' : RequestPart}
    (h : RequestFormatter.format tls part = .ok () part') : RequestFormatted tls part part' := by
  rw [RequestFormatter.format] at h
  split at h
  next => cases h
  next =>
    split at h
    next => cases h
    next uri huri =>
      split at h
      next => cases h
      next hostValue _ =>
        cases h
        exact ⟨formatted_of_format huri, fun hname => get_headers hname part hostValue⟩

/-! ### The bodies of responses -/

def bytesContains (haystack needle : List UInt8) : Bool := haystack.tails.any needle.isPrefixOf

def headerValueContains (value : HeaderValue) (needle : List UInt8) : Bool :=
  value.inner.any (bytesContains · needle)

/-- One digit of `header_value_to_u64`, with the checks for overflow. -/
def pushDigit (parsed : Nat) (b : UInt8) : Option Nat :=
  if ¬ Uri.Digit b then none
  else if 2 ^ 64 ≤ 10 * parsed then none
  else if 2 ^ 64 ≤ 10 * parsed + (b.toNat - 0x30) then none
  else some (10 * parsed + (b.toNat - 0x30))

def headerValueToU64 (value : HeaderValue) : Option Nat :=
  match value.inner with
  | [bytes] => if bytes.isEmpty then none else bytes.foldlM pushDigit 0
  | _ => none

inductive BodyLength where
  | chunk
  | length (len : Nat)
  | empty
  | untilClose
deriving DecidableEq, Repr

/-- `BodyLengthParser::parse`. -/
def BodyLengthParser.parse (reqMethod : Request.Method) (part : ResponsePart) : Except HttpClientError BodyLength :=
  if part.status.isInformational ∨ part.status.code = 204 ∨ part.status.code = 304 then .ok .empty
  else if (reqMethod = .connect ∧ part.status.isSuccessful) ∨ reqMethod = .head then .ok .empty
  else
    match part.headers.get (ascii "transfer-encoding") with
    | some value =>
      if part.version = .http10 then .error ⟨.request, some "Illegal Transfer-Encoding in HTTP/1.0"⟩
      else if headerValueContains value (ascii "chunked") then .ok .chunk
      else .ok .untilClose
    | none =>
      match part.headers.get (ascii "content-length") with
      | some value =>
        match headerValueToU64 value with
        | some 0 => .ok .empty
        | some len => .ok (.length len)
        | none => .error ⟨.request, some "Invalid response content-length"⟩
      | none => .ok .untilClose

/-! ### Transfer codings -/

section Infix

variable {α : Type} {needle : List α}

theorem infix_append_cons {c : α} (hc : c ∉ needle) (xs ys : List α) :
    needle <:+: xs ++ c :: ys ↔ needle <:+: xs ∨ needle <:+: ys := by
  rw [infix_append_iff]
  constructor
  · rintro (hxs | hys | ⟨front, back, rfl, hfront, hback⟩)
    · exact .inl hxs
    · rcases infix_cons_iff.mp hys with hys | hys
      · cases needle with
        | nil => exact .inl ⟨[], xs, rfl⟩
        | cons a needle => exact absurd (cons_prefix_cons.mp hys).1 fun heq => hc (heq ▸ mem_cons_self)
      · exact .inr hys
    · cases back with
      | nil => exact .inl (by simpa using hfront.isInfix)
      | cons a back =>
        obtain ⟨rfl, -⟩ := cons_prefix_cons.mp hback
        exact absurd (mem_append_right _ mem_cons_self) hc
  · rintro (hxs | hys)
    · exact .inl hxs
    · exact .inr (.inl (hys.trans (suffix_cons c ys).isInfix))

theorem infix_splitOn [BEq α] [LawfulBEq α] {c : α} (hc : c ∉ needle) (hne : needle ≠ []) (text : List α) :
    (∃ part ∈ text.splitOn c, needle <:+: part) ↔ needle <:+: text := by
  have hjoin : ∀ parts : List (List α), (∃ part ∈ parts, needle <:+: part) ↔ needle <:+: [c].intercalate parts := by
    intro parts
    induction parts with
    | nil => simpa using hne
    | cons part parts ih =>
      cases parts with
      | nil => simp
      | cons next parts =>
        rw [intercalate_cons_cons, append_assoc, singleton_append, infix_append_cons hc, ← ih, exists_mem_cons_iff]
  rw [hjoin, intercalate_splitOn]

theorem infix_dropWhile {p : α → Bool} (hne : needle ≠ []) (hp : ∀ c ∈ needle, p c = false) (text : List α) :
    needle <:+: text.dropWhile p ↔ needle <:+: text := by
  induction text with
  | nil => rfl
  | cons b text ih =>
    rw [dropWhile_cons]
    split
    next hb =>
      rw [ih, infix_cons_iff, or_iff_right]
      intro hprefix
      obtain ⟨c, needle, rfl⟩ := exists_cons_of_ne_nil hne
      obtain ⟨rfl, -⟩ := cons_prefix_cons.mp hprefix
      cases hb.symm.trans (hp c mem_cons_self)
    next => rfl

end Infix

/-- A blank around a transfer coding. -/
def isBlank (b : UInt8) : Bool := b == 0x20 || b == 0x09

/-- The transfer codings of a field: there is a comma between two values as well. -/
def transferCodings (value : HeaderValue) : List (List UInt8) :=
  ((value.inner.flatMap (·.splitOn 0x2c)).map fun part => (part.dropWhile isBlank).rdropWhile isBlank).filter (· ≠ [])

/-- The last transfer coding is `chunked`, in any case. -/
def EndsChunked (value : HeaderValue) : Prop :=
  (transferCodings value).getLast?.map (List.map toAsciiLowercase) = some (ascii "chunked")

instance (value : HeaderValue) : Decidable (EndsChunked value) := inferInstanceAs (Decidable (_ = _))

/-- A transfer coding has the text `chunked` in it. -/
def MentionsChunked (value : HeaderValue) : Prop := ∃ coding ∈ transferCodings value, ascii "chunked" <:+: coding

theorem bytesContains_iff {haystack : List UInt8} : bytesContains haystack needle = true ↔ needle <:+: haystack := by
  simp only [bytesContains, any_eq_true, mem_tails, isPrefixOf_iff_prefix, infix_iff_prefix_suffix, and_comm]

/-- The search in the bytes of the values finds a text within one transfer coding. -/
theorem headerValueContains_iff (hne : needle ≠ []) (hcomma : 0x2c ∉ needle)
    (hblank : ∀ c ∈ needle, isBlank c = false) (value : HeaderValue) :
    headerValueContains value needle = true ↔ ∃ coding ∈ transferCodings value, needle <:+: coding := by
  have htrim : ∀ part : List UInt8, needle <:+: (part.dropWhile isBlank).rdropWhile isBlank ↔ needle <:+: part := by
    intro part
    rw [rdropWhile, ← reverse_infix, reverse_reverse,
      infix_dropWhile (by simpa using hne) (by simpa using hblank), reverse_infix, infix_dropWhile hne hblank]
  simp only [headerValueContains, any_eq_true, bytesContains_iff, transferCodings, mem_filter, mem_map,
    mem_flatMap, decide_eq_true_eq]
  constructor
  · rintro ⟨bytes, hbytes, hinfix⟩
    obtain ⟨part, hpart, hinfix⟩ := (infix_splitOn hcomma hne bytes).mpr hinfix
    rw [← htrim] at hinfix
    refine ⟨_, ⟨⟨part, ⟨bytes, hbytes, hpart⟩, rfl⟩, fun hnil => hne ?_⟩, hinfix⟩
    rwa [hnil, infix_nil] at hinfix
  · rintro ⟨-, ⟨⟨part, ⟨bytes, hbytes, hpart⟩, rfl⟩, -⟩, hinfix⟩
    exact ⟨bytes, hbytes, (infix_splitOn hcomma hne bytes).mp ⟨part, hpart, (htrim part).mp hinfix⟩⟩

/-- Chunked framing is chosen exactly if a transfer coding has the text `chunked` in it. -/
theorem BodyLengthParser.parse_chunk_iff {reqMethod : Request.Method} {part : ResponsePart}
    (hversion : part.version = .http11)
    (hstatus : ¬ (part.status.isInformational ∨ part.status.code = 204 ∨ part.status.code = 304))
    (hmethod : ¬ ((reqMethod = .connect ∧ part.status.isSuccessful) ∨ reqMethod = .head)) :
    BodyLengthParser.parse reqMethod part = .ok .chunk ↔
      ∃ value, part.headers.get (ascii "transfer-encoding") = some value ∧ MentionsChunked value := by
  rw [BodyLengthParser.parse, if_neg hstatus, if_neg hmethod]
  cases part.headers.get (ascii "transfer-encoding") with
  | some value =>
    have hmentions : headerValueContains value (ascii "chunked") = true ↔ MentionsChunked value :=
      headerValueContains_iff (by decide) (by decide +kernel) (by decide +kernel) value
    simp only [hversion, reduceCtorEq, if_false, Option.some.injEq, exists_eq_left', ← hmentions]
    split
    next h => exact ⟨fun _ => h, fun _ => rfl⟩
    next h => exact ⟨nofun, fun h' => absurd h' h⟩
  | none =>
    simp only [reduceCtorEq, false_and, exists_false, iff_false]
    split
    · split
      all_goals exact nofun
    · exact nofun

/-- A response to GET with the field `Transfer-Encoding: gzip, chunked`. -/
theorem BodyLengthParser.parse_chunk_iff_gzip : ∃ part : ResponsePart,
    (part.headers.get (ascii "transfer-encoding")).map HeaderValue.inner = some [ascii "gzip, chunked"] ∧
      (BodyLengthParser.parse .get part = .ok .chunk ↔
        ∃ value, part.headers.get (ascii "transfer-encoding") = some value ∧ MentionsChunked value) := by
  refine ⟨⟨.http11, ⟨200, by decide⟩, (∅ : Headers).insert ⟨ascii "transfer-encoding", by decide +kernel⟩
    ⟨[ascii "gzip, chunked"], false, by decide +kernel⟩⟩, by decide +kernel, ?_⟩
  exact parse_chunk_iff rfl (by decide) (by decide)

/-- `Transfer-Encoding: Chunked` is not taken for chunked framing. -/
theorem BodyLengthParser.parse_capitalChunked : ∃ part : ResponsePart, part.version = .http11 ∧ part.status.code = 200 ∧
    BodyLengthParser.parse .get part = .ok .untilClose ∧
      ∃ value, part.headers.get (ascii "transfer-encoding") = some value ∧ EndsChunked value := by
  refine ⟨⟨.http11, ⟨200, by decide⟩, (∅ : Headers).insert ⟨ascii "transfer-encoding", by decide +kernel⟩
    ⟨[ascii "Chunked"], false, by decide +kernel⟩⟩, rfl, rfl, by decide +kernel, ?_⟩
  exact ⟨⟨[ascii "Chunked"], false, by decide +kernel⟩, by decide +kernel, by decide +kernel⟩

end Client

end YlongHttp
