/-
The parts of requests and responses (`request/mod.rs`, `request/method.rs`, `request/uri`,
`response/status.rs`, `version.rs`) and the errors of HTTP/1.

Texts are their bytes. A `StatusCode` carries the bounds that its constructors check.
-/

import YlongHttp.Headers
import YlongHttp.H2.Hpack.Table

namespace YlongHttp

open H2.Hpack (ascii)

/-- The kinds of `HttpError` that the HTTP/1 code gives. -/
inductive HttpError where
  | invalidInput
  | invalidResponse
deriving DecidableEq, Repr

inductive Version where
  | http10
  | http11
  | http2
  | http3
deriving DecidableEq, Repr

def Version.asStr : Version → List UInt8
  | .http10 => ascii "HTTP/1.0"
  | .http11 => ascii "HTTP/1.1"
  | .http2 => ascii "HTTP/2.0"
  | .http3 => ascii "HTTP/3.0"

/-! ### Requests -/

namespace Request

inductive Method where
  | get
  | head
  | post
  | put
  | delete
  | connect
  | options
  | trace
deriving DecidableEq, Repr

def Method.asStr : Method → List UInt8
  | .get => ascii "GET"
  | .head => ascii "HEAD"
  | .post => ascii "POST"
  | .put => ascii "PUT"
  | .delete => ascii "DELETE"
  | .connect => ascii "CONNECT"
  | .options => ascii "OPTIONS"
  | .trace => ascii "TRACE"

end Request

inductive Scheme where
  | http
  | https
deriving DecidableEq, Repr

def Scheme.asStr : Scheme → List UInt8
  | .http => ascii "http"
  | .https => ascii "https"

structure Authority where
  host : List UInt8
  port : Option (List UInt8)
deriving DecidableEq, Repr

structure Uri where
  scheme : Option Scheme
  authority : Option Authority
  path : Option (List UInt8)
  query : Option (List UInt8)
deriving DecidableEq, Repr

def Uri.host (uri : Uri) : Option (List UInt8) := uri.authority.map Authority.host

def Uri.port (uri : Uri) : Option (List UInt8) := uri.authority.bind Authority.port

structure RequestPart where
  uri : Uri
  method : Request.Method
  version : Version
  headers : Headers

/-! ### Responses -/

structure StatusCode where
  code : Nat
  three : 100 ≤ code ∧ code ≤ 999
deriving DecidableEq

/-- `from_bytes`. The digits are `u8`, so that what is below `'0'` wraps around to more
than nine. -/
def StatusCode.fromBytes (bytes : List UInt8) : Except HttpError StatusCode :=
  match bytes with
  | [a, b, c] =>
    let a := a - 0x30
    let b := b - 0x30
    let c := c - 0x30
    if h : a = 0 ∨ a > 9 ∨ b > 9 ∨ c > 9 then .error .invalidInput
    else
      .ok ⟨a.toNat * 100 + b.toNat * 10 + c.toNat, by
        simp only [not_or, UInt8.not_lt, gt_iff_lt, UInt8.le_iff_toNat_le] at h
        obtain ⟨ha, ha', hb, hc⟩ := h
        have hpos : a.toNat ≠ 0 := fun h0 => ha (UInt8.toNat.inj h0)
        have h9 : (9 : UInt8).toNat = 9 := rfl
        omega⟩
  | _ => .error .invalidInput

def StatusCode.asBytes (status : StatusCode) : List UInt8 :=
  [(status.code / 100).toUInt8 + 0x30, (status.code % 100 / 10).toUInt8 + 0x30, (status.code % 10).toUInt8 + 0x30]

structure ResponsePart where
  version : Version
  status : StatusCode
  headers : Headers

end YlongHttp
