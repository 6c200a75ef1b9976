/-
The parser of URIs (`request/uri/mod.rs`).

`Uri.fromBytes` runs four tokenizers one after the other, each on what the one before it has
left: for the scheme, for the authority, for the path and for the query. A text is its bytes.
The slices of the source are all inside of their text, so the tokenizers return an error or a
result.
-/

import YlongHttp.Message
import YlongHttp.H1.HeaderBytes

namespace YlongHttp

open H2.Hpack (ascii)

/-- The kinds of `InvalidUri`. -/
inductive InvalidUri where
  | invalidScheme
  | invalidAuthority
  | invalidPath
  | invalidByte
  | invalidFormat
  | invalidPort
  | uriMissScheme
  | uriMissPath
  | uriMissQuery
  | uriMissAuthority
  | uriMissHost
  | uriContainUserinfo
  | uriTooLong
deriving DecidableEq, Repr

def maxUriLen : Nat := 65535 - 1

/-- `URI_VALUE_BYTES`. -/
def uriValueBytes : List Bool :=
  let o := false
  let T := true
  [
    o,o,o,o,o,o,o,o,o,o,o,o,o,o,o,o,
    o,o,o,o,o,o,o,o,o,o,o,o,o,o,o,o,
    o,T,o,T,T,T,T,T,T,T,T,T,T,T,T,T,
    T,T,T,T,T,T,T,T,T,T,T,T,o,T,o,T,
    T,T,T,T,T,T,T,T,T,T,T,T,T,T,T,T,
    T,T,T,T,T,T,T,T,T,T,T,T,o,T,o,T,
    o,T,T,T,T,T,T,T,T,T,T,T,T,T,T,T,
    T,T,T,T,T,T,T,T,T,T,T,o,o,o,T,o,
    o,o,o,o,o,o,o,o,o,o,o,o,o,o,o,o,
    o,o,o,o,o,o,o,o,o,o,o,o,o,o,o,o,
    o,o,o,o,o,o,o,o,o,o,o,o,o,o,o,o,
    o,o,o,o,o,o,o,o,o,o,o,o,o,o,o,o,
    o,o,o,o,o,o,o,o,o,o,o,o,o,o,o,o,
    o,o,o,o,o,o,o,o,o,o,o,o,o,o,o,o,
    o,o,o,o,o,o,o,o,o,o,o,o,o,o,o,o,
    o,o,o,o,o,o,o,o,o,o,o,o,o,o,o,o ]

def uriValueByte (b : UInt8) : Bool := uriValueBytes.getD b.toNat false

/-- `PATH_AND_QUERY_BYTES`. -/
def pathAndQueryBytes : List Bool :=
  let o := false
  let T := true
  [
    o,o,o,o,o,o,o,o,o,o,o,o,o,o,o,o,
    o,o,o,o,o,o,o,o,o,o,o,o,o,o,o,o,
    o,T,o,o,T,T,T,T,T,T,T,T,T,T,T,T,
    T,T,T,T,T,T,T,T,T,T,T,T,o,T,o,o,
    T,T,T,T,T,T,T,T,T,T,T,T,T,T,T,T,
    T,T,T,T,T,T,T,T,T,T,T,T,T,T,T,T,
    o,T,T,T,T,T,T,T,T,T,T,T,T,T,T,T,
    T,T,T,T,T,T,T,T,T,T,T,o,T,o,T,o,
    o,o,o,o,o,o,o,o,o,o,o,o,o,o,o,o,
    o,o,o,o,o,o,o,o,o,o,o,o,o,o,o,o,
    o,o,o,o,o,o,o,o,o,o,o,o,o,o,o,o,
    o,o,o,o,o,o,o,o,o,o,o,o,o,o,o,o,
    o,o,o,o,o,o,o,o,o,o,o,o,o,o,o,o,
    o,o,o,o,o,o,o,o,o,o,o,o,o,o,o,o,
    o,o,o,o,o,o,o,o,o,o,o,o,o,o,o,o,
    o,o,o,o,o,o,o,o,o,o,o,o,o,o,o,o ]

def pathAndQueryByte (b : UInt8) : Bool := pathAndQueryBytes.getD b.toNat false

def eqIgnoreAsciiCase (a b : List UInt8) : Bool := a.map toAsciiLowercase == b.map toAsciiLowercase

namespace Uri

/-! ### The scheme -/

def slashes : List UInt8 := ascii "//"

/-- The text from the first colon on begins with `://`. -/
def schemeFollows (bytes : List UInt8) (index : Nat) : Bool :=
  (bytes.drop index).length > 2 && eqIgnoreAsciiCase ((bytes.drop (index + 1)).take 2) slashes

def schemeToken (bytes : List UInt8) : Except InvalidUri (Option Scheme × List UInt8) :=
  match bytes.findIdx? (· == 0x3a) with
  | none => .ok (none, bytes)
  | some index =>
    if index ≠ 0 ∧ schemeFollows bytes index = true then
      if eqIgnoreAsciiCase (bytes.take index) (ascii "http") then
        .ok (some .http, bytes.drop (ascii "http://").length)
      else if eqIgnoreAsciiCase (bytes.take index) (ascii "https") then
        .ok (some .https, bytes.drop (ascii "https://").length)
      else .error .invalidScheme
    else if index = 0 then .error .invalidScheme
    else .ok (none, bytes)

/-! ### The authority -/

/-- The variables of the loop in `authority_token`. -/
structure AuthorityScan where
  colonNum : Nat
  leftBracket : Bool
  rightBracket : Bool
deriving DecidableEq, Repr

def authorityStop (b : UInt8) : Bool := b == 0x2f || b == 0x3f || b == 0x23

/-- The byte at index `i`, if the authority does not end there. -/
def authorityByte (i : Nat) (b : UInt8) (s : AuthorityScan) : Except InvalidUri AuthorityScan :=
  if b = 0x5b then
    if i = 0 then .ok { s with leftBracket := true }
    else if s.leftBracket then .error .invalidAuthority
    else .ok s
  else if b = 0x5d then
    if s.leftBracket then
      if s.rightBracket then .error .invalidAuthority
      else .ok { s with rightBracket := true, colonNum := 0 }
    else .ok s
  else if b = 0x40 then .error .uriContainUserinfo
  else if b = 0x3a then .ok { s with colonNum := s.colonNum + 1 }
  else if uriValueByte b then .ok s
  else .error .invalidByte

def authorityEnd : List UInt8 → Nat → AuthorityScan → Except InvalidUri (Nat × AuthorityScan)
  | [], i, s => .ok (i, s)
  | b :: rest, i, s =>
    if authorityStop b then .ok (i, s)
    else do
      let s ← authorityByte i b s
      authorityEnd rest (i + 1) s

/-- `str::rsplit_once(':')`. -/
def rsplitOnce (text : List UInt8) : Option (List UInt8 × List UInt8) :=
  match text.reverse.findIdx? (· == 0x3a) with
  | none => none
  | some index => some (text.take (text.length - index - 1), text.drop (text.length - index))

/-- `str::parse::<u16>`: decimal digits, of which there is at least one, with a plus sign in
front or without. -/
def parseU16 (text : List UInt8) : Option Nat :=
  let digits := match text with
    | 0x2b :: rest => rest
    | _ => text
  if digits.isEmpty ∨ ¬ digits.all fun b => 0x30 ≤ b && b ≤ 0x39 then none
  else
    let value := digits.foldl (fun n b => 10 * n + (b.toNat - 0x30)) 0
    if value < 65536 then some value else none

def hostPort (auth : List UInt8) (colonNum : Nat) : Except InvalidUri Authority :=
  if colonNum ≠ 0 then
    match rsplitOnce auth with
    | some (host, port) =>
      if host.isEmpty then .error .uriMissHost
      else if port.isEmpty then .ok ⟨host, none⟩
      else if (parseU16 port).isNone then .error .invalidPort
      else .ok ⟨host, some port⟩
    | none => .error .uriMissAuthority
  else .ok ⟨auth, none⟩

def authorityParse (bytes : List UInt8) (stop : Nat) (s : AuthorityScan) :
    Except InvalidUri (Option Authority × List UInt8) :=
  if stop = 0 then .ok (none, bytes.drop stop)
  else if s.leftBracket ^^ s.rightBracket then .error .invalidAuthority
  else if s.colonNum > 1 then .error .invalidAuthority
  else do
    let authority ← hostPort (bytes.take stop) s.colonNum
    return (some authority, bytes.drop stop)

def authorityToken (bytes : List UInt8) : Except InvalidUri (Option Authority × List UInt8) := do
  let (stop, s) ← authorityEnd bytes 0 ⟨0, false, false⟩
  authorityParse bytes stop s

/-! ### Path and query -/

/-- The index of the first byte that ends a token; the bytes before it have to be allowed. -/
def tokenEnd (ends allowed : UInt8 → Bool) : List UInt8 → Nat → Except InvalidUri Nat
  | [], i => .ok i
  | b :: rest, i =>
    if ends b then .ok i
    else if allowed b then tokenEnd ends allowed rest (i + 1)
    else .error .invalidByte

def pathStop (b : UInt8) : Bool := b == 0x3f || b == 0x23

def pathToken (bytes : List UInt8) : Except InvalidUri (Option (List UInt8) × List UInt8) := do
  let stop ← tokenEnd pathStop pathAndQueryByte bytes 0
  if stop ≠ 0 then return (some (bytes.take stop), bytes.drop stop)
  else return (none, bytes.drop stop)

def queryStop (b : UInt8) : Bool := b == 0x23

/-- A query may also have `?`, a backtick and braces. -/
def queryByte (b : UInt8) : Bool :=
  b == 0x3f || b == 0x60 || b == 0x7b || b == 0x7d || pathAndQueryByte b

def queryToken (bytes : List UInt8) : Except InvalidUri (Option (List UInt8)) :=
  if bytes.isEmpty then .ok none
  else do
    let stop ← tokenEnd queryStop queryByte bytes 0
    if stop = 0 then return none
    else return some (bytes.take stop)

/-! ### URIs -/

def validityCheck (uri : Uri) : Except InvalidUri Uri :=
  match uri.scheme, uri.authority, uri.path, uri.query with
  | some _, none, _, _ => .error .uriMissAuthority
  | none, some _, some _, _ => .error .uriMissScheme
  | none, some _, _, some _ => .error .uriMissScheme
  | none, none, none, none => .error .invalidFormat
  | _, _, _, _ => .ok uri

/-- What follows the path. -/
def queryPart (rest : List UInt8) : Except InvalidUri (Option (List UInt8)) :=
  match rest with
  | [] => .ok none
  | b :: text =>
    if b = 0x3f then queryToken text
    else if b = 0x23 then .ok none
    else .error .uriMissQuery

def fromBytes (bytes : List UInt8) : Except InvalidUri Uri :=
  if bytes.length > maxUriLen then .error .uriTooLong
  else if bytes.isEmpty then .error .invalidFormat
  else do
    let (scheme, rest) ← schemeToken bytes
    let (authority, rest) ← authorityToken rest
    let (path, rest) ← pathToken rest
    let query ← queryPart rest
    validityCheck ⟨scheme, authority, path, query⟩

/-- `Uri::to_string`. -/
def toString (uri : Uri) : List UInt8 :=
  (uri.scheme.map (·.asStr ++ ascii "://")).getD [] ++ (uri.host.getD [] ++
    ((uri.port.map (0x3a :: ·)).getD [] ++ (uri.path.getD [] ++ (uri.query.map (0x3f :: ·)).getD [])))

end Uri

end YlongHttp
