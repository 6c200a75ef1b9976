/-
The builder of URIs (`UriBuilder`).

Each component is read on its own, by the tokenizer that the parser has for it, and `build`
checks only which components there are. The text of a built URI is parsed into the same
components if the path begins with a slash, as every parsed path does, and the parser finds no
scheme that was not given (`UriBuilder.fromBytes_toString_iff`).
-/

import YlongHttp.Uri.Authority

namespace YlongHttp

open H2.Hpack (ascii)

def Scheme.fromBytes (bytes : List UInt8) : Except InvalidUri Scheme :=
  if eqIgnoreAsciiCase bytes (ascii "http") then .ok .http
  else if eqIgnoreAsciiCase bytes (ascii "https") then .ok .https
  else .error .invalidScheme

def Path.fromBytes (bytes : List UInt8) : Except InvalidUri (List UInt8) := do
  let (path, rest) ← Uri.pathToken bytes
  if rest.isEmpty then
    match path with
    | some path => return path
    | none => throw .uriMissPath
  else throw .invalidPath

def Query.fromBytes (bytes : List UInt8) : Except InvalidUri (List UInt8) := do
  match ← Uri.queryToken bytes with
  | some query => return query
  | none => throw .uriMissQuery

structure UriBuilder where
  unprocessed : Except InvalidUri Uri

namespace UriBuilder

def new : UriBuilder := ⟨.ok ⟨none, none, none, none⟩⟩

def scheme (builder : UriBuilder) (scheme : List UInt8) : UriBuilder :=
  ⟨do
    let unprocessed ← builder.unprocessed
    let scheme ← Scheme.fromBytes scheme
    return { unprocessed with scheme := some scheme }⟩

def authority (builder : UriBuilder) (auth : List UInt8) : UriBuilder :=
  ⟨do
    let unprocessed ← builder.unprocessed
    let auth ← Authority.fromBytes auth
    return { unprocessed with authority := some auth }⟩

def path (builder : UriBuilder) (path : List UInt8) : UriBuilder :=
  ⟨do
    let unprocessed ← builder.unprocessed
    let path ← Path.fromBytes path
    return { unprocessed with path := some path }⟩

def query (builder : UriBuilder) (query : List UInt8) : UriBuilder :=
  ⟨do
    let unprocessed ← builder.unprocessed
    let query ← Query.fromBytes query
    return { unprocessed with query := some query }⟩

def build (builder : UriBuilder) : Except InvalidUri Uri := builder.unprocessed >>= Uri.validityCheck

/-! ### Sequences of calls -/

/-- The methods that set a component. -/
inductive Setter where
  | scheme
  | authority
  | path
  | query
deriving DecidableEq, Repr

/-- A call with the text that it is given. -/
abbrev Call := Setter × List UInt8

def call (builder : UriBuilder) : Call → UriBuilder
  | (.scheme, text) => builder.scheme text
  | (.authority, text) => builder.authority text
  | (.path, text) => builder.path text
  | (.query, text) => builder.query text

/-- The builder after calls in any order. -/
def after (calls : List Call) : UriBuilder := calls.foldl call new

/-- The text of the last call of a method. -/
def given (setter : Setter) (calls : List Call) : Option (List UInt8) :=
  calls.foldl (fun last c => if c.1 = setter then some c.2 else last) none

theorem after_append (calls : List Call) (c : Call) : after (calls ++ [c]) = (after calls).call c := by
  rw [after, List.foldl_append]
  rfl

theorem given_append (setter : Setter) (calls : List Call) (c : Call) :
    given setter (calls ++ [c]) = if c.1 = setter then some c.2 else given setter calls := by
  rw [given, List.foldl_append]
  rfl

/-- Each component is read from the text that was given last. -/
structure Built (calls : List Call) (u : Uri) : Prop where
  scheme : Option.Rel (fun text scheme => Scheme.fromBytes text = .ok scheme) (given .scheme calls) u.scheme
  authority : Option.Rel (fun text auth => Authority.fromBytes text = .ok auth) (given .authority calls) u.authority
  path : Option.Rel (fun text path => Path.fromBytes text = .ok path) (given .path calls) u.path
  query : Option.Rel (fun text query => Query.fromBytes text = .ok query) (given .query calls) u.query

theorem built_of_unprocessed {calls : List Call} {u : Uri} (h : (after calls).unprocessed = .ok u) : Built calls u := by
  induction calls using List.reverseRecOn generalizing u with
  | nil =>
    cases h
    exact ⟨.none, .none, .none, .none⟩
  | append_singleton calls c ih =>
    rw [after_append] at h
    obtain ⟨setter, text⟩ := c
    cases setter
    all_goals
      obtain ⟨before, hbefore, hset⟩ := Uri.bind_eq_ok.mp h
      obtain ⟨part, hread, ⟨⟩⟩ := Uri.bind_eq_ok.mp hset
      have hbuilt := ih hbefore
      -- one component is read anew, and the others are as before
      constructor <;> rw [given_append]
      all_goals first
        | exact .some hread
        | exact hbuilt.scheme
        | exact hbuilt.authority
        | exact hbuilt.path
        | exact hbuilt.query

theorem build_cases {calls : List Call} {u : Uri} (h : (after calls).build = .ok u) :
    Built calls u ∧ Uri.validityCheck u = .ok u := by
  obtain ⟨u', hunprocessed, hvalid⟩ := Uri.bind_eq_ok.mp h
  obtain rfl := Uri.eq_of_validityCheck hvalid
  exact ⟨built_of_unprocessed hunprocessed, hvalid⟩

end UriBuilder

/-! ### Components -/

namespace Uri

theorem path_of_fromBytes {bytes path : List UInt8} (h : Path.fromBytes bytes = .ok path) : path = bytes ∧ PathText path := by
  obtain ⟨⟨token, rest⟩, htoken, hrest⟩ := bind_eq_ok.mp h
  dsimp only at hrest
  split at hrest
  next hnil =>
    obtain rfl := List.isEmpty_iff.mp hnil
    obtain ⟨-, ⟨rfl, -⟩ | ⟨text, rfl, rfl, htext⟩⟩ := pathToken_cases htoken
    · cases hrest
    · cases hrest
      rw [List.append_nil]
      exact ⟨rfl, htext⟩
  next => cases hrest

/-- A query in front of its fragment. -/
def withoutFragment (query : List UInt8) : List UInt8 := query.takeWhile fun b => !queryStop b

theorem query_of_fromBytes {bytes query : List UInt8} (h : Query.fromBytes bytes = .ok query) :
    query = withoutFragment bytes ∧ QueryText query := by
  obtain ⟨token, htoken, hsome⟩ := bind_eq_ok.mp h
  rcases queryToken_cases htoken with rfl | ⟨text, rest, rfl, rfl, htext, hends⟩
  · cases hsome
  · cases hsome
    refine ⟨?_, htext⟩
    have hrest : rest.takeWhile (fun b => !queryStop b) = [] := by
      cases rest with
      | nil => rfl
      | cons b rest =>
        rw [List.takeWhile_cons, hends b rfl]
        rfl
    have hbytes : ∀ b ∈ query, (!queryStop b) = true := by
      intro b hb
      rw [(htext.2 b hb).1]
      rfl
    rw [withoutFragment, List.takeWhile_append_of_pos hbytes, hrest, List.append_nil]

/-- The text of an authority alone has no scheme. -/
theorem AuthorityText.noScheme {text : List UInt8} {a : Authority} {s : AuthorityScan} (h : AuthorityText text a s) :
    NoScheme text := by
  obtain ⟨hhost, rest, hrest⟩ := h.host_start
  have hhead : text.head? ≠ some 0x3a := by
    obtain ⟨literal, after, heq, hliteral, hcolon⟩ := h.host_colons
    rw [← hrest, List.head?_append_of_ne_nil _ hhost, heq]
    rcases hliteral with rfl | ⟨inner, rfl, -⟩
    · intro hsome
      exact hcolon (List.mem_of_mem_head? hsome)
    · exact fun hsome => absurd (Option.some.inj hsome) (by decide)
  rw [noScheme_iff hhead]
  rintro ⟨front, after, rfl, -⟩
  have hslash := h.bytes 0x2f (by simp [ascii])
  exact absurd hslash (by decide)

end Uri

/-! ### Built URIs are parsed again -/

namespace UriBuilder

/-- The texts of path and query, without a fragment. -/
def relativeText (calls : List Call) : List UInt8 :=
  (given .path calls).getD [] ++ Uri.queryText ((given .query calls).map Uri.withoutFragment)

variable {calls : List Call} {u : Uri}

section

variable (h : Built calls u)

include h

theorem Built.path_eq : u.path = given .path calls := by
  have hpath := h.path
  generalize u.path = path, given .path calls = text at hpath
  cases hpath with
  | none => rfl
  | some hread => rw [(Uri.path_of_fromBytes hread).1]

theorem Built.query_eq : u.query = (given .query calls).map Uri.withoutFragment := by
  have hquery := h.query
  generalize u.query = query, given .query calls = text at hquery
  cases hquery with
  | none => rfl
  | some hread =>
    rw [(Uri.query_of_fromBytes hread).1]
    rfl

theorem Built.scheme_none : u.scheme = none ↔ given .scheme calls = none := by
  have hscheme := h.scheme
  generalize u.scheme = scheme, given .scheme calls = text at hscheme
  cases hscheme <;> simp

theorem Built.pathAndQuery : Uri.pathAndQuery u = relativeText calls := by
  rw [Uri.pathAndQuery, relativeText, h.path_eq, h.query_eq]

theorem Built.printable (hslash : ∀ path ∈ given .path calls, path.head? = some 0x2f) : Uri.Printable u := by
  constructor
  · intro a ha
    have hauthority := h.authority
    rw [Option.mem_def.mp ha] at hauthority
    generalize given .authority calls = text at hauthority
    cases hauthority with
    | some hread =>
      obtain ⟨s, htext⟩ := Uri.authorityText_of_fromBytes hread
      obtain ⟨s', hprint, -⟩ := htext.print
      exact ⟨s', hprint⟩
  · intro path hpath
    have hread := h.path
    rw [Option.mem_def.mp hpath] at hread
    refine ⟨?_, hslash path (h.path_eq ▸ hpath)⟩
    generalize given .path calls = text at hread
    cases hread with
    | some hread => exact (Uri.path_of_fromBytes hread).2
  · intro query hquery
    have hread := h.query
    rw [Option.mem_def.mp hquery] at hread
    generalize given .query calls = text at hread
    cases hread with
    | some hread => exact (Uri.query_of_fromBytes hread).2

end

/-- Path and query of a URI that can be printed. -/
theorem noScheme_pathAndQuery (h : Uri.Printable u) :
    Uri.NoScheme (Uri.pathAndQuery u) ↔ ¬ Uri.ColonSlashes (Uri.pathAndQuery u) := by
  apply Uri.noScheme_iff
  intro hcolon
  have hstop := h.ends 0x3a hcolon
  exact absurd hstop (by decide)

/-- The text of a built URI is parsed into the same components, unless the path does not begin
with a slash, or no scheme is given and the first colon of path and query is followed by two
slashes. -/
theorem fromBytes_toString_iff (calls : List Call) (u : Uri) (h : (after calls).build = .ok u)
    (hlength : u.toString.length ≤ maxUriLen) :
    Uri.fromBytes u.toString = .ok u ↔ (∀ path ∈ given .path calls, path.head? = some 0x2f) ∧
      (given .scheme calls = none → ¬ Uri.ColonSlashes (relativeText calls)) := by
  obtain ⟨hbuilt, hvalid⟩ := build_cases h
  rw [← hbuilt.pathAndQuery, ← hbuilt.scheme_none]
  constructor
  · intro hparse
    have hprint := Uri.printable_of_fromBytes hparse
    constructor
    · intro path hpath
      exact (hprint.path path (hbuilt.path_eq ▸ hpath)).2
    · intro hscheme
      rw [← noScheme_pathAndQuery hprint]
      have hno := Uri.noScheme_toString hparse hscheme
      rw [Uri.toString_eq, hscheme] at hno
      rcases Uri.alone_of_validityCheck hvalid hscheme with hnone | hnil
      · rwa [Uri.hierText, hnone] at hno
      · rw [hnil]
        rintro index ⟨⟩
  · rintro ⟨hslash, hcolon⟩
    have hprint := hbuilt.printable hslash
    obtain ⟨hauthority, hpath, hquery⟩ := hprint.tokens
    refine Uri.fromBytes_eq hlength hvalid ?_ hauthority hpath hquery
    rw [Uri.toString_eq]
    cases hscheme : u.scheme with
    | some scheme => exact Uri.schemeToken_text scheme (Uri.hierText u)
    | none =>
      apply Uri.schemeToken_none
      rcases Uri.alone_of_validityCheck hvalid hscheme with hnone | hnil
      · rw [Uri.hierText, hnone]
        exact (noScheme_pathAndQuery hprint).mpr (hcolon hscheme)
      · cases ha : u.authority with
        | none =>
          rw [Uri.hierText, ha, hnil]
          rintro index ⟨⟩
        | some a =>
          obtain ⟨s, htext⟩ := hprint.authority a ha
          rw [Uri.hierText, ha, hnil, List.append_nil]
          exact htext.noScheme

/-- A builder that is given all components, with upper case letters in the scheme. -/
theorem fromBytes_toString_search :
    (after [(.scheme, ascii "HTTP"), (.authority, ascii "a.b:80"), (.path, ascii "/s"), (.query, ascii "q=1#top")]).build =
      .ok ⟨some .http, some ⟨ascii "a.b", some (ascii "80")⟩, some (ascii "/s"), some (ascii "q=1")⟩ ∧
    Uri.fromBytes (ascii "http://a.b:80/s?q=1") =
      .ok ⟨some .http, some ⟨ascii "a.b", some (ascii "80")⟩, some (ascii "/s"), some (ascii "q=1")⟩ := by
  refine ⟨?build, (fromBytes_toString_iff _ _ ?build (by decide)).mpr ⟨?path, ?query⟩⟩
  case build => decide +kernel
  case path =>
    rintro path ⟨⟩
    rfl
  case query => rintro ⟨⟩

/-- A path that does not begin with a slash becomes part of the host. -/
theorem fromBytes_toString_host :
    (after [(.scheme, ascii "http"), (.authority, ascii "a.com"), (.path, ascii ".evil/x")]).build =
      .ok ⟨some .http, some ⟨ascii "a.com", none⟩, some (ascii ".evil/x"), none⟩ ∧
    Uri.fromBytes (Uri.toString ⟨some .http, some ⟨ascii "a.com", none⟩, some (ascii ".evil/x"), none⟩) =
      .ok ⟨some .http, some ⟨ascii "a.com.evil", none⟩, some (ascii "/x"), none⟩ := by
  constructor <;> decide +kernel

end UriBuilder

end YlongHttp
