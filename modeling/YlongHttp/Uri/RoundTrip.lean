/-
URIs that are parsed again.

What `to_string` gives for a parsed URI is tokenized into the same components
(`fromBytes_toString`). A relative reference is parsed into its path and its query unless the
first colon in it is followed by two slashes: then `scheme_token` takes what is in front of the
colon for a scheme, wherever the colon is (`fromBytes_relative_iff`).
-/

import YlongHttp.Uri.Tokens

namespace YlongHttp.Uri

open Codec List
open H2.Hpack (ascii)

/-! ### The text of an authority -/

def authorityText (a : Authority) : List UInt8 := a.host ++ (a.port.map (0x3a :: ·)).getD []

variable {text bytes rest rest' : List UInt8} {index : Nat} {u : Uri}

theorem rsplitOnce_eq {host port : List UInt8} (h : rsplitOnce text = some (host, port)) :
    text = host ++ 0x3a :: port := by
  rw [rsplitOnce] at h
  split at h
  next => cases h
  next index hindex =>
    cases h
    obtain ⟨hlt, hcolon, -⟩ := findIdx?_eq_some_iff_getElem.mp hindex
    rw [length_reverse] at hlt
    rw [getElem_reverse, beq_iff_eq] at hcolon
    have hstop : text.length - index - 1 = text.length - 1 - index := by omega
    have hstart : text.length - index = text.length - 1 - index + 1 := by omega
    rw [hstop, hstart, ← hcolon, getElem_cons_drop, take_append_drop]

/-- The text without an empty port is taken for the same authority. -/
theorem AuthorityText.print {a : Authority} {s : AuthorityScan} (h : AuthorityText text a s) :
    ∃ s', AuthorityText (authorityText a) a s' ∧ authorityText a <+: text := by
  have hparts := h.parts
  rw [hostPort] at hparts
  split at hparts
  next hcolon =>
    split at hparts
    next host port hsplit =>
      obtain rfl := rsplitOnce_eq hsplit
      split at hparts
      next => cases hparts
      next hhost =>
        split at hparts
        next hport =>
          -- an empty port: the colon at the end is gone
          cases hparts
          obtain rfl : port = [] := isEmpty_iff.mp hport
          have hscan := h.scan
          rw [scanAuthority_append] at hscan
          cases hfirst : scanAuthority host 0 ⟨0, false, false⟩ with
          | error e =>
            rw [hfirst] at hscan
            cases hscan
          | ok s' =>
            rw [hfirst] at hscan
            cases hscan
            have hcolons := h.colons
            have hzero : s'.colonNum = 0 := Nat.le_zero.mp (Nat.le_of_succ_le_succ hcolons)
            have htext : authorityText ⟨host, none⟩ = host := append_nil host
            rw [htext]
            refine ⟨s', ⟨?_, ?_, hfirst, h.brackets, ?_, ?_⟩, ⟨[0x3a], rfl⟩⟩
            · rintro rfl
              exact hhost rfl
            · intro b hb
              exact h.bytes b (mem_append_left _ hb)
            · rw [hzero]
              exact Nat.zero_le 1
            · rw [hzero]
              rfl
        next hport =>
          split at hparts
          next => cases hparts
          next =>
            cases hparts
            exact ⟨s, h, prefix_refl _⟩
    next => cases hparts
  next =>
    cases hparts
    have htext : authorityText ⟨text, none⟩ = text := append_nil text
    rw [htext]
    exact ⟨s, h, prefix_refl _⟩

/-! ### The scheme -/

/-- No scheme is read. -/
def NoScheme (text : List UInt8) : Prop :=
  ∀ index, text.findIdx? (· == 0x3a) = some index → index ≠ 0 ∧ schemeFollows text index = false

theorem schemeToken_none (h : NoScheme text) : schemeToken text = .ok (none, text) := by
  rw [schemeToken]
  split
  next => rfl
  next index hindex =>
    obtain ⟨hpos, hfollows⟩ := h index hindex
    rw [if_neg (by rw [hfollows]; simp), if_neg hpos]

theorem schemeToken_text (scheme : Scheme) (rest : List UInt8) :
    schemeToken (scheme.asStr ++ ascii "://" ++ rest) = .ok (some scheme, rest) := by
  have hlong : ∀ n : Nat, 2 < n + 1 + 1 + 1 := by omega
  have hfollows : ∀ {text : List UInt8} {index : Nat}, 2 < (text.drop index).length →
      eqIgnoreAsciiCase ((text.drop (index + 1)).take 2) slashes = true → schemeFollows text index = true := by
    intro text index hlong hslashes
    rw [schemeFollows, Bool.and_eq_true, decide_eq_true_eq]
    exact ⟨hlong, hslashes⟩
  cases scheme
  all_goals
    rw [schemeToken]
    split
    next hnone => cases hnone
    next index hindex =>
      cases hindex
      exact if_pos ⟨by decide, hfollows (hlong rest.length) rfl⟩

theorem length_of_eqIgnoreAsciiCase {a b : List UInt8} (h : eqIgnoreAsciiCase a b = true) : a.length = b.length := by
  have hmap := congrArg length (beq_iff_eq.mp h)
  rwa [length_map, length_map] at hmap

/-- A scheme in front of a colon with two slashes. -/
theorem scheme_front {name : List UInt8} (hfollows : schemeFollows bytes index = true)
    (hname : eqIgnoreAsciiCase (bytes.take index) name = true) :
    (bytes.take (name ++ ascii "://").length).length = (name ++ ascii "://").length := by
  rw [schemeFollows, Bool.and_eq_true, decide_eq_true_eq, length_drop] at hfollows
  have hlength := length_of_eqIgnoreAsciiCase hname
  rw [length_take] at hlength
  have hthree : (ascii "://").length = 3 := rfl
  rw [length_take, length_append]
  omega

theorem schemeToken_cases {scheme : Option Scheme} (h : schemeToken bytes = .ok (scheme, rest)) :
    scheme = none ∧ bytes = rest ∧ NoScheme bytes ∨
      ∃ s front, scheme = some s ∧ bytes = front ++ rest ∧ front.length = (s.asStr ++ ascii "://").length := by
  rw [schemeToken] at h
  split at h
  next hnone =>
    cases h
    refine .inl ⟨rfl, rfl, ?_⟩
    intro index hindex
    rw [hnone] at hindex
    cases hindex
  next index hindex =>
    split at h
    next hscheme =>
      obtain ⟨-, hfollows⟩ := hscheme
      right
      split at h
      next hname =>
        cases h
        exact ⟨.http, _, rfl, (take_append_drop _ bytes).symm, scheme_front hfollows hname⟩
      next =>
        split at h
        next hname =>
          cases h
          exact ⟨.https, _, rfl, (take_append_drop _ bytes).symm, scheme_front hfollows hname⟩
        next => cases h
    next hscheme =>
      split at h
      next => cases h
      next hpos =>
        cases h
        refine .inl ⟨rfl, rfl, ?_⟩
        intro index' hindex'
        obtain rfl : index = index' := Option.some.inj (hindex.symm.trans hindex')
        refine ⟨hpos, ?_⟩
        rw [Bool.eq_false_iff]
        intro hfollows
        exact hscheme ⟨hpos, hfollows⟩

theorem schemeFollows_append (h : schemeFollows text index = true)
    (more : List UInt8) : schemeFollows (text ++ more) index = true := by
  rw [schemeFollows, Bool.and_eq_true, decide_eq_true_eq, length_drop] at h ⊢
  obtain ⟨hlong, hslashes⟩ := h
  rw [length_append, drop_append_of_le_length (by omega), take_append_of_le_length (by rw [length_drop]; omega)]
  exact ⟨by omega, hslashes⟩

/-- The beginning of a text without a scheme has none either. -/
theorem NoScheme.of_start (h : NoScheme bytes) (hstart : text <+: bytes) : NoScheme text := by
  obtain ⟨more, rfl⟩ := hstart
  intro index hindex
  have hsame : (text ++ more).findIdx? (· == 0x3a) = some index := by
    rw [findIdx?_append, hindex]
    rfl
  obtain ⟨hpos, hfollows⟩ := h index hsame
  refine ⟨hpos, ?_⟩
  rw [Bool.eq_false_iff] at hfollows ⊢
  intro htext
  exact hfollows (schemeFollows_append htext more)

/-! ### Parsing again -/

/-- What follows the authority. -/
def pathAndQuery (u : Uri) : List UInt8 := u.path.getD [] ++ queryText u.query

/-- The text behind the scheme. -/
def hierText (u : Uri) : List UInt8 := (u.authority.map authorityText).getD [] ++ pathAndQuery u

/-- The components can be printed. -/
structure Printable (u : Uri) : Prop where
  authority : ∀ a ∈ u.authority, ∃ s, AuthorityText (authorityText a) a s
  path : ∀ p ∈ u.path, PathText p ∧ p.head? = some 0x2f
  query : ∀ q ∈ u.query, QueryText q

theorem toString_eq (u : Uri) : u.toString = (u.scheme.map (·.asStr ++ ascii "://")).getD [] ++ hierText u := by
  obtain ⟨scheme, authority, path, query⟩ := u
  cases authority with
  | none => rfl
  | some a =>
    simp only [toString, hierText, pathAndQuery, authorityText, queryText, host, port, Option.map_some,
      Option.getD_some, Option.bind_some, append_assoc]

theorem Printable.ends (h : Printable u) : Ends authorityStop (pathAndQuery u) := by
  obtain ⟨scheme, authority, path, query⟩ := u
  cases path with
  | none =>
    cases query with
    | none => exact ends_nil _
    | some q => exact ends_cons rfl q
  | some p =>
    obtain ⟨-, hslash⟩ := h.path p rfl
    intro b hb
    cases p with
    | nil => cases hslash
    | cons c p =>
      cases hslash
      cases hb
      rfl

/-- The text behind the scheme is tokenized into the components. -/
theorem Printable.tokens (h : Printable u) : authorityToken (hierText u) = .ok (u.authority, pathAndQuery u) ∧
      pathToken (pathAndQuery u) = .ok (u.path, queryText u.query) ∧ queryPart (queryText u.query) = .ok u.query := by
  refine ⟨?_, ?_, queryPart_text h.query⟩
  · cases hauthority : u.authority with
    | none =>
      rw [hierText, hauthority]
      exact authorityToken_none h.ends
    | some a =>
      obtain ⟨s, htext⟩ := h.authority a hauthority
      rw [hierText, hauthority]
      exact authorityToken_text htext h.ends
  · cases hpath : u.path with
    | none =>
      rw [pathAndQuery, hpath]
      exact pathToken_none (ends_queryText u.query)
    | some p =>
      rw [pathAndQuery, hpath]
      exact pathToken_text (h.path p hpath).1 (ends_queryText u.query)

theorem eq_of_validityCheck {u' : Uri} (h : validityCheck u = .ok u') : u = u' := by
  unfold validityCheck at h
  split at h
  all_goals cases h
  rfl

/-- Without a scheme there is an authority alone, or none. -/
theorem alone_of_validityCheck (hvalid : validityCheck u = .ok u) (hscheme : u.scheme = none) :
    u.authority = none ∨ pathAndQuery u = [] := by
  obtain ⟨scheme, authority, path, query⟩ := u
  cases hscheme
  cases authority with
  | none => exact .inl rfl
  | some a =>
    cases path with
    | some p => cases hvalid
    | none =>
      cases query with
      | some q => cases hvalid
      | none => exact .inr rfl

/-- The steps of `from_bytes`. -/
theorem fromBytes_cases (h : fromBytes bytes = .ok u) :
    bytes.length ≤ maxUriLen ∧ validityCheck u = .ok u ∧ ∃ rest rest' rest'',
      schemeToken bytes = .ok (u.scheme, rest) ∧ authorityToken rest = .ok (u.authority, rest') ∧
      pathToken rest' = .ok (u.path, rest'') ∧ queryPart rest'' = .ok u.query := by
  rw [fromBytes] at h
  split at h
  next => cases h
  next hlength =>
    split at h
    next => cases h
    next =>
      obtain ⟨⟨scheme, rest⟩, hscheme, h⟩ := bind_eq_ok.mp h
      obtain ⟨⟨authority, rest'⟩, hauthority, h⟩ := bind_eq_ok.mp h
      obtain ⟨⟨path, rest''⟩, hpath, h⟩ := bind_eq_ok.mp h
      obtain ⟨query, hquery, h⟩ := bind_eq_ok.mp h
      obtain rfl := eq_of_validityCheck h
      exact ⟨Nat.le_of_not_lt hlength, h, rest, rest', rest'', hscheme, hauthority, hpath, hquery⟩

variable {rest'' path : List UInt8}

theorem fromBytes_eq (hlength : bytes.length ≤ maxUriLen)
    (hvalid : validityCheck u = .ok u) (hscheme : schemeToken bytes = .ok (u.scheme, rest))
    (hauthority : authorityToken rest = .ok (u.authority, rest'))
    (hpath : pathToken rest' = .ok (u.path, rest'')) (hquery : queryPart rest'' = .ok u.query) :
    fromBytes bytes = .ok u := by
  have hne : bytes.isEmpty = false := by
    rw [isEmpty_eq_false_iff]
    rintro rfl
    obtain ⟨scheme, authority, path, query⟩ := u
    -- the empty text has no component
    cases hscheme
    cases hauthority
    cases hpath
    cases hquery
    cases hvalid
  simp only [fromBytes, if_neg (not_lt.mpr hlength), hne, hscheme, hauthority, hpath, hquery, bind, Except.bind, hvalid]
  rfl

/-- A path behind an authority, or at the start, begins with a slash. -/
theorem slash_of_ends (h : PathText path) (hends : Ends authorityStop (path ++ rest)) : path.head? = some 0x2f := by
  obtain ⟨hne, hbytes⟩ := h
  cases path with
  | nil => exact absurd rfl hne
  | cons b path =>
    have hstop : authorityStop b = true := hends b rfl
    have hpath : pathStop b = false := (hbytes b mem_cons_self).1
    simp only [authorityStop, pathStop, Bool.or_eq_true, Bool.or_eq_false_iff, beq_iff_eq,
      beq_eq_false_iff_ne] at hstop hpath
    rcases hstop with (rfl | hquestion) | hhash
    · rfl
    · exact absurd hquestion hpath.1
    · exact absurd hhash hpath.2

/-- The text of path and query is the beginning of what was parsed. -/
theorem pathAndQuery_start (hpath : pathToken rest = .ok (u.path, rest'))
    (hquery : queryPart rest' = .ok u.query) : pathAndQuery u <+: rest := by
  obtain ⟨-, hstart⟩ := queryPart_cases hquery
  obtain ⟨-, ⟨hnone, rfl⟩ | ⟨p, hsome, rfl, -⟩⟩ := pathToken_cases hpath
  · rw [pathAndQuery, hnone]
    exact hstart
  · rw [pathAndQuery, hsome]
    exact (prefix_append_right_inj p).mpr hstart

/-- The text behind the scheme is not longer than what was parsed, and is the beginning of it if
no path and no query follow the authority. -/
theorem hierText_start (hauthority : authorityToken rest = .ok (u.authority, rest'))
    (hpath : pathToken rest' = .ok (u.path, rest'')) (hquery : queryPart rest'' = .ok u.query) :
    (hierText u).length ≤ rest.length ∧ (u.authority = none ∨ pathAndQuery u = [] → hierText u <+: rest) := by
  have hstart := pathAndQuery_start hpath hquery
  obtain ⟨-, ⟨hnone, rfl⟩ | ⟨text, a, s, hsome, rfl, htext⟩⟩ := authorityToken_cases hauthority
  · rw [hierText, hnone]
    exact ⟨hstart.length_le, fun _ => hstart⟩
  · obtain ⟨-, -, hprint⟩ := htext.print
    rw [hierText, hsome]
    constructor
    · have hle := hprint.length_le
      have hle' := hstart.length_le
      simp only [Option.map_some, Option.getD_some, length_append]
      omega
    · rintro (hfalse | hnil)
      · cases hfalse
      · rw [hnil, append_nil]
        exact hprint.trans (prefix_append _ _)

section

variable (h : fromBytes bytes = .ok u)

include h

theorem printable_of_fromBytes : Printable u := by
  obtain ⟨-, -, rest, rest', rest'', -, hauthority, hpath, hquery⟩ := fromBytes_cases h
  obtain ⟨hends, hauthorityCases⟩ := authorityToken_cases hauthority
  refine ⟨?_, ?_, (queryPart_cases hquery).1⟩
  · intro a ha
    rcases hauthorityCases with ⟨hnone, -⟩ | ⟨text, a', s, hsome, -, htext⟩
    · rw [hnone] at ha
      cases ha
    · rw [hsome] at ha
      cases ha
      obtain ⟨s', hprint, -⟩ := htext.print
      exact ⟨s', hprint⟩
  · intro p hp
    obtain ⟨-, ⟨hnone, -⟩ | ⟨text, hsome, rfl, htext⟩⟩ := pathToken_cases hpath
    · rw [hnone] at hp
      cases hp
    · rw [hsome] at hp
      cases hp
      exact ⟨htext, slash_of_ends htext hends⟩

theorem toString_length_le : u.toString.length ≤ bytes.length := by
  obtain ⟨-, -, rest, rest', rest'', hscheme, hauthority, hpath, hquery⟩ := fromBytes_cases h
  obtain ⟨hle, -⟩ := hierText_start hauthority hpath hquery
  rw [toString_eq, length_append]
  rcases schemeToken_cases hscheme with ⟨hnone, rfl, -⟩ | ⟨s, front, hsome, rfl, hfront⟩
  · rw [hnone]
    simpa using hle
  · rw [hsome, length_append, hfront]
    exact Nat.add_le_add_left hle _

theorem noScheme_toString (hnone : u.scheme = none) : NoScheme u.toString := by
  obtain ⟨-, hvalid, rest, rest', rest'', hscheme, hauthority, hpath, hquery⟩ := fromBytes_cases h
  obtain ⟨-, hstart⟩ := hierText_start hauthority hpath hquery
  have halone := alone_of_validityCheck hvalid hnone
  rcases schemeToken_cases hscheme with ⟨-, rfl, hno⟩ | ⟨s, front, hsome, -, -⟩
  · rw [toString_eq, hnone]
    exact hno.of_start (hstart halone)
  · rw [hnone] at hsome
    cases hsome

end

/-- What is printed for a parsed URI is parsed into the same components. -/
theorem fromBytes_toString (b : List UInt8) (u : Uri) (h : fromBytes b = .ok u) :
    ∃ u', fromBytes u.toString = .ok u' ∧ u'.scheme = u.scheme ∧ u'.host = u.host ∧ u'.port = u.port ∧
      u'.path = u.path ∧ u'.query = u.query := by
  obtain ⟨hlength, hvalid, -⟩ := fromBytes_cases h
  obtain ⟨hauthority, hpath, hquery⟩ := (printable_of_fromBytes h).tokens
  have hscheme : schemeToken u.toString = .ok (u.scheme, hierText u) := by
    cases hs : u.scheme with
    | none =>
      rw [schemeToken_none (noScheme_toString h hs), toString_eq, hs]
      rfl
    | some s =>
      rw [toString_eq, hs]
      exact schemeToken_text s (hierText u)
  have hparse := fromBytes_eq (le_trans (toString_length_le h) hlength) hvalid hscheme hauthority hpath hquery
  exact ⟨u, hparse, rfl, rfl, rfl, rfl, rfl⟩

/-- An empty port, an empty query and a fragment are left out. -/
theorem fromBytes_toString_upper :
    fromBytes (ascii "HTTP://a:/b?#c") = .ok ⟨some .http, some ⟨ascii "a", none⟩, some (ascii "/b"), none⟩ ∧
    ∃ u', fromBytes (ascii "http://a/b") = .ok u' ∧ u'.scheme = some .http ∧ u'.host = some (ascii "a") ∧ u'.port = none ∧
      u'.path = some (ascii "/b") ∧ u'.query = none := by
  refine ⟨?parse, fromBytes_toString (ascii "HTTP://a:/b?#c") _ ?parse⟩
  decide +kernel

/-! ### Relative references -/

theorem toAsciiLowercase_slash : ∀ b : UInt8, toAsciiLowercase b = 0x2f → b = 0x2f := forall_byte (by decide +kernel)

theorem eq_slashes (h : eqIgnoreAsciiCase text slashes = true) : text = slashes := by
  have hmap : text.map toAsciiLowercase = [0x2f, 0x2f] := beq_iff_eq.mp h
  have hall : ∀ b ∈ text, b = 0x2f := by
    intro b hb
    have hmem : toAsciiLowercase b ∈ [0x2f, 0x2f] := hmap ▸ mem_map_of_mem hb
    exact toAsciiLowercase_slash b (by simpa using hmem)
  have htwo : text.length = 2 := length_of_eqIgnoreAsciiCase h
  rw [eq_replicate_of_mem hall, htwo]
  rfl

/-- The first colon is followed by two slashes. -/
def ColonSlashes (text : List UInt8) : Prop :=
  ∃ front after, text = front ++ (ascii "://" ++ after) ∧ 0x3a ∉ front

theorem colonSlashes_of_follows (hindex : text.findIdx? (· == 0x3a) = some index)
    (hfollows : schemeFollows text index = true) : ColonSlashes text := by
  obtain ⟨hlt, hcolon, hbefore⟩ := findIdx?_eq_some_iff_getElem.mp hindex
  rw [beq_iff_eq] at hcolon
  rw [schemeFollows, Bool.and_eq_true] at hfollows
  refine ⟨text.take index, (text.drop (index + 1)).drop 2, ?_, ?_⟩
  · have hcons : ascii "://" = 0x3a :: slashes := rfl
    rw [hcons, ← eq_slashes hfollows.2, cons_append, take_append_drop, ← hcolon, getElem_cons_drop, take_append_drop]
  · intro hmem
    obtain ⟨j, hj, heq⟩ := mem_take_iff_getElem.mp hmem
    have hno := hbefore j (lt_of_lt_of_le hj (min_le_left _ _))
    rw [heq] at hno
    exact hno rfl

theorem follows_of_colonSlashes (h : ColonSlashes text) :
    ∃ index, text.findIdx? (· == 0x3a) = some index ∧ schemeFollows text index = true := by
  obtain ⟨front, after, rfl, hfront⟩ := h
  have hnone : front.findIdx? (· == 0x3a) = none := by
    rw [findIdx?_eq_none_iff]
    intro b hb
    rw [beq_eq_false_iff_ne]
    rintro rfl
    exact hfront hb
  refine ⟨front.length, ?_, ?_⟩
  · have hfirst : (ascii "://" ++ after).findIdx? (· == 0x3a) = some 0 := rfl
    rw [findIdx?_append, hnone, hfirst]
    simp
  · have hdrop : (front ++ (ascii "://" ++ after)).drop (front.length + 1) = slashes ++ after := by
      rw [← drop_drop, drop_left]
      rfl
    have hlong : ∀ n : Nat, 2 < n + 1 + 1 + 1 := by omega
    rw [schemeFollows, Bool.and_eq_true, decide_eq_true_eq, drop_left, hdrop]
    exact ⟨hlong after.length, rfl⟩

/-- A text that does not begin with a colon. -/
theorem noScheme_iff (hhead : text.head? ≠ some 0x3a) : NoScheme text ↔ ¬ ColonSlashes text := by
  constructor
  · intro hno hcolon
    obtain ⟨index, hindex, hfollows⟩ := follows_of_colonSlashes hcolon
    rw [(hno index hindex).2] at hfollows
    cases hfollows
  · intro hno index hindex
    constructor
    · rintro rfl
      cases text with
      | nil => cases hindex
      | cons b text =>
        obtain ⟨hlt, hcolon, -⟩ := findIdx?_eq_some_iff_getElem.mp hindex
        rw [beq_iff_eq] at hcolon
        exact hhead (congrArg some hcolon)
    · rw [Bool.eq_false_iff]
      intro hfollows
      exact hno (colonSlashes_of_follows hindex hfollows)

theorem token_of_pathBytes (h : ∀ b ∈ path, pathAndQueryByte b = true) : Token pathStop pathAndQueryByte path := by
  have hstop : ∀ b : UInt8, pathAndQueryByte b = true → pathStop b = false := forall_byte (by decide +kernel)
  intro b hb
  exact ⟨hstop b (h b hb), h b hb⟩

theorem token_of_queryBytes {query : List UInt8} (h : ∀ b ∈ query, queryByte b = true) :
    Token queryStop queryByte query := by
  have hstop : ∀ b : UInt8, queryByte b = true → queryStop b = false := forall_byte (by decide +kernel)
  intro b hb
  exact ⟨hstop b (h b hb), h b hb⟩

/-- A relative reference is parsed into its path and its query, unless the first colon in it is
followed by two slashes. An empty query is no query. -/
theorem fromBytes_relative_iff (path : List UInt8) (query : Option (List UInt8)) (hslash : path.head? = some 0x2f)
    (hpath : ∀ b ∈ path, pathAndQueryByte b = true) (hquery : ∀ q ∈ query, ∀ b ∈ q, queryByte b = true)
    (hlength : (path ++ queryText query).length ≤ maxUriLen) :
    fromBytes (path ++ queryText query) = .ok ⟨none, none, some path, query.filter (· ≠ [])⟩ ↔
      ¬ ColonSlashes (path ++ queryText query) := by
  have hpathText : PathText path := by
    refine ⟨?_, token_of_pathBytes hpath⟩
    rintro rfl
    cases hslash
  have hhead : (path ++ queryText query).head? = some 0x2f := by
    rw [head?_append, hslash]
    rfl
  have hends : Ends authorityStop (path ++ queryText query) := by
    intro b hb
    rw [hhead] at hb
    cases hb
    rfl
  have hpart : queryPart (queryText query) = .ok (query.filter (· ≠ [])) := by
    cases query with
    | none => rfl
    | some q =>
      cases q with
      | nil => rfl
      | cons b q =>
        apply queryPart_text
        rintro _ ⟨⟩
        exact ⟨cons_ne_nil b q, token_of_queryBytes (hquery _ rfl)⟩
  rw [← noScheme_iff (by rw [hhead]; decide)]
  constructor
  · intro hparse
    obtain ⟨-, -, rest, -, -, hscheme, -⟩ := fromBytes_cases hparse
    rcases schemeToken_cases hscheme with ⟨-, -, hno⟩ | ⟨s, front, hsome, -, -⟩
    · exact hno
    · cases hsome
  · intro hno
    exact fromBytes_eq hlength rfl (schemeToken_none hno) (authorityToken_none hends)
      (pathToken_text hpathText (ends_queryText query)) hpart

/-- A query with a colon in it. -/
theorem fromBytes_relative_time : (ascii "/at?t=10:30").length ≤ maxUriLen ∧
    fromBytes (ascii "/at?t=10:30") = .ok ⟨none, none, some (ascii "/at"), some (ascii "t=10:30")⟩ := by
  have hlength : (ascii "/at" ++ queryText (some (ascii "t=10:30"))).length ≤ maxUriLen := by decide
  refine ⟨hlength, (fromBytes_relative_iff (ascii "/at") (some (ascii "t=10:30")) rfl (by decide +kernel)
    (by decide +kernel) hlength).mpr ?_⟩
  rw [← noScheme_iff (by decide)]
  intro index hindex
  obtain rfl : 8 = index := Option.some.inj hindex
  decide

/-- A query with a URI in it is refused. -/
theorem fromBytes_login : fromBytes (ascii "/login?next=http://a/b") = .error .invalidScheme := by
  decide +kernel

end YlongHttp.Uri
