/-
What the tokenizers of the URI parser take.

A text of a component followed by nothing, or by a byte that ends it, is taken apart into the
text and the rest (`authorityToken_text`, `pathToken_text`, `queryPart_text`,
`schemeToken_text`), and whatever a tokenizer takes is such a text (`authorityToken_cases`,
`pathToken_cases`, `queryPart_cases`, `schemeToken_cases`).
-/

import YlongHttp.Uri.Parse

namespace YlongHttp.Uri

open Codec List
open H2.Hpack (ascii)

/-- The text is at its end, or a byte comes that ends a token. -/
def Ends (ends : UInt8 → Bool) (rest : List UInt8) : Prop := ∀ b ∈ rest.head?, ends b = true

theorem ends_nil (ends : UInt8 → Bool) : Ends ends [] := by
  rintro b ⟨⟩

theorem ends_cons {ends : UInt8 → Bool} {b : UInt8} (h : ends b = true) (rest : List UInt8) : Ends ends (b :: rest) := by
  rintro _ ⟨⟩
  exact h

theorem bind_eq_ok {α β : Type} {x : Except InvalidUri α} {f : α → Except InvalidUri β} {b : β} :
    (x >>= f) = .ok b ↔ ∃ a, x = .ok a ∧ f a = .ok b := by
  cases x with
  | error e =>
    constructor
    · rintro ⟨⟩
    · rintro ⟨a, ⟨⟩, -⟩
  | ok a =>
    constructor
    · intro h
      exact ⟨a, rfl, h⟩
    · rintro ⟨_, ⟨⟩, h⟩
      exact h

/-! ### Path and query -/

section Token

variable {ends allowed : UInt8 → Bool}

/-- The bytes of a token. -/
def Token (ends allowed : UInt8 → Bool) (token : List UInt8) : Prop :=
  ∀ b ∈ token, ends b = false ∧ allowed b = true

theorem token_nil : Token ends allowed [] := by
  rintro b ⟨⟩

theorem tokenEnd_append {token rest : List UInt8} (htoken : Token ends allowed token) (hrest : Ends ends rest) (i : Nat) :
    tokenEnd ends allowed (token ++ rest) i = .ok (i + token.length) := by
  induction token generalizing i with
  | nil =>
    cases rest with
    | nil => rfl
    | cons b rest =>
      rw [nil_append, tokenEnd, if_pos (hrest b rfl)]
      rfl
  | cons b token ih =>
    obtain ⟨hends, hallowed⟩ := htoken b mem_cons_self
    rw [cons_append, tokenEnd, hends, hallowed, ih fun c hc => htoken c (mem_cons_of_mem b hc),
      length_cons, add_right_comm, add_assoc]
    rfl

theorem tokenEnd_cases {bytes : List UInt8} {i stop : Nat} (h : tokenEnd ends allowed bytes i = .ok stop) :
    ∃ token rest, bytes = token ++ rest ∧ stop = i + token.length ∧ Token ends allowed token ∧ Ends ends rest := by
  induction bytes generalizing i with
  | nil =>
    cases h
    exact ⟨[], [], rfl, rfl, token_nil, ends_nil ends⟩
  | cons b bytes ih =>
    rw [tokenEnd] at h
    split at h
    next hends =>
      cases h
      exact ⟨[], b :: bytes, rfl, rfl, token_nil, ends_cons hends bytes⟩
    next hends =>
      split at h
      next hallowed =>
        obtain ⟨token, rest, rfl, rfl, htoken, hrest⟩ := ih h
        refine ⟨b :: token, rest, rfl, ?_, ?_, hrest⟩
        · rw [length_cons, add_right_comm, add_assoc]
        · intro c hc
          rcases mem_cons.mp hc with rfl | hc
          · exact ⟨Bool.eq_false_iff.mpr hends, hallowed⟩
          · exact htoken c hc
      next => cases h

end Token

def PathText (path : List UInt8) : Prop := path ≠ [] ∧ Token pathStop pathAndQueryByte path

variable {rest bytes : List UInt8} {query : Option (List UInt8)}

theorem pathToken_text {path : List UInt8} (h : PathText path) (hrest : Ends pathStop rest) :
    pathToken (path ++ rest) = .ok (some path, rest) := by
  have hpos : path.length ≠ 0 := fun hzero => h.1 (length_eq_zero_iff.mp hzero)
  simp only [pathToken, tokenEnd_append h.2 hrest, zero_add, bind, Except.bind, if_pos hpos, take_left, drop_left]
  rfl

theorem pathToken_none (hrest : Ends pathStop rest) : pathToken rest = .ok (none, rest) := by
  have hstop : tokenEnd pathStop pathAndQueryByte rest 0 = .ok 0 := tokenEnd_append token_nil hrest 0
  rw [pathToken, hstop]
  rfl

theorem pathToken_cases {path : Option (List UInt8)} (h : pathToken bytes = .ok (path, rest)) : Ends pathStop rest ∧
      (path = none ∧ bytes = rest ∨ ∃ text, path = some text ∧ bytes = text ++ rest ∧ PathText text) := by
  cases hstop : tokenEnd pathStop pathAndQueryByte bytes 0 with
  | error e =>
    rw [pathToken, hstop] at h
    cases h
  | ok stop =>
    obtain ⟨token, more, rfl, rfl, htoken, hmore⟩ := tokenEnd_cases hstop
    rw [pathToken, hstop] at h
    simp only [bind, Except.bind, zero_add, take_left, drop_left] at h
    split at h
    next hpos =>
      cases h
      refine ⟨hmore, .inr ⟨token, rfl, rfl, ?_, htoken⟩⟩
      rintro rfl
      exact hpos rfl
    next hzero =>
      cases h
      obtain rfl : token = [] := length_eq_zero_iff.mp (not_not.mp hzero)
      exact ⟨hmore, .inl ⟨rfl, rfl⟩⟩

def QueryText (query : List UInt8) : Prop := query ≠ [] ∧ Token queryStop queryByte query

theorem queryToken_text {query : List UInt8} (h : QueryText query) (hrest : Ends queryStop rest) :
    queryToken (query ++ rest) = .ok (some query) := by
  have hpos : query.length ≠ 0 := fun hzero => h.1 (length_eq_zero_iff.mp hzero)
  have hne : (query ++ rest).isEmpty = false := by
    rw [isEmpty_eq_false_iff]
    exact fun hnil => h.1 (append_eq_nil_iff.mp hnil).1
  simp only [queryToken, hne, tokenEnd_append h.2 hrest, zero_add, bind, Except.bind, if_neg hpos, take_left]
  rfl

theorem queryToken_cases (h : queryToken bytes = .ok query) :
    query = none ∨ ∃ text rest, query = some text ∧ bytes = text ++ rest ∧ QueryText text ∧ Ends queryStop rest := by
  rw [queryToken] at h
  split at h
  next =>
    cases h
    exact .inl rfl
  next =>
    cases hstop : tokenEnd queryStop queryByte bytes 0 with
    | error e =>
      rw [hstop] at h
      cases h
    | ok stop =>
      obtain ⟨token, more, rfl, rfl, htoken, hmore⟩ := tokenEnd_cases hstop
      rw [hstop] at h
      simp only [bind, Except.bind, zero_add, take_left] at h
      split at h
      next =>
        cases h
        exact .inl rfl
      next hpos =>
        cases h
        refine .inr ⟨token, more, rfl, rfl, ⟨?_, htoken⟩, hmore⟩
        rintro rfl
        exact hpos rfl

/-- The query with the question mark in front of it. -/
def queryText (query : Option (List UInt8)) : List UInt8 := (query.map (0x3f :: ·)).getD []

theorem ends_queryText (query : Option (List UInt8)) : Ends pathStop (queryText query) := by
  cases query with
  | none => exact ends_nil pathStop
  | some query => exact ends_cons rfl query

theorem queryPart_text (h : ∀ text ∈ query, QueryText text) : queryPart (queryText query) = .ok query := by
  cases query with
  | none => rfl
  | some query =>
    have htoken := queryToken_text (h query rfl) (ends_nil queryStop)
    rwa [append_nil] at htoken

theorem queryPart_cases (h : queryPart rest = .ok query) :
    (∀ text ∈ query, QueryText text) ∧ queryText query <+: rest := by
  cases rest with
  | nil =>
    cases h
    exact ⟨by simp, nil_prefix⟩
  | cons b rest =>
    rw [queryPart] at h
    split at h
    next hb =>
      rcases queryToken_cases h with rfl | ⟨text, more, rfl, rfl, htext, -⟩
      · exact ⟨by simp, nil_prefix⟩
      · constructor
        · rintro _ ⟨⟩
          exact htext
        · rw [hb]
          exact ⟨more, rfl⟩
    next =>
      split at h
      next =>
        cases h
        exact ⟨by simp, nil_prefix⟩
      next => cases h

/-! ### The authority -/

/-- The loop of `authority_token` over a text in which the authority does not end. -/
def scanAuthority : List UInt8 → Nat → AuthorityScan → Except InvalidUri AuthorityScan
  | [], _, s => .ok s
  | b :: rest, i, s => authorityByte i b s >>= scanAuthority rest (i + 1)

theorem scanAuthority_append (xs ys : List UInt8) (i : Nat) (s : AuthorityScan) :
    scanAuthority (xs ++ ys) i s = scanAuthority xs i s >>= scanAuthority ys (i + xs.length) := by
  induction xs generalizing i s with
  | nil => rfl
  | cons b xs ih =>
    rw [cons_append, scanAuthority, scanAuthority, length_cons]
    cases authorityByte i b s with
    | error e => rfl
    | ok s' =>
      have harith : i + (xs.length + 1) = i + 1 + xs.length := by omega
      rw [harith]
      exact ih (i + 1) s'

theorem authorityEnd_append {text : List UInt8} (htext : ∀ b ∈ text, authorityStop b = false)
    (hrest : Ends authorityStop rest) (i : Nat) (s : AuthorityScan) :
    authorityEnd (text ++ rest) i s = (scanAuthority text i s).map fun s => (i + text.length, s) := by
  induction text generalizing i s with
  | nil =>
    cases rest with
    | nil => rfl
    | cons b rest =>
      rw [nil_append, authorityEnd, if_pos (hrest b rfl)]
      rfl
  | cons b text ih =>
    rw [cons_append, authorityEnd, htext b mem_cons_self, scanAuthority, length_cons]
    cases authorityByte i b s with
    | error e => rfl
    | ok s' =>
      have harith : i + (text.length + 1) = i + 1 + text.length := by omega
      rw [harith]
      exact ih (fun c hc => htext c (mem_cons_of_mem b hc)) (i + 1) s'

theorem exists_authority (bytes : List UInt8) :
    ∃ text rest, bytes = text ++ rest ∧ (∀ b ∈ text, authorityStop b = false) ∧ Ends authorityStop rest := by
  induction bytes with
  | nil => exact ⟨[], [], rfl, by simp, ends_nil _⟩
  | cons b bytes ih =>
    cases hstop : authorityStop b with
    | true => exact ⟨[], b :: bytes, rfl, by simp, ends_cons hstop bytes⟩
    | false =>
      obtain ⟨text, rest, rfl, htext, hrest⟩ := ih
      refine ⟨b :: text, rest, rfl, ?_, hrest⟩
      intro c hc
      rcases mem_cons.mp hc with rfl | hc
      · exact hstop
      · exact htext c hc

/-- A text that is taken for an authority. -/
structure AuthorityText (text : List UInt8) (authority : Authority) (s : AuthorityScan) : Prop where
  nonempty : text ≠ []
  bytes : ∀ b ∈ text, authorityStop b = false
  scan : scanAuthority text 0 ⟨0, false, false⟩ = .ok s
  brackets : s.leftBracket = s.rightBracket
  colons : s.colonNum ≤ 1
  parts : hostPort text s.colonNum = .ok authority

theorem authorityToken_text {text : List UInt8} {authority : Authority} {s : AuthorityScan}
    (h : AuthorityText text authority s) (hrest : Ends authorityStop rest) :
    authorityToken (text ++ rest) = .ok (some authority, rest) := by
  have hpos : text.length ≠ 0 := fun hzero => h.nonempty (length_eq_zero_iff.mp hzero)
  have hbrackets : (s.leftBracket ^^ s.rightBracket) = false := by
    rw [h.brackets, Bool.xor_self]
  simp only [authorityToken, authorityEnd_append h.bytes hrest, h.scan, Except.map, bind, Except.bind, zero_add,
    authorityParse, if_neg hpos, hbrackets, if_neg (not_lt.mpr h.colons), take_left, drop_left, h.parts]
  rfl

theorem authorityToken_none (hrest : Ends authorityStop rest) : authorityToken rest = .ok (none, rest) := by
  have hend := authorityEnd_append (by simp : ∀ b ∈ ([] : List UInt8), authorityStop b = false) hrest 0 ⟨0, false, false⟩
  rw [nil_append] at hend
  rw [authorityToken, hend]
  rfl

theorem authorityToken_cases {authority : Option Authority} (h : authorityToken bytes = .ok (authority, rest)) :
    Ends authorityStop rest ∧ (authority = none ∧ bytes = rest ∨
      ∃ text a s, authority = some a ∧ bytes = text ++ rest ∧ AuthorityText text a s) := by
  obtain ⟨text, more, rfl, htext, hmore⟩ := exists_authority bytes
  rw [authorityToken, authorityEnd_append htext hmore] at h
  cases hscan : scanAuthority text 0 ⟨0, false, false⟩ with
  | error e =>
    rw [hscan] at h
    cases h
  | ok s =>
    simp only [hscan, Except.map, bind, Except.bind, zero_add, authorityParse, take_left, drop_left] at h
    split at h
    next hzero =>
      cases h
      obtain rfl : text = [] := length_eq_zero_iff.mp hzero
      exact ⟨hmore, .inl ⟨rfl, rfl⟩⟩
    next hpos =>
      split at h
      next => cases h
      next hbrackets =>
        split at h
        next => cases h
        next hcolons =>
          cases hparts : hostPort text s.colonNum with
          | error e =>
            rw [hparts] at h
            cases h
          | ok a =>
            rw [hparts] at h
            cases h
            refine ⟨hmore, .inr ⟨text, a, s, rfl, rfl, ?_, htext, hscan, ?_, Nat.le_of_not_lt hcolons, hparts⟩⟩
            · rintro rfl
              exact hpos rfl
            · simpa using hbrackets

end YlongHttp.Uri
