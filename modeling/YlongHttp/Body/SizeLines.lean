/-
The size lines of accepted bodies.

`sizeLines` finds the size lines of an input by the sizes in them. For an accepted input, the
bytes that the decoder has taken are a body of the grammar if, and only if, all of these lines
are (`sizeLine_of_chunkedBody`, `chunkedBody_of_sizeLines`). A line that is not one of the grammar has no digit, or has something
else than an extension after the digits. Whatever the lines are, a size that does not fit in
`usize` is an error (`feed_of_size`).
-/

import YlongHttp.Body.ChunkAccepted

namespace YlongHttp.Body

open Rust Codec List
open H2.Hpack (ascii)

variable {W W' : List UInt8 → Nat → Prop}

/-! ### Lines -/

def lineSize (line : List UInt8) : Nat := hexValue (line.takeWhile isHex)

/-- The bytes up to the next CR. -/
def firstLine (bytes : List UInt8) : List UInt8 := bytes.takeWhile (· ≠ 0x0d)

def sizeLinesFrom : Nat → List UInt8 → List (List UInt8)
  | 0, _ => []
  | fuel + 1, bytes =>
    let line := firstLine bytes
    if lineSize line = 0 then [line]
    else line :: sizeLinesFrom fuel (bytes.drop (line.length + (2 + (lineSize line + 2))))

/-- The size lines, up to that of the last chunk or to the end of the input. -/
def sizeLines (bytes : List UInt8) : List (List UInt8) := sizeLinesFrom (bytes.length + 1) bytes

/-- The line has no CR, and its size is `n`. -/
def Reads (line : List UInt8) (n : Nat) : Prop := (∀ b ∈ line, b ≠ 0x0d) ∧ lineSize line = n

variable {front line body bytes tail : List UInt8} {n : Nat} {s : List UInt8 × Control}
  {rest data last q : List UInt8} {s' : List UInt8 × Control} {b : UInt8}

theorem takeWhile_eq {p : UInt8 → Bool} (hfront : ∀ b ∈ front, p b = true)
    (hrest : rest = [] ∨ ∃ b tail, rest = b :: tail ∧ p b = false) : (front ++ rest).takeWhile p = front := by
  rw [takeWhile_append_of_pos hfront]
  rcases hrest with rfl | ⟨b, tail, rfl, hb⟩
  · exact append_nil front
  · rw [takeWhile_cons_of_neg (by simp [hb]), append_nil]

theorem isHex_ne_cr : ∀ b : UInt8, isHex b = true → b ≠ 0x0d := forall_byte (by decide +kernel)

theorem reads_append {digits : List UInt8} (hhex : ∀ b ∈ digits, isHex b = true)
    (hinline : ∀ b ∈ rest, Inline b) (hstarts : rest = [] ∨ ∃ b tail, rest = b :: tail ∧ startsExt b = true) :
    Reads (digits ++ rest) (hexValue digits) := by
  constructor
  · intro b hb
    rcases mem_append.mp hb with hb | hb
    · exact isHex_ne_cr b (hhex b hb)
    · exact (hinline b hb).1
  · rw [lineSize, takeWhile_eq hhex]
    rcases hstarts with rfl | ⟨b, tail, rfl, hb⟩
    · exact .inl rfl
    · obtain ⟨hdigit, -⟩ := startsExt_ends b hb
      refine .inr ⟨b, tail, rfl, ?_⟩
      rw [isHex, hdigit]
      rfl

theorem reads_of_acceptedLine (h : AcceptedLine line n) : Reads line n := by
  obtain ⟨digits, rest, rfl, hhex, rfl, -, hinline, hstarts⟩ := h
  exact reads_append hhex hinline hstarts

theorem reads_of_sizeLine (h : SizeLine line n) : Reads line n := by
  obtain ⟨digits, ext, rfl, -, hhex, rfl, hext⟩ := h
  exact reads_append hhex hext.inline hext.starts

/-! ### The size lines of a body -/

theorem firstLine_append (h : ∀ b ∈ line, b ≠ 0x0d) (tail : List UInt8) : firstLine (line ++ 0x0d :: tail) = line :=
  takeWhile_eq (by simpa using h) (.inr ⟨0x0d, tail, rfl, rfl⟩)

theorem sizeLinesFrom_last (h : Reads line 0) (fuel : Nat) (tail : List UInt8) :
    sizeLinesFrom (fuel + 1) (line ++ crlf ++ tail) = [line] := by
  obtain ⟨hcr, hsize⟩ := h
  simp only [sizeLinesFrom, crlf, append_assoc, cons_append, nil_append]
  rw [firstLine_append hcr, if_pos hsize]

theorem sizeLinesFrom_cons (h : Reads line data.length) (hne : data ≠ []) (fuel : Nat) (tail : List UInt8) :
    sizeLinesFrom (fuel + 1) (line ++ crlf ++ data ++ crlf ++ tail) = line :: sizeLinesFrom fuel tail := by
  obtain ⟨hcr, hsize⟩ := h
  have hpos : ¬ data.length = 0 := fun h => hne (length_eq_zero_iff.mp h)
  simp only [sizeLinesFrom, crlf, append_assoc, cons_append, nil_append]
  rw [firstLine_append hcr, hsize, if_neg hpos, ← drop_drop, ← drop_drop, ← drop_drop]
  simp only [drop_succ_cons, drop_zero, drop_left]

section

variable (hreads : ∀ {line n}, W line n → Reads line n) (hlast : W last 0) (tail : List UInt8)
  (h : Chunks W front body)

include hreads hlast h

/-- The size lines of a framed body are its size lines. -/
theorem mem_sizeLinesFrom : ∀ {fuel : Nat}, front.length < fuel →
      ∀ line ∈ sizeLinesFrom fuel (front ++ (last ++ crlf ++ tail)), ∃ n, W line n := by
  induction h with
  | nil =>
    intro fuel hfuel line hline
    obtain ⟨fuel, rfl⟩ := Nat.exists_eq_succ_of_ne_zero (ne_of_gt hfuel)
    rw [nil_append, sizeLinesFrom_last (hreads hlast)] at hline
    rw [mem_singleton.mp hline]
    exact ⟨0, hlast⟩
  | @cons first data bytes body hfirst hne _ ih =>
    intro fuel hfuel line hline
    obtain ⟨fuel, rfl⟩ := Nat.exists_eq_succ_of_ne_zero (Nat.ne_zero_of_lt hfuel)
    rw [append_assoc _ bytes, sizeLinesFrom_cons (hreads hfirst) hne] at hline
    rcases mem_cons.mp hline with rfl | hline
    · exact ⟨_, hfirst⟩
    · refine ih ?_ line hline
      simp only [length_append, crlf, length_cons] at hfuel
      omega

/-- If the size lines of a body are of `W'`, the body is framed with `W'`. -/
theorem chunks_of_sizeLinesFrom : ∀ {fuel : Nat}, front.length < fuel →
      (∀ line ∈ sizeLinesFrom fuel (front ++ (last ++ crlf ++ tail)), ∀ n, W line n → W' line n) →
      Chunks W' front body ∧ W' last 0 := by
  induction h with
  | nil =>
    intro fuel hfuel hlines
    obtain ⟨fuel, rfl⟩ := Nat.exists_eq_succ_of_ne_zero (ne_of_gt hfuel)
    rw [nil_append, sizeLinesFrom_last (hreads hlast)] at hlines
    exact ⟨.nil, hlines last (mem_singleton_self last) 0 hlast⟩
  | @cons first data bytes body hfirst hne _ ih =>
    intro fuel hfuel hlines
    obtain ⟨fuel, rfl⟩ := Nat.exists_eq_succ_of_ne_zero (Nat.ne_zero_of_lt hfuel)
    rw [append_assoc _ bytes, sizeLinesFrom_cons (hreads hfirst) hne] at hlines
    have hshort : bytes.length < fuel := by
      simp only [length_append, crlf, length_cons] at hfuel
      omega
    obtain ⟨hchunks, hend⟩ := ih hshort fun line hline => hlines line (mem_cons_of_mem _ hline)
    exact ⟨.cons (hlines first (mem_cons_self ..) _ hfirst) hne hchunks, hend⟩

end

theorem length_lt_append (front rest : List UInt8) : front.length < (front ++ rest).length + 1 := by
  rw [length_append]
  exact Nat.lt_succ_of_le (Nat.le_add_right ..)

theorem framed_append (front last r : List UInt8) :
    front ++ last ++ crlf ++ crlf ++ r = front ++ (last ++ crlf ++ (crlf ++ r)) := by
  simp only [append_assoc]

theorem sizeLine_of_chunkedBody (r : List UInt8)
    (h : ChunkedBody usizeBound bytes body) : ∀ line ∈ sizeLines (bytes ++ r), ∃ n, SizeLine line n := by
  obtain ⟨front, last, hchunks, hlast, rfl⟩ := h
  intro line hline
  rw [framed_append] at hline
  obtain ⟨n, hsize, -⟩ := mem_sizeLinesFrom (fun hline => reads_of_sizeLine hline.1) hlast _ hchunks
    (length_lt_append ..) line hline
  exact ⟨n, hsize⟩

theorem chunkedBody_of_sizeLines (r : List UInt8)
    (h : Framed AcceptedLine bytes body) (hlines : ∀ line ∈ sizeLines (bytes ++ r), ∃ n, SizeLine line n) :
    ChunkedBody usizeBound bytes body := by
  obtain ⟨front, last, hchunks, hlast, rfl⟩ := h
  rw [framed_append] at hlines
  have hstrict : ∀ line ∈ sizeLines (front ++ (last ++ crlf ++ (crlf ++ r))),
      ∀ n, AcceptedLine line n → SizeLine line n ∧ n < usizeBound := by
    intro line hline n haccepted
    obtain ⟨m, hsize⟩ := hlines line hline
    have hsame : m = n := (reads_of_sizeLine hsize).2.symm.trans (reads_of_acceptedLine haccepted).2
    subst hsame
    obtain ⟨-, -, -, -, -, hlt, -, -⟩ := haccepted
    exact ⟨hsize, lt_trans hlt (by decide)⟩
  obtain ⟨hfront, hend⟩ :=
    chunks_of_sizeLinesFrom reads_of_acceptedLine hlast _ hchunks (length_lt_append ..) hstrict
  exact ⟨front, last, hfront, hend, rfl⟩

/-! ### A body is read in one way -/

theorem line_unique {line' tail' : List UInt8} (h : ∀ b ∈ line, b ≠ 0x0d)
    (h' : ∀ b ∈ line', b ≠ 0x0d) (heq : line ++ (crlf ++ tail) = line' ++ (crlf ++ tail')) :
    line = line' ∧ tail = tail' := by
  have hline : line = line' := by
    rw [← firstLine_append h (0x0a :: tail), ← firstLine_append h' (0x0a :: tail')]
    exact congrArg firstLine heq
  subst hline
  exact ⟨rfl, append_cancel_left (append_cancel_left heq)⟩

section

variable (hreads : ∀ {line n}, W line n → Reads line n)

include hreads

/-- A chunk in front of a body is its first chunk. -/
theorem Framed.tail_of_append (hline : Reads line data.length) (hne : data ≠ []) (h : Framed W bytes body)
    (heq : bytes ++ q = line ++ crlf ++ data ++ crlf ++ tail) :
    ∃ bytes' body', Framed W bytes' body' ∧ bytes' ++ q = tail ∧
      bytes = line ++ crlf ++ data ++ crlf ++ bytes' ∧ body = data ++ body' := by
  obtain ⟨front, last, hchunks, hlast, rfl⟩ := h
  cases hchunks with
  | nil =>
    simp only [nil_append, append_assoc] at heq
    obtain ⟨rfl, -⟩ := line_unique (hreads hlast).1 hline.1 heq
    have hzero : data.length = 0 := hline.2.symm.trans (hreads hlast).2
    exact absurd (length_eq_zero_iff.mp hzero) hne
  | @cons first data' front body hfirst hne' hrest =>
    simp only [append_assoc] at heq
    obtain ⟨rfl, hbehind⟩ := line_unique (hreads hfirst).1 hline.1 heq
    have hlength : data'.length = data.length := (hreads hfirst).2.symm.trans hline.2
    obtain ⟨rfl, hend⟩ := append_inj hbehind hlength
    have htail := append_cancel_left hend
    refine ⟨front ++ last ++ crlf ++ crlf, body, ⟨front, last, hrest, hlast, rfl⟩, ?_, ?_, rfl⟩
    · simp only [append_assoc]
      exact htail
    · simp only [append_assoc]

/-- Chunks in front of a body are its first chunks. -/
theorem Chunks.tail_of_append (hreads' : ∀ {line n}, W' line n → Reads line n) {content : List UInt8}
    (h : Chunks W front content) (hframed : Framed W' bytes body) (heq : bytes = front ++ tail) :
    ∃ body', Framed W' tail body' := by
  induction h generalizing bytes body with
  | nil =>
    rw [nil_append] at heq
    exact ⟨body, heq ▸ hframed⟩
  | @cons line data front content hline hne _ ih =>
    have hfirst : bytes ++ [] = line ++ crlf ++ data ++ crlf ++ (front ++ tail) := by
      rw [append_nil, heq]
      simp only [append_assoc]
    obtain ⟨bytes', body', hframed', hrest, -, -⟩ := hframed.tail_of_append hreads' (hreads hline) hne hfirst
    rw [append_nil] at hrest
    exact ih hframed' hrest

/-- No body goes on after its end, and it has one content. -/
theorem Framed.unique (hreads' : ∀ {line n}, W' line n → Reads line n)
    {bytes' body' q' : List UInt8} (h : Framed W bytes body) (h' : Framed W' bytes' body')
    (heq : bytes ++ q = bytes' ++ q') : bytes = bytes' ∧ body = body' := by
  obtain ⟨front, last, hchunks, hlast, rfl⟩ := h
  induction hchunks generalizing bytes' body' with
  | nil =>
    obtain ⟨front', last', hchunks', hlast', rfl⟩ := h'
    cases hchunks' with
    | nil =>
      simp only [nil_append, append_assoc] at heq
      obtain ⟨rfl, -⟩ := line_unique (hreads hlast).1 (hreads' hlast').1 heq
      exact ⟨rfl, rfl⟩
    | cons hline hne hrest =>
      simp only [nil_append, append_assoc] at heq
      obtain ⟨rfl, -⟩ := line_unique (hreads hlast).1 (hreads' hline).1 heq
      have hzero := (hreads' hline).2.symm.trans (hreads hlast).2
      exact absurd (length_eq_zero_iff.mp hzero) hne
  | @cons line data front body hline hne hrest ih =>
    have hfirst : bytes' ++ q' = line ++ crlf ++ data ++ crlf ++ (front ++ last ++ crlf ++ crlf ++ q) := by
      rw [← heq]
      simp only [append_assoc]
    obtain ⟨rest, restBody, hframed, hrest', rfl, rfl⟩ := h'.tail_of_append hreads' (hreads hline) hne hfirst
    obtain ⟨hbytes, rfl⟩ := ih hframed hrest'.symm
    refine ⟨?_, rfl⟩
    rw [← hbytes]
    simp only [append_assoc]

end

/-! ### Sizes that do not fit -/

/-- The decoder does not refuse the bytes, which may end early. -/
def Survives (s : List UInt8 × Control) (bytes : List UInt8) : Prop :=
  ∀ e, scan (chunkStep false) s bytes ≠ .fail e

theorem survives_nil (s : List UInt8 × Control) : Survives s [] := by
  rintro e ⟨⟩

theorem Survives.next (hstep : chunkStep false s b = .more s') (h : Survives s (b :: bytes)) : Survives s' bytes := by
  intro e hfail
  refine h e ?_
  rw [scan_more hstep, hfail]

theorem Survives.not_fail (h : Survives s (b :: bytes)) : chunkStep false s b ≠ .fail .invalidInput := by
  intro hstep
  exact h .invalidInput (scan_fail hstep _)

/-- What is left after an LF, at which the input may be cut. -/
theorem Survives.afterLf
    (hstep : ∀ b, chunkStep false s b = lfStep (.more s') b) (h : Survives s bytes) : Survives s' (bytes.drop 1) := by
  cases bytes with
  | nil => exact survives_nil s'
  | cons b bytes =>
    by_cases hlf : b = 0x0a
    · refine h.next ?_
      rw [hstep, lfStep, if_pos hlf]
    · refine absurd ?_ h.not_fail
      rw [hstep, lfStep, if_neg hlf]

theorem Survives.afterExt : ∀ {ext : List UInt8}, (∀ b ∈ ext, b ≠ 0x0d) → Survives (body, .ext n) (ext ++ tail) →
    (∀ b ∈ ext, Inline b) ∧ Survives (body, .ext n) tail := by
  intro ext
  induction ext with
  | nil =>
    intro _ h
    exact ⟨by simp, h⟩
  | cons b ext ih =>
    intro hcr h
    obtain ⟨hb, hrest⟩ := forall_mem_cons.mp hcr
    by_cases hlf : b = 0x0a
    · subst hlf
      exact absurd rfl h.not_fail
    · have hstep : chunkStep false (body, .ext n) b = .more (body, .ext n) := by
        simp only [chunkStep, extStep, lineStep, if_neg hb, if_neg hlf]
      obtain ⟨hinline, htail⟩ := ih hrest (h.next hstep)
      exact ⟨forall_mem_cons.mpr ⟨⟨hb, hlf⟩, hinline⟩, htail⟩

/-- A byte that is not a digit ends the size. -/
theorem Survives.toExt {nonzero zero : Bool} (hhex : bytes = [] ∨ ∃ b tail, bytes = b :: tail ∧ isHex b = false)
    (h : Survives (body, .size n nonzero zero) bytes) :
    Survives (body, .ext n) bytes ∧ ∀ b tail, bytes = b :: tail → endsSize b = true := by
  rcases hhex with rfl | ⟨b, tail, rfl, hb⟩
  · refine ⟨survives_nil _, ?_⟩
    rintro b tail ⟨⟩
  · have hdigit : hexDigit b = none := by
      rwa [isHex, Option.isSome_eq_false_iff, Option.isNone_iff_eq_none] at hb
    by_cases hends : endsSize b = true
    · constructor
      · intro e
        rw [← scan_congr (chunkStep_endsSize hdigit hends)]
        exact h e
      · rintro b tail ⟨⟩
        exact hends
    · refine absurd ?_ h.not_fail
      simp [chunkStep, sizeStep, hdigit, hends]

theorem exists_split (p : UInt8 → Bool) : ∀ bytes : List UInt8, ∃ front rest, bytes = front ++ rest ∧
    (∀ b ∈ front, p b = true) ∧ (rest = [] ∨ ∃ b tail, rest = b :: tail ∧ p b = false) := by
  intro bytes
  induction bytes with
  | nil => exact ⟨[], [], rfl, by simp, .inl rfl⟩
  | cons b bytes ih =>
    cases hb : p b with
    | false => exact ⟨[], b :: bytes, rfl, by simp, .inr ⟨b, bytes, rfl, hb⟩⟩
    | true =>
      obtain ⟨front, rest, rfl, hfront, hrest⟩ := ih
      exact ⟨b :: front, rest, rfl, forall_mem_cons.mpr ⟨hb, hfront⟩, hrest⟩

/-- The first line is accepted, and what follows it survives as data. -/
theorem Survives.afterLine (h : Survives (body, .size 0 false false) bytes) :
    AcceptedLine (firstLine bytes) (lineSize (firstLine bytes)) ∧
      Survives (body, .data (lineSize (firstLine bytes)) (lineSize (firstLine bytes)))
        (bytes.drop ((firstLine bytes).length + 2)) := by
  obtain ⟨line, tail, rfl, hline, htail⟩ := exists_split (· ≠ 0x0d) bytes
  have hfirst : firstLine (line ++ tail) = line := takeWhile_eq hline htail
  obtain ⟨digits, rest, rfl, hhex, hrest⟩ := exists_split isHex line
  have hsize : lineSize (digits ++ rest) = hexValue digits := congrArg hexValue (takeWhile_eq hhex hrest)
  rw [hfirst, hsize, ← drop_drop, drop_left]
  rw [append_assoc] at h
  have hlt : hexValue digits < 2 ^ 63 := by
    by_contra hge
    exact h _ (scan_overflow body (rest ++ tail) false false (by decide) hhex (Nat.le_of_not_lt hge))
  obtain ⟨nonzero, zero, hdigits⟩ := scan_digits body (rest ++ tail) false false hhex hlt
  have hsizeEnd : Survives (body, .size (hexValue digits) nonzero zero) (rest ++ tail) := by
    intro e hfail
    exact h e (hdigits.trans hfail)
  have hstop : rest ++ tail = [] ∨ ∃ b after, rest ++ tail = b :: after ∧ isHex b = false := by
    rcases hrest with rfl | ⟨b, after, rfl, hb⟩
    · rcases htail with rfl | ⟨b, after, rfl, hb⟩
      · exact .inl rfl
      · have hcr : b = 0x0d := by simpa using hb
        exact .inr ⟨b, after, rfl, by rw [hcr]; rfl⟩
    · exact .inr ⟨b, after ++ tail, rfl, hb⟩
  obtain ⟨hext, hends⟩ := hsizeEnd.toExt hstop
  have hnocr : ∀ b ∈ rest, b ≠ 0x0d := by
    intro b hb
    simpa using hline b (mem_append_right digits hb)
  obtain ⟨hinline, hafter⟩ := hext.afterExt hnocr
  constructor
  · refine ⟨digits, rest, rfl, hhex, rfl, hlt, hinline, ?_⟩
    cases rest with
    | nil => exact .inl rfl
    | cons b rest =>
      exact .inr ⟨b, rest, rfl, endsSize_starts b (hends b _ rfl) (hinline b (mem_cons_self ..))⟩
  · rcases htail with rfl | ⟨b, after, rfl, hb⟩
    · exact survives_nil _
    · have hcr : b = 0x0d := by simpa using hb
      subst hcr
      have hlf : Survives (body, .sizeEnd (hexValue digits)) after := hafter.next rfl
      exact hlf.afterLf fun _ => rfl

/-- The data and its line end survive, and then the next size line. -/
theorem Survives.afterData (hn : n ≠ 0) (h : Survives (body, .data n n) bytes) :
    ∃ body', Survives (body', .size 0 false false) (bytes.drop (n + 2)) := by
  rcases lt_or_ge bytes.length n with hlen | hlen
  · refine ⟨[], ?_⟩
    rw [drop_eq_nil_of_le (by omega)]
    exact survives_nil _
  · have hlength : (bytes.take n).length = n := length_take_of_le hlen
    have hne : bytes.take n ≠ [] := by
      intro hnil
      rw [hnil] at hlength
      exact hn hlength.symm
    have hscan := ChunkBodyDecoder.scan_data false n (bytes.drop n) body hne
    rw [hlength, take_append_drop] at hscan
    have hend : Survives (body ++ bytes.take n, .dataEnd n false) (bytes.drop n) := by
      intro e hfail
      exact h e (hscan.trans hfail)
    refine ⟨body ++ bytes.take n, ?_⟩
    rw [← drop_drop]
    cases hrest : bytes.drop n with
    | nil => exact survives_nil _
    | cons b rest =>
      rw [hrest] at hend
      by_cases hcr : b = 0x0d
      · subst hcr
        have hlf : Survives (body ++ bytes.take n, .dataEnd n true) rest := hend.next rfl
        refine hlf.afterLf ?_
        intro b
        simp only [chunkStep, dataEndStep, if_true, if_neg hn]
      · refine absurd ?_ hend.not_fail
        simp [chunkStep, dataEndStep, hcr]

theorem acceptedLine_of_mem_sizeLinesFrom : ∀ {fuel : Nat} {body bytes : List UInt8},
    Survives (body, .size 0 false false) bytes →
    ∀ line ∈ sizeLinesFrom fuel bytes, AcceptedLine line (lineSize line) := by
  intro fuel
  induction fuel with
  | zero =>
    rintro body bytes - line ⟨⟩
  | succ fuel ih =>
    intro body bytes h line hline
    obtain ⟨hfirst, hdata⟩ := h.afterLine
    simp only [sizeLinesFrom] at hline
    split at hline
    · rw [mem_singleton.mp hline]
      exact hfirst
    · rename_i hn
      rcases mem_cons.mp hline with rfl | hline
      · exact hfirst
      · obtain ⟨body', hnext⟩ := hdata.afterData hn
        rw [drop_drop, add_assoc] at hnext
        exact ih hnext line hline

/-! ### Accepted inputs -/

namespace Receiver

variable {segments : List (List UInt8)}

theorem framed_of_feed {a : Received} {r : List UInt8} {r' : Receiver}
    (hne : ∀ g ∈ segments, g ≠ []) (h : feed receive segments (start false) = .ok (some (a, r)) r') :
    ∃ front body, segments.flatten = front ++ r ∧ a = (body, .ok none ()) ∧ Framed AcceptedLine front body := by
  have hagree := agrees_feed_plain hne
  rw [h] at hagree
  generalize hscan : scan (chunkStep false) initial segments.flatten = out at hagree
  cases hagree
  exact framed_of_done _ (le_refl _) hscan

/-- Without a refused byte, all sizes fit. -/
theorem feed_of_size {line : List UInt8} (hne : ∀ g ∈ segments, g ≠ [])
    (hline : line ∈ sizeLines segments.flatten) (hsize : usizeBound ≤ lineSize line) :
    ∃ e r', feed receive segments (start false) = .err e r' := by
  by_contra hok
  have hsurvives : Survives initial segments.flatten := by
    intro e hfail
    exact hok ⟨e, feed_of_fail hne hfail⟩
  obtain ⟨-, -, -, -, -, hlt, -, -⟩ := acceptedLine_of_mem_sizeLinesFrom hsurvives line hline
  exact absurd hsize (Nat.not_le_of_lt (lt_trans hlt (by decide)))

/-- What the decoder takes is a body of the grammar if all size lines are, and a size that does
not fit is an error. -/
theorem accepted_iff_sizeLines {segments : List (List UInt8)} (hne : ∀ g ∈ segments, g ≠ []) :
    (∀ body trailer r r', feed receive segments (start false) = .ok (some ((body, trailer), r)) r' →
      ∃ c, segments.flatten = c ++ r ∧
        ((∃ body', ChunkedBody usizeBound c body') ↔ ∀ line ∈ sizeLines segments.flatten, ∃ n, SizeLine line n) ∧
        ((∀ line ∈ sizeLines segments.flatten, ∃ n, SizeLine line n) → ChunkedBody usizeBound c body)) ∧
      ((∃ line ∈ sizeLines segments.flatten, usizeBound ≤ lineSize line) →
        ∃ e r', feed receive segments (start false) = .err e r') := by
  constructor
  · intro body trailer r r' hfeed
    obtain ⟨c, body, hflat, ⟨⟩, hframed⟩ := framed_of_feed hne hfeed
    rw [hflat]
    refine ⟨c, rfl, ⟨?_, ?_⟩, chunkedBody_of_sizeLines r hframed⟩
    · rintro ⟨body', hbody⟩
      exact sizeLine_of_chunkedBody r hbody
    · intro hlines
      exact ⟨body, chunkedBody_of_sizeLines r hframed hlines⟩
  · rintro ⟨line, hline, hsize⟩
    exact feed_of_size hne hline hsize

theorem accepted_iff_sizeLines_hello :
    (∃ c, ascii "5\r\nhello\r\n0\r\n\r\nrest" = c ++ ascii "rest" ∧ ChunkedBody usizeBound c (ascii "hello")) ∧
      ∃ e r', feed receive [ascii "10000000", ascii "000000000"] (start false) = .err e r' := by
  have hfive : SizeLine (ascii "5") 5 := ⟨ascii "5", [], rfl, by decide, by decide +kernel, by decide, .nil⟩
  have hzero : SizeLine (ascii "0") 0 := ⟨ascii "0", [], rfl, by decide, by decide +kernel, by decide, .nil⟩
  have hframed : Framed AcceptedLine (ascii "5" ++ crlf ++ ascii "hello" ++ crlf ++ (ascii "0" ++ crlf ++ crlf))
      (ascii "hello") :=
    .cons (acceptedLine_of_sizeLine hfive (by decide)) (by decide)
      (.last (acceptedLine_of_sizeLine hzero (by decide)))
  have hne : ∀ g ∈ [ascii "5\r\nhe", ascii "llo\r\n0\r\n\r\nrest"], g ≠ [] := by decide
  obtain ⟨r', hfeed⟩ := feed_of_framed (r := ascii "rest") hframed hne (by decide)
  have hlines : ∀ line ∈ sizeLines [ascii "5\r\nhe", ascii "llo\r\n0\r\n\r\nrest"].flatten, ∃ n, SizeLine line n := by
    have heq : sizeLines [ascii "5\r\nhe", ascii "llo\r\n0\r\n\r\nrest"].flatten = [ascii "5", ascii "0"] := by
      decide +kernel
    rw [heq]
    simp only [forall_mem_cons]
    exact ⟨⟨5, hfive⟩, ⟨0, hzero⟩, by simp⟩
  constructor
  · obtain ⟨c, hflat, -, hbody⟩ := (accepted_iff_sizeLines hne).1 _ _ _ _ hfeed
    exact ⟨c, hflat, hbody hlines⟩
  · exact (accepted_iff_sizeLines (by decide)).2 ⟨ascii "10000000000000000", by decide +kernel, by decide⟩

/-- An empty size is taken for that of the last chunk. -/
theorem accepts_emptySize :
    (∃ r', feed receive [ascii "\r\n\r\n"] (start false) = .ok (some (([], .ok none ()), [])) r') ∧
      ¬ ∃ body, ChunkedBody usizeBound (ascii "\r\n\r\n") body := by
  constructor
  · have hline : AcceptedLine [] 0 := ⟨[], [], rfl, by simp, rfl, by decide, by simp, .inl rfl⟩
    exact feed_of_framed (Framed.last hline) (by decide) rfl
  · rintro ⟨body, hbody⟩
    obtain ⟨n, digits, ext, hnil, hdigits, -⟩ := sizeLine_of_chunkedBody [] hbody [] (by decide)
    exact hdigits (append_eq_nil_iff.mp hnil.symm).1

end Receiver

end YlongHttp.Body
