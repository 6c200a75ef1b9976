/-
What the decoder of chunked bodies accepts without trailers.

The decoder accepts exactly the bodies that are `Framed` with an `AcceptedLine` for each
size line (`scan_framed`, `framed_of_done`). All size lines of the grammar whose size is less
than 2^63 are accepted lines. An accepted line is one of the grammar if it has a digit and if
what follows the digits is an extension, neither of which the decoder checks.
-/

import YlongHttp.Body.ChunkScan

namespace YlongHttp.Body

open Rust Codec List
open H2.Hpack (ascii)

/-- The size lines that the decoder accepts. -/
def AcceptedLine (line : List UInt8) (n : Nat) : Prop :=
  ∃ digits rest, line = digits ++ rest ∧ (∀ b ∈ digits, isHex b = true) ∧ hexValue digits = n ∧
    n < 2 ^ 63 ∧ (∀ b ∈ rest, Inline b) ∧ (rest = [] ∨ ∃ b tail, rest = b :: tail ∧ startsExt b = true)

variable {n total : Nat} {body bytes r : List UInt8} {a : Received}

theorem acceptedLine_of_sizeLine {line : List UInt8} (h : SizeLine line n) (hn : n < 2 ^ 63) : AcceptedLine line n := by
  obtain ⟨digits, ext, rfl, -, hhex, hvalue, hext⟩ := h
  exact ⟨digits, ext, rfl, hhex, hvalue, hn, hext.inline, hext.starts⟩

/-! ### Accepted bodies are scanned -/

theorem scan_digits (body rest : List UInt8) : ∀ {digits : List UInt8} {n : Nat} (nonzero zero : Bool),
    (∀ b ∈ digits, isHex b = true) → hexFrom n digits < 2 ^ 63 →
    ∃ nonzero' zero', scan (chunkStep false) (body, .size n nonzero zero) (digits ++ rest) =
      scan (chunkStep false) (body, .size (hexFrom n digits) nonzero' zero') rest := by
  intro digits
  induction digits with
  | nil =>
    intro n nonzero zero _ _
    exact ⟨nonzero, zero, rfl⟩
  | cons b digits ih =>
    intro n nonzero zero hhex hlt
    obtain ⟨digit, hdigit⟩ := Option.isSome_iff_exists.mp (hhex b (mem_cons_self ..))
    rw [hexFrom_cons, hdigit] at hlt ⊢
    have hfit : n * 16 + digit ≤ ChunkBodyDecoder.i64Max :=
      Nat.le_pred_of_lt (lt_of_le_of_lt (le_hexFrom digits _) hlt)
    rw [cons_append, scan_more (ChunkBodyDecoder.chunkStep_digit hdigit hfit)]
    exact ih _ _ (fun c hc => hhex c (mem_cons_of_mem _ hc)) hlt

/-- A size of 2^63 or more is refused at the digit with which it gets so large. -/
theorem scan_overflow (body rest : List UInt8) : ∀ {digits : List UInt8} {n : Nat} (nonzero zero : Bool),
    n < 2 ^ 63 → (∀ b ∈ digits, isHex b = true) → 2 ^ 63 ≤ hexFrom n digits →
    scan (chunkStep false) (body, .size n nonzero zero) (digits ++ rest) = .fail .invalidInput := by
  intro digits
  induction digits with
  | nil =>
    intro n _ _ hn _ hle
    exact absurd hle (Nat.not_le_of_lt hn)
  | cons b digits ih =>
    intro n nonzero zero hn hhex hle
    obtain ⟨digit, hdigit⟩ := Option.isSome_iff_exists.mp (hhex b (mem_cons_self ..))
    rw [hexFrom_cons, hdigit] at hle
    rw [cons_append]
    by_cases hfit : n * 16 + digit ≤ ChunkBodyDecoder.i64Max
    · rw [scan_more (ChunkBodyDecoder.chunkStep_digit hdigit hfit)]
      exact ih _ _ (lt_of_le_of_lt hfit (by decide))
        (fun c hc => hhex c (mem_cons_of_mem _ hc)) hle
    · exact scan_fail (ChunkBodyDecoder.chunkStep_overflow hdigit hfit) _

theorem scan_ext (body : List UInt8) (total : Nat) {ext : List UInt8} (h : ∀ b ∈ ext, Inline b) (tail : List UInt8) :
    scan (chunkStep false) (body, .ext total) (ext ++ 0x0d :: 0x0a :: tail) =
      scan (chunkStep false) (body, .data total total) tail := by
  have hrun : scan (chunkStep false) (body, .ext total) (ext ++ 0x0d :: 0x0a :: tail) =
      scan (chunkStep false) (body, .ext total) (0x0d :: 0x0a :: tail) := by
    refine scan_run (fun _ => (body, Control.ext total)) ?_ h [] _
    rintro - b ⟨hcr, hlf⟩
    simp only [chunkStep, extStep, lineStep, if_neg hcr, if_neg hlf]
  rw [hrun, scan_more rfl, scan_more rfl]

theorem startsExt_ends : ∀ b : UInt8, startsExt b = true → hexDigit b = none ∧ endsSize b = true :=
  forall_byte (by decide +kernel)

/-- A byte that ends a size starts the extension. -/
theorem chunkStep_endsSize {nonzero zero : Bool} {b : UInt8}
    (hdigit : hexDigit b = none) (hends : endsSize b = true) :
    chunkStep false (body, .size n nonzero zero) b = chunkStep false (body, .ext n) b := by
  simp [chunkStep, sizeStep, hdigit, hends]

theorem scan_line (body : List UInt8) {line : List UInt8} (h : AcceptedLine line n) (tail : List UInt8) :
    scan (chunkStep false) (body, .size 0 false false) (line ++ 0x0d :: 0x0a :: tail) =
      scan (chunkStep false) (body, .data n n) tail := by
  obtain ⟨digits, rest, rfl, hhex, rfl, hlt, hinline, hstarts⟩ := h
  obtain ⟨nonzero, zero, hdigits⟩ :=
    scan_digits body (rest ++ 0x0d :: 0x0a :: tail) false false hhex hlt
  rw [append_assoc, hdigits, ← scan_ext body _ hinline tail]
  rcases hstarts with rfl | ⟨b, rest, rfl, hb⟩
  · exact scan_congr (chunkStep_endsSize rfl rfl) _
  · obtain ⟨hdigit, hends⟩ := startsExt_ends b hb
    exact scan_congr (chunkStep_endsSize hdigit hends) _

theorem scan_chunks (tail : List UInt8) {front : List UInt8} (h : Chunks AcceptedLine front body) :
    ∀ before, scan (chunkStep false) (before, .size 0 false false) (front ++ tail) =
      scan (chunkStep false) (before ++ body, .size 0 false false) tail := by
  induction h with
  | nil =>
    intro before
    rw [nil_append, append_nil]
  | @cons line data bytes body hline hne _ ih =>
    intro before
    have hpos : data.length ≠ 0 := fun h => hne (length_eq_zero_iff.mp h)
    have hcr : chunkStep false (before ++ data, .dataEnd data.length false) 0x0d =
        .more (before ++ data, .dataEnd data.length true) := rfl
    have hlf : chunkStep false (before ++ data, .dataEnd data.length true) 0x0a =
        .more (before ++ data, .size 0 false false) := by
      simp [chunkStep, dataEndStep, lfStep, hpos]
    simp only [crlf, append_assoc, cons_append, nil_append]
    rw [scan_line before hline, ChunkBodyDecoder.scan_data false _ _ _ hne, scan_more hcr, scan_more hlf, ih,
      append_assoc]

/-- The decoder accepts a framed body and leaves what follows it. -/
theorem scan_framed (r : List UInt8) (h : Framed AcceptedLine bytes body) :
    scan (chunkStep false) Receiver.initial (bytes ++ r) = .done (body, ChunkBodyDecoder.trailerHeaders []) r := by
  obtain ⟨front, line, hchunks, hline, rfl⟩ := h
  simp only [crlf, append_assoc, cons_append, nil_append]
  rw [Receiver.initial, scan_chunks _ hchunks, scan_line _ hline, scan_more rfl]
  rfl

/-! ### What is scanned is accepted -/

theorem ext_of_done : ∀ {bytes : List UInt8}, scan (chunkStep false) (body, .ext total) bytes = .done a r →
      ∃ ext tail, bytes = ext ++ 0x0d :: 0x0a :: tail ∧ (∀ b ∈ ext, Inline b) ∧
        scan (chunkStep false) (body, .data total total) tail = .done a r := by
  intro bytes
  induction bytes with
  | nil =>
    rintro ⟨⟩
  | cons b bytes ih =>
    intro h
    by_cases hcr : b = 0x0d
    · subst hcr
      rw [scan_more rfl] at h
      cases bytes with
      | nil => cases h
      | cons c tail =>
        by_cases hlf : c = 0x0a
        · subst hlf
          exact ⟨[], tail, rfl, by simp, h⟩
        · have hfail : chunkStep false (body, .sizeEnd total) c = .fail .invalidInput := by
            simp only [chunkStep, lfStep, if_neg hlf]
          rw [scan_fail hfail] at h
          cases h
    · by_cases hlf : b = 0x0a
      · subst hlf
        cases h
      · have hstep : chunkStep false (body, .ext total) b = .more (body, .ext total) := by
          simp only [chunkStep, extStep, lineStep, if_neg hcr, if_neg hlf]
        rw [scan_more hstep] at h
        obtain ⟨ext, tail, rfl, hinline, hdata⟩ := ih h
        exact ⟨b :: ext, tail, rfl, forall_mem_cons.mpr ⟨⟨hcr, hlf⟩, hinline⟩, hdata⟩

theorem endsSize_starts : ∀ b : UInt8, endsSize b = true → Inline b → startsExt b = true :=
  forall_byte (by decide +kernel)

theorem line_of_done : ∀ {bytes : List UInt8} {n : Nat} {nonzero zero : Bool}, n < 2 ^ 63 →
      scan (chunkStep false) (body, .size n nonzero zero) bytes = .done a r →
      ∃ digits rest tail, bytes = digits ++ rest ++ 0x0d :: 0x0a :: tail ∧
        (∀ b ∈ digits, isHex b = true) ∧ hexFrom n digits < 2 ^ 63 ∧ (∀ b ∈ rest, Inline b) ∧
        (rest = [] ∨ ∃ b tail, rest = b :: tail ∧ startsExt b = true) ∧
        scan (chunkStep false) (body, .data (hexFrom n digits) (hexFrom n digits)) tail = .done a r := by
  intro bytes
  induction bytes with
  | nil =>
    rintro n nonzero zero _ ⟨⟩
  | cons b bytes ih =>
    intro n nonzero zero hn h
    cases hdigit : hexDigit b with
    | some digit =>
      by_cases hfit : n * 16 + digit ≤ ChunkBodyDecoder.i64Max
      · rw [scan_more (ChunkBodyDecoder.chunkStep_digit hdigit hfit)] at h
        obtain ⟨digits, rest, tail, rfl, hhex, hlt, hinline, hstarts, hdata⟩ :=
          ih (lt_of_le_of_lt hfit (by decide)) h
        have hb : isHex b = true := by rw [isHex, hdigit]; rfl
        refine ⟨b :: digits, rest, tail, rfl, forall_mem_cons.mpr ⟨hb, hhex⟩, ?_, hinline, hstarts, ?_⟩
        · rw [hexFrom_cons, hdigit]
          exact hlt
        · rw [hexFrom_cons, hdigit]
          exact hdata
      · rw [scan_fail (ChunkBodyDecoder.chunkStep_overflow hdigit hfit)] at h
        cases h
    | none =>
      by_cases hends : endsSize b = true
      · rw [scan_congr (chunkStep_endsSize hdigit hends)] at h
        obtain ⟨ext, tail, hbytes, hinline, hdata⟩ := ext_of_done h
        refine ⟨[], ext, tail, hbytes, by simp, hn, hinline, ?_, hdata⟩
        cases ext with
        | nil => exact .inl rfl
        | cons c ext =>
          obtain ⟨rfl, -⟩ := cons.inj hbytes
          exact .inr ⟨b, ext, rfl, endsSize_starts b hends (hinline b (mem_cons_self ..))⟩
      · have hfail : chunkStep false (body, .size n nonzero zero) b = .fail .invalidInput := by
          simp [chunkStep, sizeStep, hdigit, hends]
        rw [scan_fail hfail] at h
        cases h

theorem dataEnd_of_done (h : scan (chunkStep false) (body, .dataEnd total false) bytes = .done a r) :
    ∃ tail, bytes = 0x0d :: 0x0a :: tail ∧ (total = 0 → a = (body, ChunkBodyDecoder.trailerHeaders []) ∧ r = tail) ∧
      (total ≠ 0 → scan (chunkStep false) (body, .size 0 false false) tail = .done a r) := by
  cases bytes with
  | nil => cases h
  | cons b bytes =>
    by_cases hcr : b = 0x0d
    · subst hcr
      have hstep : chunkStep false (body, .dataEnd total false) 0x0d = .more (body, .dataEnd total true) := rfl
      rw [scan_more hstep] at h
      cases bytes with
      | nil => cases h
      | cons c tail =>
        by_cases hlf : c = 0x0a
        · subst hlf
          refine ⟨tail, rfl, ?_, ?_⟩
          · rintro rfl
            cases h
            exact ⟨rfl, rfl⟩
          · intro htotal
            have hnext : chunkStep false (body, .dataEnd total true) 0x0a = .more (body, .size 0 false false) := by
              simp [chunkStep, dataEndStep, lfStep, htotal]
            rwa [scan_more hnext] at h
        · have hfail : chunkStep false (body, .dataEnd total true) c = .fail .invalidInput := by
            simp [chunkStep, dataEndStep, lfStep, hlf]
          rw [scan_fail hfail] at h
          cases h
    · have hfail : chunkStep false (body, .dataEnd total false) b = .fail .invalidInput := by
        simp [chunkStep, dataEndStep, hcr]
      rw [scan_fail hfail] at h
      cases h

/-- The data of a chunk whose size is not zero. -/
theorem data_of_done {rest : Nat}
    (hrest : rest ≠ 0) (h : scan (chunkStep false) (body, .data total rest) bytes = .done a r) :
    ∃ data tail, bytes = data ++ tail ∧ data.length = rest ∧
      scan (chunkStep false) (body ++ data, .dataEnd total false) tail = .done a r := by
  rcases lt_or_ge bytes.length rest with hlen | hlen
  · rw [ChunkBodyDecoder.scan_data_cut false total body hlen] at h
    cases h
  · have hlength : (bytes.take rest).length = rest := length_take_of_le hlen
    have hne : bytes.take rest ≠ [] := by
      intro hnil
      rw [hnil] at hlength
      exact hrest hlength.symm
    refine ⟨bytes.take rest, bytes.drop rest, (take_append_drop ..).symm, hlength, ?_⟩
    have hscan := ChunkBodyDecoder.scan_data false total (bytes.drop rest) body hne
    rw [hlength, take_append_drop] at hscan
    rwa [hscan] at h

/-- What the scanner accepts is a framed body. -/
theorem framed_of_done (length : Nat) : ∀ {bytes before : List UInt8}, bytes.length ≤ length →
    scan (chunkStep false) (before, .size 0 false false) bytes = .done a r →
    ∃ front body, bytes = front ++ r ∧ a = (before ++ body, ChunkBodyDecoder.trailerHeaders []) ∧
      Framed AcceptedLine front body := by
  induction length with
  | zero =>
    intro bytes before hlen h
    rw [length_eq_zero_iff.mp (Nat.le_zero.mp hlen)] at h
    cases h
  | succ length ih =>
    intro bytes before hlen h
    obtain ⟨digits, rest, tail, rfl, hhex, hlt, hinline, hstarts, hdata⟩ :=
      line_of_done (by decide) h
    have hline : AcceptedLine (digits ++ rest) (hexValue digits) :=
      ⟨digits, rest, rfl, hhex, rfl, hlt, hinline, hstarts⟩
    by_cases hzero : hexFrom 0 digits = 0
    · have hend : scan (chunkStep false) (before, .dataEnd 0 false) tail = .done a r := by
        rw [hzero] at hdata
        cases tail with
        | nil => cases hdata
        | cons b tail =>
          rw [← hdata]
          exact scan_congr rfl _
      obtain ⟨tail, rfl, hlast, -⟩ := dataEnd_of_done hend
      obtain ⟨rfl, rfl⟩ := hlast rfl
      rw [hexValue, hzero] at hline
      refine ⟨digits ++ rest ++ crlf ++ crlf, [], ?_, ?_, .last hline⟩
      · simp only [crlf, append_assoc, cons_append, nil_append]
      · rw [append_nil]
    · obtain ⟨data, tail, rfl, hlength, hend⟩ := data_of_done hzero hdata
      obtain ⟨tail, rfl, -, hnext⟩ := dataEnd_of_done hend
      have hshort : tail.length ≤ length := by
        simp only [length_append, length_cons] at hlen
        omega
      obtain ⟨front, body, rfl, rfl, hframed⟩ := ih hshort (hnext hzero)
      have hne : data ≠ [] := by
        rintro rfl
        exact hzero hlength.symm
      have hline' : AcceptedLine (digits ++ rest) data.length := hlength ▸ hline
      refine ⟨digits ++ rest ++ crlf ++ data ++ crlf ++ front, data ++ body, ?_, ?_, .cons hline' hne hframed⟩
      · simp only [crlf, append_assoc, cons_append, nil_append]
      · rw [append_assoc]

/-! ### Segments -/

namespace Receiver

variable {segments : List (List UInt8)}

theorem agrees_feed_plain (hne : ∀ g ∈ segments, g ≠ []) :
    Agrees (Rep false) (feed receive segments (start false)) (scan (chunkStep false) initial segments.flatten) :=
  agrees_feed agrees_receive (rep_start false) hne
    (along_of_forall (fun _ _ h => absurd h Bool.false_ne_true) _ _)

theorem feed_of_framed {bytes body r : List UInt8}
    (h : Framed AcceptedLine bytes body) (hne : ∀ g ∈ segments, g ≠ []) (hbytes : segments.flatten = bytes ++ r) :
    ∃ r', feed receive segments (start false) = .ok (some ((body, .ok none ()), r)) r' := by
  have hagree := agrees_feed_plain hne
  rw [hbytes, scan_framed r h] at hagree
  generalize feed receive segments (start false) = out at hagree
  cases hagree
  exact ⟨_, rfl⟩

theorem feed_of_fail {e : HttpError} (hne : ∀ g ∈ segments, g ≠ [])
    (h : scan (chunkStep false) initial segments.flatten = .fail e) :
    ∃ r', feed receive segments (start false) = .err e r' := by
  have hagree := agrees_feed_plain hne
  rw [h] at hagree
  generalize feed receive segments (start false) = out at hagree
  cases hagree
  exact ⟨_, rfl⟩

/-- A well-formed body gives its data, and what follows it is left. -/
theorem feed_chunkedBody {c body r : List UInt8} {segments : List (List UInt8)}
    (h : ChunkedBody (2 ^ 63) c body) (hne : ∀ g ∈ segments, g ≠ []) (hbytes : segments.flatten = c ++ r) :
    ∃ r', feed receive segments (start false) = .ok (some ((body, .ok none ()), r)) r' := by
  refine feed_of_framed ?_ hne hbytes
  exact h.mono fun ⟨hline, hlt⟩ => acceptedLine_of_sizeLine hline hlt

theorem feed_chunkedBody_twoChunks :
    ChunkedBody (2 ^ 63) (ascii "5" ++ crlf ++ ascii "hello" ++ crlf ++ (ascii "A ;a=b" ++ crlf ++
        ascii "0123456789" ++ crlf ++ (ascii "00" ++ crlf ++ crlf))) (ascii "hello0123456789") ∧
      (∀ g ∈ [ascii "5\r\nhel", ascii "lo\r\nA ;a=b\r", ascii "\n0123456789\r\n00\r\n\r\nrest"], g ≠ []) ∧
      ∃ r', feed receive [ascii "5\r\nhel", ascii "lo\r\nA ;a=b\r", ascii "\n0123456789\r\n00\r\n\r\nrest"]
        (start false) = .ok (some ((ascii "hello0123456789", .ok none ()), ascii "rest")) r' := by
  have hext : ChunkExt ([0x20] ++ 0x3b :: [] ++ ascii "a" ++ [] ++ 0x3d :: [] ++ ascii "b" ++ []) :=
    .value (by decide +kernel) (by decide +kernel) (by decide +kernel) (by decide +kernel) (by decide +kernel) (.token (by decide +kernel)) .nil
  have hfive : SizeLine (ascii "5") 5 := ⟨ascii "5", [], rfl, by decide, by decide +kernel, by decide, .nil⟩
  have hten : SizeLine (ascii "A ;a=b") 10 :=
    ⟨ascii "A", ascii " ;a=b", rfl, by decide, by decide +kernel, by decide, hext⟩
  have hzero : SizeLine (ascii "00") 0 := ⟨ascii "00", [], rfl, by decide, by decide +kernel, by decide, .nil⟩
  have hlast : ChunkedBody (2 ^ 63) (ascii "00" ++ crlf ++ crlf) [] := Framed.last ⟨hzero, by decide⟩
  refine ⟨?body, ?ne, feed_chunkedBody ?body ?ne (by decide)⟩
  case body => exact Framed.cons ⟨hfive, by decide⟩ (by decide) (Framed.cons ⟨hten, by decide⟩ (by decide) hlast)
  case ne => decide

/-- The decoder counts in an `i64`: a size of 2^63 fits in `usize`, and is refused. -/
theorem feed_largeChunk :
    ∃ c body, ChunkedBody usizeBound c body ∧ ∃ r', feed receive [c] (start false) = .err .invalidInput r' := by
  have hzero : SizeLine (ascii "0") 0 := ⟨ascii "0", [], rfl, by decide, by decide +kernel, by decide, .nil⟩
  have hline : SizeLine (ascii "8000000000000000") (2 ^ 63) :=
    ⟨ascii "8000000000000000", [], rfl, by decide, by decide +kernel, by decide, .nil⟩
  have hlast : ChunkedBody usizeBound (ascii "0" ++ crlf ++ crlf) [] := Framed.last ⟨hzero, by decide⟩
  have hlength : (replicate (2 ^ 63) (0 : UInt8)).length = 2 ^ 63 := length_replicate
  have hdata : replicate (2 ^ 63) (0 : UInt8) ≠ [] := by
    intro h
    rw [h] at hlength
    cases hlength
  generalize replicate (2 ^ 63) (0 : UInt8) = data at hlength hdata
  have hlarge : SizeLine (ascii "8000000000000000") data.length ∧ data.length < usizeBound := by
    rw [hlength]
    exact ⟨hline, by decide⟩
  refine ⟨_, _, Framed.cons hlarge hdata hlast, feed_of_fail ?_ ?_⟩
  · rintro g hg hnil
    rw [mem_singleton.mp hg] at hnil
    cases hnil
  · simp only [flatten_cons, flatten_nil, append_nil, append_assoc]
    exact scan_overflow [] _ false false (by decide) (by decide +kernel : ∀ b ∈ ascii "8000000000000000", _)
      (by decide)

end Receiver

end YlongHttp.Body
