/-
Response heads, whole and in segments.

`feed_eq_decode` says that the decoder does not depend on how its input is cut, as long as
the calls are `Safe`. `ResponseHead` is a head as the grammar has it, with its text, and
`feed_head` says that the decoder reads every such head, however it is cut. In a head all
line ends are CRLF, so all calls are safe.
-/

import YlongHttp.H1.ResponseScan

namespace YlongHttp.H1.ResponseDecoder

open Rust Codec List
open H2.Hpack (ascii)

/-! ### Segments -/

/-- Segments give what their bytes give in one call. -/
theorem feed_eq_decode {segments : List (List UInt8)} (hne : ∀ g ∈ segments, g ≠ [])
    (hsafe : Along (undecided decode) Safe segments new) :
    (feed decode segments new).mapState (fun _ => ()) = (decode segments.flatten new).mapState fun _ => () := by
  have hsegments := agrees_feed agrees_decode rep_new hne hsafe
  by_cases hflat : segments.flatten = []
  · rw [hflat] at hsegments ⊢
    exact hsegments.same (.more ⟨.version, mem_cons_of_mem _ (mem_cons_self ..)⟩)
  · have hsafe' : Safe new segments.flatten := fun h => by cases h
    exact hsegments.same (agrees_decode rep_new hflat hsafe')

theorem feed_eq_decode_cut :
    (∀ g ∈ [ascii "HTTP/1.1 200 OK\r", ascii "\na: b\r\n\r\n"], g ≠ []) ∧
    Along (undecided decode) Safe [ascii "HTTP/1.1 200 OK\r", ascii "\na: b\r\n\r\n"] new ∧
    (feed decode [ascii "HTTP/1.1 200 OK\r", ascii "\na: b\r\n\r\n"] new).mapState (fun _ => ()) =
      (decode (ascii "HTTP/1.1 200 OK\r\na: b\r\n\r\n") new).mapState fun _ => () := by
  refine ⟨?ne, ?safe, feed_eq_decode ?ne ?safe⟩
  case ne => decide
  case safe =>
    refine ⟨by decide, fun d _ => ⟨fun _ => ?_, fun _ _ => trivial⟩⟩
    decide

/-- A segment that starts with CR completes a line end that was cut after its CR, so that CR
CR LF is accepted. In one call it is refused. -/
theorem feed_crCrLf_ne_decode :
    (feed decode [ascii "HTTP/1.1 200 \r\na:b\r", ascii "\r\n\r\n"] new).mapState (fun _ => ()) ≠
      (decode (ascii "HTTP/1.1 200 \r\na:b\r\r\n\r\n") new).mapState fun _ => () := by
  intro heq
  have hok : Outcome.isOk _ = Outcome.isOk _ := congrArg Outcome.isOk heq
  revert hok
  decide +kernel

/-! ### Well-formed heads -/

/-- A field line; `raw` is what stands between the colon and the line end. -/
structure FieldLine where
  name : List UInt8
  raw : List UInt8
  name_ne : name ≠ []
  token : ∀ b ∈ name, IsTchar b
  text : ∀ b ∈ raw, IsText b

/-- The field value without the blanks at both ends. -/
def FieldLine.value (line : FieldLine) : List UInt8 := (line.raw.dropWhile isBlank).rdropWhile isBlank

def FieldLine.bytes (line : FieldLine) : List UInt8 := line.name ++ 0x3a :: line.raw ++ [0x0d, 0x0a]

structure ResponseHead where
  version : Version
  http1 : version = .http10 ∨ version = .http11
  status : StatusCode
  reason : List UInt8
  text : ∀ b ∈ reason, IsText b
  lines : List FieldLine

def ResponseHead.bytes (head : ResponseHead) : List UInt8 :=
  head.version.asStr ++ 0x20 :: head.status.asBytes ++ 0x20 :: head.reason ++ [0x0d, 0x0a] ++
    head.lines.flatMap FieldLine.bytes ++ [0x0d, 0x0a]

/-- The values of the lines with a name, in the order of the lines. -/
def valuesOf (name : HeaderName) (lines : List FieldLine) : List (List UInt8) :=
  (lines.filter fun line => line.name.map toAsciiLowercase = name.name).map FieldLine.value

/-! ### The scan of a head -/

theorem tchar_key : ∀ b : UInt8, IsTchar b → headerNameByte b = true ∧ (b == 0x3a) = false ∧ isLineEnd b = false :=
  forall_byte (by decide +kernel)

theorem text_value : ∀ b : UInt8, IsText b →
    headerValueByte b = true ∧ isLegalReasonByte b = true ∧ isLineEnd b = false :=
  forall_byte (by decide +kernel)

/-- Bytes that are legal and do not end the token. -/
theorem scan_token (ends : UInt8 → Bool) {legal : UInt8 → Bool} (state : List UInt8 → HeadState)
    {onEnd : List UInt8 → UInt8 → HeadVerdict} (hstep : ∀ token b, headStep (state token) b =
      tokenStep ends legal b (onEnd token b) (state (token ++ [b]))) {bytes : List UInt8}
    (hends : ∀ b ∈ bytes, ends b = false) (hlegal : ∀ b ∈ bytes, legal b = true) (token rest : List UInt8) :
    scan headStep (state token) (bytes ++ rest) = scan headStep (state (token ++ bytes)) rest := by
  refine scan_run (P := fun b => ends b = false ∧ legal b = true) state ?_
    (fun b hb => ⟨hends b hb, hlegal b hb⟩) token rest
  rintro token b ⟨hb, hb'⟩
  rw [hstep, tokenStep, hb, hb']
  rfl

theorem scan_version {version : Version} (h : version = .http10 ∨ version = .http11) (rest : List UInt8) :
    scan headStep (.version []) (version.asStr ++ 0x20 :: rest) = scan headStep (.statusCode version []) rest := by
  have hends : ∀ b ∈ version.asStr, (b == 0x20) = false := by rcases h with rfl | rfl <;> decide +kernel
  have hlegal : ∀ b ∈ version.asStr, isValidByte b = true := by rcases h with rfl | rfl <;> decide +kernel
  have hversion : versionFromBytes version.asStr = .ok version := by rcases h with rfl | rfl <;> decide
  rw [scan_token (· == 0x20) .version (fun _ _ => rfl) hends hlegal, nil_append]
  refine scan_more ?_ rest
  simp only [headStep, tokenStep, onVersion, hversion, beq_self_eq_true, if_true]

/-- A digit of a status code as a byte. -/
theorem toNat_digit {n : Nat} (h : n ≤ 9) : n.toUInt8.toNat = n :=
  UInt8.toNat_ofNat_of_lt' (Nat.lt_of_le_of_lt h (by decide))

variable (version : Version) (status : StatusCode)

theorem statusFromBytes_asBytes : statusFromBytes status.asBytes = .ok status := by
  obtain ⟨code, h100, h999⟩ := status
  have ha : (code / 100).toUInt8.toNat = code / 100 := toNat_digit (by omega)
  have hb : (code % 100 / 10).toUInt8.toNat = code % 100 / 10 := toNat_digit (by omega)
  have hc : (code % 10).toUInt8.toNat = code % 10 := toNat_digit (by omega)
  have hdigits : ¬ ((code / 100).toUInt8 = 0 ∨ (code / 100).toUInt8 > 9 ∨
      (code % 100 / 10).toUInt8 > 9 ∨ (code % 10).toUInt8 > 9) := by
    have h0 : (0 : UInt8).toNat = 0 := rfl
    have h9 : (9 : UInt8).toNat = 9 := rfl
    rw [not_or, not_or, not_or, ← UInt8.toNat_inj, gt_iff_lt, gt_iff_lt, gt_iff_lt,
      UInt8.lt_iff_toNat_lt, UInt8.lt_iff_toNat_lt, UInt8.lt_iff_toNat_lt, ha, hb, hc, h0, h9]
    omega
  simp only [statusFromBytes, StatusCode.fromBytes, StatusCode.asBytes, UInt8.add_sub_cancel,
    dif_neg hdigits, ha, hb, hc]
  congr 2
  omega

theorem digit_valid {n : Nat} (h : n ≤ 9) :
    isValidByte (n.toUInt8 + 0x30) = true ∧ (n.toUInt8 + 0x30 == 0x20) = false := by
  have hall : ∀ n : Fin 10, isValidByte (n.val.toUInt8 + 0x30) = true ∧
      (n.val.toUInt8 + 0x30 == 0x20) = false := by decide
  exact hall ⟨n, Nat.lt_succ_of_le h⟩

theorem asBytes_valid : ∀ b ∈ status.asBytes, isValidByte b = true ∧ (b == 0x20) = false := by
  obtain ⟨code, h100, h999⟩ := status
  intro b hb
  simp only [StatusCode.asBytes, mem_cons, not_mem_nil, or_false] at hb
  rcases hb with rfl | rfl | rfl <;> exact digit_valid (by omega)

theorem scan_status (rest : List UInt8) : scan headStep (.statusCode version []) (status.asBytes ++ 0x20 :: rest) =
      scan headStep (.reason version status) rest := by
  rw [scan_token (· == 0x20) (.statusCode version) (fun _ _ => rfl)
    (fun b hb => (asBytes_valid status b hb).2) (fun b hb => (asBytes_valid status b hb).1), nil_append]
  refine scan_more ?_ rest
  simp only [headStep, tokenStep, onStatus, statusFromBytes_asBytes, beq_self_eq_true, if_true]

/-- A line end after any state that treats CR as the state of the line end does. -/
theorem scan_crlf {s : HeadState} (state : Bool → HeadState) {next : HeadVerdict}
    (hstep : ∀ cr b, headStep (state cr) b = crlfStep cr b (state true) next)
    (hs : headStep s 0x0d = headStep (state false) 0x0d) (rest : List UInt8) :
    scan headStep s (0x0d :: 0x0a :: rest) = next.resume headStep rest := by
  rw [scan_congr hs, scan_more (hstep false 0x0d), scan_cons, hstep true 0x0a]
  rfl

theorem scan_reason {reason : List UInt8} (h : ∀ b ∈ reason, IsText b) (rest : List UInt8) :
    scan headStep (.reason version status) (reason ++ 0x0d :: 0x0a :: rest) =
      scan headStep (.fieldStart ⟨version, status, ∅⟩) rest := by
  rw [scan_token isLineEnd (fun _ => .reason version status) (fun _ _ => rfl)
    (fun b hb => (text_value b (h b hb)).2.2) (fun b hb => (text_value b (h b hb)).2.1) []]
  exact scan_crlf (.statusCrlf version status) (fun _ _ => rfl) rfl rest

/-! ### Field lines -/

namespace FieldLine

variable (line : FieldLine) (part : ResponsePart) (rest : List UInt8)

theorem name_valid : ∀ b ∈ line.name, headerNameByte b = true :=
  fun b hb => (tchar_key b (line.token b hb)).1

theorem value_valid : ∀ b ∈ line.value, headerValueByte b = true := by
  intro b hb
  have hraw : b ∈ line.raw :=
    (dropWhile_suffix _).subset (( rdropWhile_prefix _ _).subset hb)
  exact (text_value b (line.text b hraw)).1

/-- The map with the field of a line. -/
def addTo (headers : Headers) (line : FieldLine) : Headers :=
  headers.appendValidatedH1 line.name line.value line.name_valid line.value_valid

theorem insertField_eq : insertField part line.name (line.raw.dropWhile isBlank) =
      some { part with headers := line.addTo part.headers } := by
  rw [insertField, dif_pos ⟨line.name_valid, line.value_valid⟩]
  rfl

theorem scan_name :
    scan headStep (.fieldStart part) (line.name ++ 0x3a :: rest) = scan headStep (.ows part line.name) rest := by
  have hkey : scan headStep (.fieldStart part) (line.name ++ 0x3a :: rest) =
      scan headStep (.key part []) (line.name ++ 0x3a :: rest) := by
    obtain ⟨b, name, hname⟩ := exists_cons_of_ne_nil line.name_ne
    have hb := (tchar_key b (line.token b (by rw [hname]; exact mem_cons_self ..))).2.2
    rw [hname]
    exact scan_congr (headStep_fieldStart (by rw [hb]; exact Bool.false_ne_true)) _
  rw [hkey, scan_token (· == 0x3a) (.key part) (fun _ _ => rfl)
    (fun b hb => (tchar_key b (line.token b hb)).2.1) line.name_valid, nil_append]
  exact scan_more rfl rest

/-- What stands between the colon and the line end, and the line end. -/
theorem scan_raw : scan headStep (.ows part line.name) (line.raw ++ 0x0d :: 0x0a :: rest) =
      scan headStep (.fieldStart { part with headers := line.addTo part.headers }) rest := by
  have hsplit : line.raw = line.raw.takeWhile isBlank ++ line.raw.dropWhile isBlank :=
    takeWhile_append_dropWhile.symm
  have hblanks : ∀ b ∈ line.raw.takeWhile isBlank, isBlank b = true := fun b hb => mem_takeWhile_imp hb
  have htext : ∀ b ∈ line.raw.dropWhile isBlank, IsText b := fun b hb =>
    line.text b ((dropWhile_suffix _).subset hb)
  -- the first byte after the blanks is not blank, be it of the value or of the line end
  have hvalue : scan headStep (.ows part line.name) (line.raw.dropWhile isBlank ++ 0x0d :: 0x0a :: rest) =
      scan headStep (.value part line.name []) (line.raw.dropWhile isBlank ++ 0x0d :: 0x0a :: rest) := by
    cases hdrop : line.raw.dropWhile isBlank with
    | nil => exact scan_congr rfl _
    | cons b bytes =>
      have hb : isBlank b = false := by
        have hhead := head?_dropWhile_not isBlank line.raw
        rw [hdrop] at hhead
        simpa using hhead
      refine scan_congr ?_ _
      simp only [headStep, hb, if_false, Bool.false_eq_true]
  have hend : headStep (.value part line.name (line.raw.dropWhile isBlank)) 0x0d =
      headStep (.fieldCrlf { part with headers := line.addTo part.headers } false) 0x0d := by
    have hcr : isLineEnd 0x0d = true := rfl
    simp only [headStep, valueStep, tokenStep, onField, line.insertField_eq, hcr, if_true]
  have hskip : ∀ rest, scan headStep (.ows part line.name) (line.raw.takeWhile isBlank ++ rest) = _ :=
    scan_run (fun _ => HeadState.ows part line.name) (fun _ b hb => by simp only [headStep, hb, if_true]) hblanks []
  rw [hsplit, append_assoc, hskip, hvalue,
    scan_token isLineEnd (.value part line.name) (fun _ _ => rfl)
      (fun b hb => (text_value b (htext b hb)).2.2) (fun b hb => (text_value b (htext b hb)).1),
    nil_append]
  exact scan_crlf (.fieldCrlf { part with headers := line.addTo part.headers }) (fun _ _ => rfl) hend rest

theorem scan_bytes : scan headStep (.fieldStart part) (line.bytes ++ rest) =
      scan headStep (.fieldStart { part with headers := line.addTo part.headers }) rest := by
  simp only [bytes, append_assoc, cons_append, nil_append]
  rw [line.scan_name, line.scan_raw]

theorem scan_lines (version : Version) (status : StatusCode) (rest : List UInt8) :
    ∀ (lines : List FieldLine) (headers : Headers),
      scan headStep (.fieldStart ⟨version, status, headers⟩) (lines.flatMap bytes ++ rest) =
        scan headStep (.fieldStart ⟨version, status, lines.foldl addTo headers⟩) rest := by
  intro lines
  induction lines with
  | nil =>
    intro headers
    rfl
  | cons line lines ih =>
    intro headers
    rw [flatMap_cons, append_assoc, line.scan_bytes, ih, foldl_cons]

end FieldLine

/-- The head without the reason, as the scanner returns it. -/
def ResponseHead.part (head : ResponseHead) : ResponsePart :=
  ⟨head.version, head.status, head.lines.foldl FieldLine.addTo ∅⟩

theorem ResponseHead.scan_bytes (head : ResponseHead) (r : List UInt8) :
    scan headStep (.version []) (head.bytes ++ r) = .done head.part r := by
  simp only [bytes, append_assoc, cons_append, nil_append]
  rw [scan_version head.http1, scan_status, scan_reason _ _ head.text, FieldLine.scan_lines]
  exact scan_crlf (.blankLine head.part) (fun _ _ => rfl) rfl r

/-! ### The values of a name -/

/-- Lines add their values behind those that a map has. -/
theorem values_foldl (name : HeaderName) : ∀ (lines : List FieldLine) (headers : Headers),
    (lines.foldl FieldLine.addTo headers).values name = if valuesOf name lines = [] then headers.values name
      else some ((headers.values name).getD [] ++ valuesOf name lines) := by
  intro lines
  induction lines with
  | nil =>
    intro headers
    rfl
  | cons line lines ih =>
    intro headers
    rw [foldl_cons, ih, FieldLine.addTo, Headers.values_appendValidatedH1]
    by_cases hname : line.name.map toAsciiLowercase = name.name
    · have hcons : valuesOf name (line :: lines) = line.value :: valuesOf name lines := by
        simp only [valuesOf, filter_cons, hname, decide_true, if_true, map_cons]
      rw [hcons, if_neg (cons_ne_nil _ _)]
      split_ifs with hnil
      · rw [hnil]
      · rw [Option.getD_some, append_assoc, singleton_append]
    · have hsame : valuesOf name (line :: lines) = valuesOf name lines := by
        simp only [valuesOf, filter_cons, hname, decide_false, if_false, Bool.false_eq_true]
      rw [if_neg hname, hsame]

/-! ### Heads in segments -/

/-- The calls are safe if the scanner accepts the bytes. -/
theorem safe_of_done {part : ResponsePart} {r : List UInt8} : ∀ {segments : List (List UInt8)}
    {d : ResponseDecoder} {s : HeadState}, Rep d s → (∀ g ∈ segments, g ≠ []) →
    scan headStep s segments.flatten = .done part r → Along (undecided decode) Safe segments d := by
  intro segments
  induction segments with
  | nil =>
    intro d s _ _ _
    trivial
  | cons segment segments ih =>
    intro d s hrep hne hdone
    rw [flatten_cons] at hdone
    have hfirst := hne segment (mem_cons_self ..)
    have hsafe : Safe d segment := by
      intro hstage hcr
      obtain ⟨bytes, rfl⟩ : ∃ bytes, segment = 0x0d :: bytes := by
        cases segment with
        | nil => cases hcr
        | cons b bytes =>
          cases hcr
          exact ⟨bytes, rfl⟩
      obtain ⟨part', rfl⟩ := fieldCrlf_of_stage hrep hstage
      cases hdone
    refine ⟨hsafe, fun d' hnext => ?_⟩
    have hagree := agrees_decode hrep hfirst hsafe
    rw [scan_append] at hdone
    rw [undecided] at hnext
    generalize decode segment d = x at hagree hnext
    generalize scan headStep s segment = t at hagree hdone
    cases hagree with
    | more h =>
      cases hnext
      exact ih h (fun g hg => hne g (mem_cons_of_mem _ hg)) hdone
    | done | fail => cases hnext

/-- A head gives its version, its status and the values of its lines, and what follows it is
left. -/
theorem feed_head (head : ResponseHead) (r : List UInt8) {segments : List (List UInt8)}
    (hne : ∀ g ∈ segments, g ≠ []) (hbytes : segments.flatten = head.bytes ++ r) :
    ∃ headers d, feed decode segments new = .ok (some (⟨head.version, head.status, headers⟩, r)) d ∧
      ∀ name, headers.values name =
        if valuesOf name head.lines = [] then none else some (valuesOf name head.lines) := by
  have hdone : scan headStep (.version []) segments.flatten = .done head.part r := by
    rw [hbytes, head.scan_bytes]
  have hagree := agrees_feed agrees_decode rep_new hne (safe_of_done rep_new hne hdone)
  rw [hdone] at hagree
  generalize hout : feed decode segments new = out at hagree
  cases hagree
  exact ⟨head.part.headers, _, rfl, fun name => by rw [ResponseHead.part, values_foldl]; rfl⟩

/-- A head with two lines of one name. -/
def twoLines : ResponseHead where
  version := .http11
  http1 := .inr rfl
  status := ⟨200, by decide⟩
  reason := ascii "OK"
  text := by decide +kernel
  lines :=
    [ ⟨ascii "A", ascii " b ", by decide, by decide +kernel, by decide +kernel⟩,
      ⟨ascii "a", ascii "\tc", by decide, by decide +kernel, by decide +kernel⟩ ]

theorem feed_twoLines :
    ∃ headers d,
      feed decode [ascii "HTTP/1.1 200 OK\r\nA: b \r", ascii "\na:\tc\r\n\r", ascii "\nbody"] new =
        .ok (some (⟨.http11, ⟨200, by decide⟩, headers⟩, ascii "body")) d ∧
      ∀ name, headers.values name =
        if valuesOf name twoLines.lines = [] then none else some (valuesOf name twoLines.lines) :=
  feed_head twoLines (ascii "body") (by decide) (by decide)

end YlongHttp.H1.ResponseDecoder
