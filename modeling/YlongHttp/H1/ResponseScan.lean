/-
What the decoder of response heads does with the bytes of a segment.

`headStep` reads a response head one byte at a time. Its states are what the decoder has to
keep between two calls, and `Holds` says how the decoder keeps it. A call then does what the
scanner does with the bytes of the segment (`agrees_decode`), with one exception: the loops
over the field lines forget that they have seen the CR of a line end when the segment is
over, so a segment that starts with another CR is taken for the rest of the line end. The
calls that are `Safe` are the others.
-/

import YlongHttp.H1.ResponseDecoder
import YlongHttp.Codec.Scanner

namespace YlongHttp.H1.ResponseDecoder

open Rust Codec Method Outcome List

/-! ### The scanner -/

/-- Where a response head can be cut, with what has been read so far. In the states of line
ends the flag says whether CR has been read. -/
inductive HeadState where
  | version (token : List UInt8)
  | statusCode (version : Version) (token : List UInt8)
  | reason (version : Version) (status : StatusCode)
  | statusCrlf (version : Version) (status : StatusCode) (cr : Bool)
  | fieldStart (part : ResponsePart)
  | key (part : ResponsePart) (token : List UInt8)
  | ows (part : ResponsePart) (name : List UInt8)
  | value (part : ResponsePart) (name token : List UInt8)
  | fieldCrlf (part : ResponsePart) (cr : Bool)
  | blankLine (part : ResponsePart) (cr : Bool)

abbrev HeadVerdict := Verdict HeadState HttpError ResponsePart

/-- A byte of a line end: CR at most once, then LF. -/
def crlfStep (cr : Bool) (b : UInt8) (onCr : HeadState) (onLf : HeadVerdict) : HeadVerdict :=
  if b = 0x0d then if cr then .fail .invalidResponse else .more onCr
  else if b = 0x0a then onLf
  else .fail .invalidResponse

/-- A byte of a name, a value or another part that some bytes end. -/
def tokenStep (ends legal : UInt8 → Bool) (b : UInt8) (onEnd : HeadVerdict) (onLegal : HeadState) : HeadVerdict :=
  if ends b then onEnd else if legal b then .more onLegal else .fail .invalidResponse

/-- The head with one more field. -/
def insertField (part : ResponsePart) (name value : List UInt8) : Option ResponsePart :=
  if h : (∀ b ∈ name, headerNameByte b = true) ∧ ∀ b ∈ value.rdropWhile isBlank, headerValueByte b = true then
    some { part with headers :=
      part.headers.appendValidatedH1 name (value.rdropWhile isBlank) h.1 h.2 }
  else none

def onVersion (token : List UInt8) : HeadVerdict :=
  match versionFromBytes token with
  | .ok version => .more (.statusCode version [])
  | .error e => .fail e

def onStatus (version : Version) (token : List UInt8) : HeadVerdict :=
  match statusFromBytes token with
  | .ok status => .more (.reason version status)
  | .error e => .fail e

def fieldCrlfStep (part : ResponsePart) (cr : Bool) (b : UInt8) : HeadVerdict :=
  crlfStep cr b (.fieldCrlf part true) (.more (.fieldStart part))

def onField (part : ResponsePart) (name token : List UInt8) (b : UInt8) : HeadVerdict :=
  match insertField part name token with
  | some part => fieldCrlfStep part false b
  | none => .fail .invalidResponse

def statusCrlfStep (version : Version) (status : StatusCode) (cr : Bool) (b : UInt8) : HeadVerdict :=
  crlfStep cr b (.statusCrlf version status true) (.more (.fieldStart ⟨version, status, ∅⟩))

def blankLineStep (part : ResponsePart) (cr : Bool) (b : UInt8) : HeadVerdict :=
  crlfStep cr b (.blankLine part true) (.done part)

def keyStep (part : ResponsePart) (token : List UInt8) (b : UInt8) : HeadVerdict :=
  tokenStep (· == 0x3a) headerNameByte b (.more (.ows part token)) (.key part (token ++ [b]))

def valueStep (part : ResponsePart) (name token : List UInt8) (b : UInt8) : HeadVerdict :=
  tokenStep isLineEnd headerValueByte b (onField part name token b) (.value part name (token ++ [b]))

def headStep : HeadState → UInt8 → HeadVerdict
  | .version token, b =>
    tokenStep (· == 0x20) isValidByte b (onVersion token) (.version (token ++ [b]))
  | .statusCode version token, b =>
    tokenStep (· == 0x20) isValidByte b (onStatus version token) (.statusCode version (token ++ [b]))
  | .reason version status, b =>
    tokenStep isLineEnd isLegalReasonByte b (statusCrlfStep version status false b)
      (.reason version status)
  | .statusCrlf version status cr, b => statusCrlfStep version status cr b
  | .fieldStart part, b => if isLineEnd b then blankLineStep part false b else keyStep part [] b
  | .key part token, b => keyStep part token b
  | .ows part name, b => if isBlank b then .more (.ows part name) else valueStep part name [] b
  | .value part name token, b => valueStep part name token b
  | .fieldCrlf part cr, b => fieldCrlfStep part cr b
  | .blankLine part cr, b => blankLineStep part cr b

abbrev HeadScan := Scan HeadState HttpError ResponsePart

/-! ### Tokens -/

/-- How the loop over the bytes of a token ends, and what the scanner makes of them. -/
inductive Taken (ends legal : UInt8 → Bool) (state : List UInt8 → HeadState) (token buffer : List UInt8) :
    Except HttpError (Option (List UInt8 × List UInt8)) → Prop where
  | found {more : List UInt8} {b : UInt8} {unparsed : List UInt8} (hlegal : ∀ c ∈ more, legal c = true)
      (hends : ends b = true) (split : buffer = more ++ b :: unparsed)
      (scanned : scan headStep (state token) buffer = scan headStep (state (token ++ more)) (b :: unparsed)) :
      Taken ends legal state token buffer (.ok (some (more, b :: unparsed)))
  | cut (hlegal : ∀ c ∈ buffer, legal c = true)
      (scanned : scan headStep (state token) buffer = .more (state (token ++ buffer))) :
      Taken ends legal state token buffer (.ok none)
  | refused (scanned : scan headStep (state token) buffer = .fail .invalidResponse) :
      Taken ends legal state token buffer (.error .invalidResponse)

theorem taken_takeToken {ends legal : UInt8 → Bool} (state : List UInt8 → HeadState)
    {onEnd : List UInt8 → UInt8 → HeadVerdict} (hstep : ∀ token b, headStep (state token) b =
      tokenStep ends legal b (onEnd token b) (state (token ++ [b]))) (buffer : List UInt8) :
    ∀ token, Taken ends legal state token buffer (takeToken ends legal buffer) := by
  induction buffer with
  | nil =>
    intro token
    refine .cut (by simp) ?_
    rw [append_nil, scan_nil]
  | cons b buffer ih =>
    intro token
    have hb := hstep token b
    rw [tokenStep] at hb
    rw [takeToken]
    split_ifs at hb ⊢ with hends hlegal
    · have hscan : scan headStep (state token) (b :: buffer) = scan headStep (state (token ++ [])) (b :: buffer) := by
        rw [append_nil]
      exact .found (by simp) hends rfl hscan
    · have hmore : ∀ {c : UInt8} {cs : List UInt8}, (∀ c ∈ cs, legal c = true) → c ∈ b :: cs → legal c = true := by
        intro c cs hcs hc
        rcases mem_cons.mp hc with rfl | hc
        · exact hlegal
        · exact hcs c hc
      have htaken := ih (token ++ [b])
      generalize takeToken ends legal buffer = out at htaken
      cases htaken with
      | found hall hend hsplit hscanned =>
        refine .found (fun c hc => hmore hall hc) hend (by rw [hsplit]; rfl) ?_
        rw [scan_more hb, hscanned, append_assoc]
        rfl
      | cut hall hscanned =>
        refine .cut (fun c hc => hmore hall hc) ?_
        rw [scan_more hb, hscanned, append_assoc]
        rfl
      | refused hscanned => exact .refused ((scan_more hb _).trans hscanned)
    · exact .refused (scan_fail hb _)

/-! ### Line ends -/

/-- How a line end is consumed, and what the scanner makes of it. -/
inductive LineEnd (state : Bool → HeadState) (onLf : HeadVerdict) (cr : Bool) (buffer : List UInt8) :
    Except HttpError (TokenStatus (List UInt8) Nat) → Prop where
  | complete {unparsed : List UInt8} (short : unparsed.length < buffer.length)
      (scanned : scan headStep (state cr) buffer = onLf.resume headStep unparsed) :
      LineEnd state onLf cr buffer (.ok (.complete unparsed))
  | cut (scanned : scan headStep (state cr) buffer = .more (state true)) :
      LineEnd state onLf cr buffer (.ok (.incomplete 1))
  | refused (scanned : scan headStep (state cr) buffer = .fail .invalidResponse) :
      LineEnd state onLf cr buffer (.error .invalidResponse)

theorem lineEnd_consumeCrlf (state : Bool → HeadState) {onLf : HeadVerdict}
    (hstep : ∀ cr b, headStep (state cr) b = crlfStep cr b (state true) onLf) {buffer : List UInt8}
    (hne : buffer ≠ []) (cr : Bool) : LineEnd state onLf cr buffer (consumeCrlf buffer cr) := by
  obtain ⟨b, bytes, rfl⟩ := exists_cons_of_ne_nil hne
  have hb := hstep cr b
  rw [crlfStep] at hb
  unfold consumeCrlf
  dsimp only
  by_cases hcr : b = 0x0d
  · rw [if_pos hcr] at hb ⊢
    cases cr with
    | true =>
      exact .refused (scan_fail hb _)
    | false =>
      cases bytes with
      | nil => exact .cut (scan_more hb _)
      | cons c unparsed =>
        have hc := hstep true c
        simp only [crlfStep, if_true] at hc
        by_cases hlf : c = 0x0a
        · subst hlf
          rw [if_neg (by decide), if_pos rfl] at hc
          refine .complete (Nat.lt_succ_of_lt (Nat.lt_succ_self _)) ?_
          rw [scan_more hb, scan_cons, hc]
        · have hfail : headStep (state true) c = .fail .invalidResponse := by
            rw [hc, if_neg hlf, ite_self]
          simp only [if_neg hlf]
          exact .refused ((scan_more hb _).trans (scan_fail hfail _))
  · rw [if_neg hcr] at hb ⊢
    by_cases hlf : b = 0x0a
    · rw [if_pos hlf] at hb ⊢
      refine .complete (Nat.lt_succ_self _) ?_
      rw [scan_cons, hb]
    · rw [if_neg hlf] at hb ⊢
      exact .refused (scan_fail hb _)

/-! ### What the decoder keeps -/

/-- The decoder keeps what has been read of a head. -/
inductive Holds : ResponseDecoder → HeadState → Prop where
  | version {stage version status headers key token} :
      Holds ⟨stage, version, status, headers, key, token, false⟩ (.version token)
  | statusCode {stage version status headers key token} :
      Holds ⟨stage, some version, status, headers, key, token, false⟩ (.statusCode version token)
  | reason {stage version status headers key} :
      Holds ⟨stage, some version, some status, headers, key, [], false⟩ (.reason version status)
  | statusCrlf {stage version status headers key cr} :
      Holds ⟨stage, some version, some status, headers, key, [], cr⟩ (.statusCrlf version status cr)
  | fieldStart {stage version status headers key} :
      Holds ⟨stage, some version, some status, some headers, key, [], false⟩
        (.fieldStart ⟨version, status, headers⟩)
  | key {stage version status headers key token} (hname : ∀ b ∈ token, headerNameByte b = true) :
      Holds ⟨stage, some version, some status, some headers, key, token, false⟩
        (.key ⟨version, status, headers⟩ token)
  | ows {stage version status headers name} (hname : ∀ b ∈ name, headerNameByte b = true) :
      Holds ⟨stage, some version, some status, some headers, name, [], false⟩
        (.ows ⟨version, status, headers⟩ name)
  | value {stage version status headers name token} (hname : ∀ b ∈ name, headerNameByte b = true)
      (hvalue : ∀ b ∈ token, headerValueByte b = true) :
      Holds ⟨stage, some version, some status, some headers, name, token, false⟩
        (.value ⟨version, status, headers⟩ name token)
  | fieldCrlf {stage version status headers key cr} :
      Holds ⟨stage, some version, some status, some headers, key, [], cr⟩
        (.fieldCrlf ⟨version, status, headers⟩ cr)
  | blankLine {stage version status headers key cr} :
      Holds ⟨stage, some version, some status, some headers, key, [], cr⟩
        (.blankLine ⟨version, status, headers⟩ cr)

/-- The stages in which the decoder stands between two calls. It never stands in front of
the CR of a field line, because the bytes of the value are taken together with it. -/
def HeadState.stages : HeadState → List ParseStage
  | .version _ => [.initial, .version]
  | .statusCode _ _ => [.statusCode]
  | .reason _ _ => [.reason]
  | .statusCrlf _ _ _ => [.statusCrlf]
  | .fieldStart _ => [.header .start, .header .endCrlf]
  | .key _ _ => [.header .key]
  | .ows _ _ => [.header .owsBefore]
  | .value _ _ _ => [.header .value]
  | .fieldCrlf _ true => [.header .crlf]
  | .fieldCrlf _ false => []
  | .blankLine _ _ => [.blankLine]

/-- Between two calls. -/
def Rep (d : ResponseDecoder) (s : HeadState) : Prop := Holds d s ∧ d.stage ∈ s.stages

/-- Between two calls, the decoder that waits in a line end has seen its CR. -/
theorem fieldCrlf_of_stage {d : ResponseDecoder} {s : HeadState} (hrep : Rep d s)
    (hstage : d.stage = .header .crlf) : ∃ part, s = .fieldCrlf part true := by
  obtain ⟨-, hmem⟩ := hrep
  rw [hstage] at hmem
  cases s with
  | fieldCrlf part cr =>
    cases cr with
    | true => exact ⟨part, rfl⟩
    | false => cases hmem
  | _ => simp [HeadState.stages] at hmem

theorem rep_new : Rep new (.version []) := ⟨.version, mem_cons_self ..⟩

/-! ### Field lines -/

/-- The part of the cycle that comes next. -/
def HeadState.phase : HeadState → Option Phase
  | .key _ _ => some .key
  | .ows _ _ => some .ows
  | .value _ _ _ => some .value
  | .fieldCrlf _ _ => some .crlf
  | .fieldStart _ => some .blank
  | _ => none

def Phase.succ : Phase → Phase
  | .key => .ows
  | .ows => .value
  | .value => .crlf
  | .crlf => .blank
  | .blank => .key

/-- The bytes that a part takes at least. -/
def Phase.least : Phase → Nat
  | .key => 1
  | _ => 0

/-- How a part of the cycle, or several of them, end with the scan `t`: in front of the part
`next` after at least `used` of `total` bytes, at the end of the segment, in front of a blank
line, or with an error. -/
inductive FlowAgrees (next : Phase) (used total : Nat) (t : HeadScan) :
    Outcome ResponseDecoder HttpError Flow → Prop where
  | next {d : ResponseDecoder} {s : HeadState} {buffer : List UInt8} (holds : Holds d s)
      (hphase : s.phase = some next) (hready : ∀ part cr, s = .fieldCrlf part cr → cr = false ∧ buffer ≠ [])
      (hused : buffer.length + used ≤ total) (scanned : scan headStep s buffer = t) :
      FlowAgrees next used total t (.ok (.next buffer) d)
  | wait {d : ResponseDecoder} {s : HeadState} (rep : Rep d s) (scanned : t = .more s) :
      FlowAgrees next used total t (.ok .wait d)
  | blank {d : ResponseDecoder} {part : ResponsePart} {b : UInt8} {buffer : List UInt8}
      (holds : Holds d (.fieldStart part)) (hend : isLineEnd b = true)
      (scanned : scan headStep (.fieldStart part) (b :: buffer) = t) :
      FlowAgrees next used total t (.ok (.blank (b :: buffer)) d)
  | fail {d : ResponseDecoder} {e : HttpError} (scanned : t = .fail e) : FlowAgrees next used total t (.err e d)

variable {buffer key token name : List UInt8} {d : ResponseDecoder} {s : HeadState} {version : Version}
  {status : StatusCode} {headers : Headers} {stage : ParseStage} {cr : Bool}

theorem FlowAgrees.decodeKey (hname : ∀ b ∈ token, headerNameByte b = true) :
    FlowAgrees .ows 1 buffer.length (scan headStep (.key ⟨version, status, headers⟩ token) buffer)
      (unparsedOrReturn (decodeKey buffer) ⟨stage, some version, some status, some headers, key, token, false⟩) := by
  have htaken : Taken (· == 0x3a) headerNameByte (.key ⟨version, status, headers⟩) token buffer _ :=
    taken_takeToken _ (fun _ _ => rfl) buffer token
  simp only [unparsedOrReturn, ResponseDecoder.decodeKey, getHeaderName, skippingEnd]
  generalize takeToken (· == 0x3a) headerNameByte buffer = out at htaken
  cases htaken with
  | @found more b unparsed hlegal hends split scanned =>
    have hvalid := forall_mem_append.mpr ⟨hname, hlegal⟩
    have hows : headStep (.key ⟨version, status, headers⟩ (token ++ more)) b =
        .more (.ows ⟨version, status, headers⟩ (token ++ more)) := by
      simp only [headStep, keyStep, tokenStep, hends, if_true]
    have hused : unparsed.length + 1 ≤ buffer.length := by
      rw [split, length_append]
      exact Nat.le_add_left _ _
    rw [scanned, scan_more hows]
    by_cases hrest : token = []
    · subst hrest
      exact .next (.ows hvalid) rfl (by simp) hused rfl
    · simp only [ofExcept_ok, bind_ok, bind_apply, get_apply, ne_eq,
        hrest, not_false_eq_true, if_true, modify_apply, pure_apply, drop_one,
        tail_cons]
      exact .next (.ows hvalid) rfl (by simp) hused rfl
  | cut hlegal scanned =>
    have hvalid := forall_mem_append.mpr ⟨hname, hlegal⟩
    exact .wait ⟨.key hvalid, mem_cons_self ..⟩ scanned
  | refused scanned => exact .fail scanned

/-- Blanks are skipped. -/
theorem scan_trimOws (part : ResponsePart) (name buffer : List UInt8) :
    match trimOws buffer with
    | some unparsed => unparsed.length ≤ buffer.length ∧
        scan headStep (.ows part name) buffer = scan headStep (.value part name []) unparsed
    | none => scan headStep (.ows part name) buffer = .more (.ows part name) := by
  induction buffer with
  | nil => rfl
  | cons b buffer ih =>
    rw [trimOws]
    by_cases hblank : isBlank b = true
    · have hstep : headStep (.ows part name) b = .more (.ows part name) := by
        simp only [headStep, hblank, if_true]
      rw [if_pos hblank, scan_more hstep]
      cases htrim : trimOws buffer with
      | some unparsed =>
        rw [htrim] at ih
        exact ⟨Nat.le_succ_of_le ih.1, ih.2⟩
      | none =>
        rwa [htrim] at ih
    · rw [if_neg hblank]
      refine ⟨le_refl _, scan_congr ?_ _⟩
      simp only [headStep, hblank, if_false, Bool.false_eq_true]

theorem FlowAgrees.decodeOws (hname : ∀ b ∈ name, headerNameByte b = true) :
    FlowAgrees .value 0 buffer.length (scan headStep (.ows ⟨version, status, headers⟩ name) buffer)
      (unparsedOrReturn (decodeOws buffer) ⟨stage, some version, some status, some headers, name, [], false⟩) := by
  have htrim := scan_trimOws ⟨version, status, headers⟩ name buffer
  simp only [unparsedOrReturn, ResponseDecoder.decodeOws]
  cases hout : trimOws buffer with
  | some unparsed =>
    rw [hout] at htrim
    rw [htrim.2]
    exact .next (.value hname (by simp)) rfl (by simp) htrim.1 rfl
  | none =>
    rw [hout] at htrim
    exact .wait ⟨.ows hname, mem_cons_self ..⟩ htrim

/-- A value that was checked is inserted. -/
theorem insertField_eq (version : Version) (status : StatusCode) (headers : Headers)
    {value : List UInt8} (hname : ∀ b ∈ name, headerNameByte b = true)
    (hvalue : ∀ b ∈ value, headerValueByte b = true) :
    ∃ headers', insertField ⟨version, status, headers⟩ name value = some ⟨version, status, headers'⟩ ∧
      ∀ d, headerInsert name (value.rdropWhile isBlank) headers d = .ok headers' d := by
  have hvalid : (∀ b ∈ name, headerNameByte b = true) ∧ ∀ b ∈ value.rdropWhile isBlank, headerValueByte b = true :=
    ⟨hname, fun b hb => hvalue b (( rdropWhile_prefix _ _).subset hb)⟩
  refine ⟨headers.appendValidatedH1 name (value.rdropWhile isBlank) hvalid.1 hvalid.2, ?_, fun d => ?_⟩
  · rw [insertField, dif_pos hvalid]
  · rw [headerInsert, dif_pos hvalid]
    rfl

variable (value : List UInt8)

theorem takeValue_eq (d : ResponseDecoder) : takeValue value d = .ok (d.rest ++ value) { d with rest := [] } := by
  obtain ⟨stage, version, status, headers, key, rest, newLine⟩ := d
  cases rest <;> rfl

theorem FlowAgrees.decodeValue (hname : ∀ b ∈ name, headerNameByte b = true)
    (hvalue : ∀ b ∈ token, headerValueByte b = true) :
    FlowAgrees .crlf 0 buffer.length (scan headStep (.value ⟨version, status, headers⟩ name token) buffer)
      (unparsedOrReturn (decodeValue buffer)
        ⟨stage, some version, some status, some headers, name, token, false⟩) := by
  have htaken := taken_takeToken (.value ⟨version, status, headers⟩ name) (fun _ _ => rfl) buffer token
  simp only [unparsedOrReturn, ResponseDecoder.decodeValue, getHeaderValue]
  generalize takeToken isLineEnd headerValueByte buffer = out at htaken
  cases htaken with
  | @found more b unparsed hlegal hends split scanned =>
    have hvalid := forall_mem_append.mpr ⟨hvalue, hlegal⟩
    obtain ⟨headers', hfield, hinsert⟩ := insertField_eq version status headers hname hvalid
    have hcrlf : headStep (.value ⟨version, status, headers⟩ name (token ++ more)) b =
        headStep (.fieldCrlf ⟨version, status, headers'⟩ false) b := by
      simp only [headStep, valueStep, tokenStep, hends, if_true, onField, hfield]
    have hroom : (b :: unparsed).length ≤ buffer.length := by
      rw [split, length_append]
      exact Nat.le_add_left _ _
    rw [scanned, scan_congr hcrlf]
    simp only [ofExcept_ok, bind_ok, bind_apply, takeValue_eq, get_apply, modify_apply, hinsert, pure_apply]
    exact .next .fieldCrlf rfl (by simp) hroom rfl
  | cut hlegal scanned =>
    have hvalid := forall_mem_append.mpr ⟨hvalue, hlegal⟩
    exact .wait ⟨.value hname hvalid, mem_cons_self ..⟩ scanned
  | refused scanned => exact .fail scanned

/-- Whether CR has been seen only matters to a CR. -/
theorem consumeCrlf_of_head_ne (h : buffer.head? ≠ some 0x0d) (cr cr' : Bool) :
    consumeCrlf buffer cr = consumeCrlf buffer cr' := by
  cases buffer with
  | nil => rfl
  | cons b bytes =>
    have hb : b ≠ 0x0d := fun hb => h (by rw [hb]; rfl)
    simp only [consumeCrlf, hb, if_false]

theorem FlowAgrees.decodeCrlf (hne : buffer ≠ []) (hsafe : cr = true → buffer.head? ≠ some 0x0d) :
    FlowAgrees .blank 0 buffer.length (scan headStep (.fieldCrlf ⟨version, status, headers⟩ cr) buffer)
      (unparsedOrReturn (decodeCrlf false buffer) ⟨stage, some version, some status, some headers, key, [], cr⟩) := by
  have hend := lineEnd_consumeCrlf (.fieldCrlf ⟨version, status, headers⟩) (fun _ _ => rfl) hne cr
  have hflag : consumeCrlf buffer cr = consumeCrlf buffer false := by
    cases cr with
    | false => rfl
    | true => exact consumeCrlf_of_head_ne (hsafe rfl) true false
  rw [hflag] at hend
  simp only [unparsedOrReturn, ResponseDecoder.decodeCrlf]
  generalize consumeCrlf buffer false = out at hend
  cases hend with
  | complete short scanned =>
    rw [scanned]
    exact .next .fieldStart rfl (by simp) (le_of_lt short) rfl
  | cut scanned => exact .wait ⟨.fieldCrlf, mem_cons_self ..⟩ scanned
  | refused scanned => exact .fail scanned

theorem FlowAgrees.detectBlank :
    FlowAgrees .key 0 buffer.length (scan headStep (.fieldStart ⟨version, status, headers⟩) buffer)
      (detectBlankAndReturn buffer ⟨stage, some version, some status, some headers, key, [], false⟩) := by
  unfold detectBlankAndReturn
  cases buffer with
  | nil => exact .wait ⟨.fieldStart, by simp [HeadState.stages]⟩ rfl
  | cons b buffer =>
    by_cases hend : isLineEnd b = true
    · simp only [hend, if_true]
      exact .blank .fieldStart hend rfl
    · have hkey : headStep (.fieldStart ⟨version, status, headers⟩) b =
          headStep (.key ⟨version, status, headers⟩ []) b := by
        simp only [headStep, hend, if_false, Bool.false_eq_true]
      simp only [hend, if_false, Bool.false_eq_true]
      rw [scan_congr hkey]
      exact .next (.key (by simp)) rfl (by simp) (le_refl _) rfl

theorem flowAgrees_decode {p : Phase} (holds : Holds d s) (hphase : s.phase = some p)
    (hready : ∀ part cr, s = .fieldCrlf part cr → buffer ≠ [] ∧ (cr = true → buffer.head? ≠ some 0x0d)) :
    FlowAgrees p.succ p.least buffer.length (scan headStep s buffer) (p.decode buffer d) := by
  cases holds with
  | version | statusCode | reason | statusCrlf | blankLine => cases hphase
  | key hname =>
    cases hphase
    exact FlowAgrees.decodeKey hname
  | ows hname =>
    cases hphase
    exact FlowAgrees.decodeOws hname
  | value hname hvalue =>
    cases hphase
    exact FlowAgrees.decodeValue hname hvalue
  | fieldCrlf =>
    cases hphase
    obtain ⟨hne, hsafe⟩ := hready _ _ rfl
    exact FlowAgrees.decodeCrlf hne hsafe
  | fieldStart =>
    cases hphase
    exact FlowAgrees.detectBlank

theorem FlowAgrees.mono {next : Phase} {used total used' total' : Nat} {t : HeadScan}
    {x : Outcome ResponseDecoder HttpError Flow} (h : FlowAgrees next used total t x)
    (hmono : ∀ n, n + used ≤ total → n + used' ≤ total') : FlowAgrees next used' total' t x := by
  cases h with
  | next holds hphase hready hused scanned =>
    exact .next holds hphase hready (hmono _ hused) scanned
  | wait rep scanned => exact .wait rep scanned
  | blank holds hend scanned => exact .blank holds hend scanned
  | fail scanned => exact .fail scanned

/-- A part that leaves a line end has read nothing of it. -/
theorem ready_of_next (h : ∀ part cr, s = .fieldCrlf part cr → cr = false ∧ buffer ≠ []) :
    ∀ part cr, s = .fieldCrlf part cr → buffer ≠ [] ∧ (cr = true → buffer.head? ≠ some 0x0d) := by
  intro part cr hs
  obtain ⟨rfl, hne⟩ := h part cr hs
  exact ⟨hne, fun h => absurd h Bool.false_ne_true⟩

/-- The parts of the cycle from `p` on. -/
def Phase.cycle (p : Phase) (n : Nat) : List Phase := List.iterate Phase.succ p n

/-- Some parts of the cycle after one that leaves a buffer. -/
theorem flowAgrees_decodeRound (n : Nat) : ∀ {p : Phase} {d : ResponseDecoder} {s : HeadState}
    (buffer : List UInt8), Holds d s → s.phase = some p →
    (∀ part cr, s = .fieldCrlf part cr → buffer ≠ [] ∧ (cr = true → buffer.head? ≠ some 0x0d)) →
    (n = 0 → ∀ part cr, s = .fieldCrlf part cr → cr = false ∧ buffer ≠ []) →
    FlowAgrees (Phase.succ^[n] p) ((p.cycle n).map Phase.least).sum buffer.length
      (scan headStep s buffer) (decodeRound (p.cycle n) buffer d) := by
  induction n with
  | zero =>
    intro p d s buffer holds hphase _ hready
    exact .next holds hphase (hready rfl) (le_refl _) rfl
  | succ n ih =>
    intro p d s buffer holds hphase hready _
    have hfirst := flowAgrees_decode holds hphase hready
    rw [Phase.cycle, iterate, map_cons, sum_cons, decodeRound, bind_apply]
    generalize p.decode buffer d = x at hfirst
    cases hfirst with
    | @next d' s' unparsed holds' hphase' hready' hused scanned =>
      have hrest := ih unparsed holds' hphase' (ready_of_next hready') fun _ => hready'
      rw [scanned] at hrest
      refine hrest.mono fun m hm => ?_
      rw [add_comm p.least, ← add_assoc]
      exact le_trans (Nat.add_le_add_right hm _) hused
    | wait rep scanned => exact .wait rep scanned
    | blank holds' hend scanned => exact .blank holds' hend scanned
    | fail scanned => exact .fail scanned

/-- How the loops over the field lines end with the scan `t`. -/
inductive LoopAgrees (t : HeadScan) : Outcome ResponseDecoder HttpError (Option (List UInt8)) → Prop where
  | wait {d : ResponseDecoder} {s : HeadState} (rep : Rep d s) (scanned : t = .more s) : LoopAgrees t (.ok none d)
  | blank {d : ResponseDecoder} {part : ResponsePart} {b : UInt8} {buffer : List UInt8}
      (holds : Holds d (.fieldStart part)) (hend : isLineEnd b = true)
      (scanned : scan headStep (.fieldStart part) (b :: buffer) = t) :
      LoopAgrees t (.ok (some (b :: buffer)) d)
  | fail {d : ResponseDecoder} {e : HttpError} (scanned : t = .fail e) : LoopAgrees t (.err e d)

/-- Every round of a loop takes the colon after a name at least. -/
theorem loopAgrees_decodeLoop {fuel : Nat} : ∀ {p : Phase} {d : ResponseDecoder} {s : HeadState}
    (buffer : List UInt8), Holds d s → s.phase = some p →
    (∀ part cr, s = .fieldCrlf part cr → buffer ≠ [] ∧ (cr = true → buffer.head? ≠ some 0x0d)) →
    buffer.length < fuel → LoopAgrees (scan headStep s buffer) (decodeLoop (p.cycle 5) fuel buffer d) := by
  induction fuel with
  | zero =>
    rintro p d s buffer _ _ _ ⟨⟩
  | succ fuel ih =>
    intro p d s buffer holds hphase hready hfuel
    have hround := flowAgrees_decodeRound 5 buffer holds hphase hready fun h => absurd h (by decide)
    have hcycle : Phase.succ^[5] p = p := by cases p <;> rfl
    have hleast : ((p.cycle 5).map Phase.least).sum = 1 := by cases p <;> rfl
    rw [hcycle, hleast] at hround
    rw [decodeLoop, bind_apply]
    generalize decodeRound (p.cycle 5) buffer d = x at hround
    cases hround with
    | @next d' s' unparsed holds' hphase' hready' hused scanned =>
      have hshort : unparsed.length < fuel :=
        lt_of_lt_of_le hused (Nat.le_of_lt_succ hfuel)
      have hrest := ih unparsed holds' hphase' (ready_of_next hready') hshort
      rwa [scanned] at hrest
    | wait rep scanned => exact .wait rep scanned
    | blank holds' hend scanned => exact .blank holds' hend scanned
    | fail scanned => exact .fail scanned

/-- A call is safe if it does not bring a CR to a decoder that has seen the CR of a field
line. -/
def Safe (d : ResponseDecoder) (segment : List UInt8) : Prop :=
  d.stage = .header .crlf → segment.head? ≠ some 0x0d

instance (d : ResponseDecoder) (segment : List UInt8) : Decidable (Safe d segment) :=
  inferInstanceAs (Decidable (_ → _))

/-- A line that does not start with a line end starts with a name. -/
theorem headStep_fieldStart {part : ResponsePart} {b : UInt8} (hend : ¬ isLineEnd b = true) :
    headStep (.fieldStart part) b = headStep (.key part []) b := by
  simp only [headStep, hend, if_false, Bool.false_eq_true]

theorem loopAgrees_decodeHeader {p : Phase} (buffer : List UInt8)
    (hrep : Rep d s) (hphase : s.phase = some p) (hne : buffer ≠ []) (hsafe : Safe d buffer) :
    LoopAgrees (scan headStep s buffer) (decodeHeader buffer d) := by
  obtain ⟨holds, hstage⟩ := hrep
  have hloop : ∀ {p : Phase} {s : HeadState}, Holds d s → s.phase = some p →
      (∀ part cr, s = .fieldCrlf part cr → buffer ≠ [] ∧ (cr = true → buffer.head? ≠ some 0x0d)) →
      LoopAgrees (scan headStep s buffer) (decodeLoop (p.cycle 5) (buffer.length + 1) buffer d) :=
    fun holds hphase hready => loopAgrees_decodeLoop buffer holds hphase hready (Nat.lt_succ_self _)
  cases holds with
  | version | statusCode | reason | statusCrlf | blankLine => cases hphase
  | key hname =>
    obtain rfl := mem_singleton.mp hstage
    exact hloop (.key hname) rfl (by simp)
  | ows hname =>
    obtain rfl := mem_singleton.mp hstage
    exact hloop (.ows hname) rfl (by simp)
  | value hname hvalue =>
    obtain rfl := mem_singleton.mp hstage
    exact hloop (.value hname hvalue) rfl (by simp)
  | @fieldCrlf _ _ _ _ _ cr =>
    cases cr with
    | false => cases hstage
    | true =>
      obtain rfl := mem_singleton.mp hstage
      exact hloop .fieldCrlf rfl fun _ _ _ => ⟨hne, fun _ => hsafe rfl⟩
  | fieldStart =>
    rcases mem_cons.mp hstage with rfl | hstage
    · cases buffer with
      | nil => exact .wait ⟨.fieldStart, mem_cons_self ..⟩ rfl
      | cons b buffer =>
        simp only [decodeHeader, get_bind]
        by_cases hend : isLineEnd b = true
        · simp only [hend, if_true]
          exact .blank .fieldStart hend rfl
        · simp only [hend, if_false, Bool.false_eq_true]
          rw [scan_congr (headStep_fieldStart hend)]
          exact hloop (.key (by simp)) rfl (by simp)
    · obtain rfl := mem_singleton.mp hstage
      exact hloop .fieldStart rfl (by simp)

/-! ### The phases -/

theorem decodeStatusCrlf_eq (buffer : List UInt8) (d : ResponseDecoder) :
    decodeStatusCrlf buffer d = match consumeCrlf buffer d.newLine with
      | .ok (.complete unparsed) => .ok (some unparsed) { d with newLine := false }
      | .ok (.incomplete 0) => .ok none { d with newLine := false }
      | .ok (.incomplete 1) => .ok none { d with newLine := true }
      | .ok (.incomplete _) => .err .invalidResponse { d with newLine := false }
      | .error e => .err e { d with newLine := false } := by
  simp only [decodeStatusCrlf, get_bind]
  rcases consumeCrlf buffer d.newLine with e | (unparsed | (_ | _ | n)) <;> rfl

theorem agrees_blankLinePhase (hne : buffer ≠ []) :
    Agrees Rep (blankLinePhase buffer ⟨stage, some version, some status, some headers, key, [], cr⟩)
      (scan headStep (.blankLine ⟨version, status, headers⟩ cr) buffer) := by
  have hend := lineEnd_consumeCrlf (.blankLine ⟨version, status, headers⟩) (fun _ _ => rfl) hne cr
  simp only [blankLinePhase, bind_apply, modify_apply, bind_ok, decodeStatusCrlf_eq]
  generalize consumeCrlf buffer cr = out at hend
  cases hend with
  | complete short scanned =>
    rw [scanned]
    exact .done _ _
  | cut scanned =>
    rw [scanned]
    exact .more ⟨.blankLine, mem_cons_self ..⟩
  | refused scanned =>
    rw [scanned]
    exact .fail _

/-- The blank line follows the field lines. -/
theorem agrees_of_loopAgrees {t : HeadScan} {x : Outcome ResponseDecoder HttpError (Option (List UInt8))}
    (h : LoopAgrees t x) :
    Agrees Rep (x.bind fun found =>
      match found with
      | some unparsed => blankLinePhase unparsed
      | none => fun d => .ok none d) t := by
  cases h with
  | wait rep scanned =>
    rw [scanned]
    exact .more rep
  | @blank d part b buffer holds hend scanned =>
    have hblank : headStep (.fieldStart part) b = headStep (.blankLine part false) b := by
      simp only [headStep, hend, if_true]
    rw [scan_congr hblank] at scanned
    rw [← scanned]
    cases holds
    exact agrees_blankLinePhase (cons_ne_nil _ _)
  | fail scanned =>
    rw [scanned]
    exact .fail _

variable {headers : Option Headers}

theorem agrees_headerPhaseWithInit :
    Agrees Rep (headerPhaseWithInit buffer ⟨stage, some version, some status, headers, key, [], false⟩)
      (scan headStep (.fieldStart ⟨version, status, ∅⟩) buffer) := by
  simp only [headerPhaseWithInit, modify_bind]
  cases buffer with
  | nil => exact .more ⟨.fieldStart, mem_cons_self ..⟩
  | cons b buffer =>
    by_cases hend : isLineEnd b = true
    · simp only [hend, if_true]
      exact agrees_of_loopAgrees (.blank .fieldStart hend rfl)
    · simp only [hend, if_false, Bool.false_eq_true]
      rw [scan_congr (headStep_fieldStart hend)]
      have hrep : Rep ⟨.header .key, some version, some status, some ∅, key, [], false⟩
          (.key ⟨version, status, ∅⟩ []) := ⟨.key (by simp), mem_cons_self ..⟩
      have hloop := loopAgrees_decodeHeader (b :: buffer) hrep rfl (cons_ne_nil _ _) (by simp [Safe])
      exact agrees_of_loopAgrees hloop

theorem agrees_statusCrlfPhase (hne : buffer ≠ []) :
    Agrees Rep (statusCrlfPhase buffer ⟨stage, some version, some status, headers, key, [], cr⟩)
      (scan headStep (.statusCrlf version status cr) buffer) := by
  have hend := lineEnd_consumeCrlf (.statusCrlf version status) (fun _ _ => rfl) hne cr
  simp only [statusCrlfPhase, bind_apply, modify_apply, bind_ok, decodeStatusCrlf_eq]
  generalize consumeCrlf buffer cr = out at hend
  cases hend with
  | complete short scanned =>
    rw [scanned]
    exact agrees_headerPhaseWithInit
  | cut scanned =>
    rw [scanned]
    exact .more ⟨.statusCrlf, mem_cons_self ..⟩
  | refused scanned =>
    rw [scanned]
    exact .fail _

theorem agrees_reasonPhase :
    Agrees Rep (reasonPhase buffer ⟨stage, some version, some status, headers, key, [], false⟩)
      (scan headStep (.reason version status) buffer) := by
  have htaken := taken_takeToken (fun _ => .reason version status) (fun _ _ => rfl) buffer []
  simp only [reasonPhase, decodeReason, modify_bind]
  generalize takeToken isLineEnd isLegalReasonByte buffer = out at htaken
  cases htaken with
  | @found more b unparsed hlegal hends split scanned =>
    have hcrlf : headStep (.reason version status) b = headStep (.statusCrlf version status false) b := by
      simp only [headStep, tokenStep, hends, if_true]
    rw [scanned, scan_congr hcrlf]
    exact agrees_statusCrlfPhase (cons_ne_nil _ _)
  | cut hlegal scanned =>
    rw [scanned]
    exact .more ⟨.reason, mem_cons_self ..⟩
  | refused scanned =>
    rw [scanned]
    exact .fail _

theorem decodeVersionToken_eq (d : ResponseDecoder) : decodeVersionToken value d =
      (Method.ofExcept (versionFromBytes (d.rest ++ value)) : Method _ _ _) { d with rest := [] } := by
  obtain ⟨stage, version, status, headers, key, rest, newLine⟩ := d
  cases rest <;> rfl

theorem decodeStatusToken_eq (d : ResponseDecoder) : decodeStatusToken value d =
      (Method.ofExcept (statusFromBytes (d.rest ++ value)) : Method _ _ _) { d with rest := [] } := by
  obtain ⟨stage, version, status, headers, key, rest, newLine⟩ := d
  cases rest <;> rfl

theorem agrees_statusCodePhase {status : Option StatusCode} :
    Agrees Rep (statusCodePhase buffer ⟨stage, some version, status, headers, key, token, false⟩)
      (scan headStep (.statusCode version token) buffer) := by
  have htaken : Taken (· == 0x20) isValidByte (.statusCode version) token buffer _ :=
    taken_takeToken _ (fun _ _ => rfl) buffer token
  simp only [statusCodePhase, statusToken, skippingEnd, modify_bind]
  generalize takeToken (· == 0x20) isValidByte buffer = out at htaken
  cases htaken with
  | @found more b unparsed hlegal hends split scanned =>
    have hstep : headStep (.statusCode version (token ++ more)) b = onStatus version (token ++ more) := by
      simp only [headStep, tokenStep, hends, if_true]
    rw [scanned]
    simp only [ofExcept_ok, bind_ok, bind_apply, decodeStatusToken_eq]
    cases hstatus : statusFromBytes (token ++ more) with
    | ok status =>
      rw [onStatus, hstatus] at hstep
      rw [scan_more hstep]
      exact agrees_reasonPhase
    | error e =>
      rw [onStatus, hstatus] at hstep
      rw [scan_fail hstep]
      exact .fail _
  | cut hlegal scanned =>
    rw [scanned]
    exact .more ⟨.statusCode, mem_cons_self ..⟩
  | refused scanned =>
    rw [scanned]
    exact .fail _

theorem agrees_versionPhase {version : Option Version} {status : Option StatusCode} :
    Agrees Rep (versionPhase buffer ⟨stage, version, status, headers, key, token, false⟩)
      (scan headStep (.version token) buffer) := by
  have htaken : Taken (· == 0x20) isValidByte .version token buffer _ :=
    taken_takeToken _ (fun _ _ => rfl) buffer token
  simp only [versionPhase, statusToken, skippingEnd, modify_bind]
  generalize takeToken (· == 0x20) isValidByte buffer = out at htaken
  cases htaken with
  | @found more b unparsed hlegal hends split scanned =>
    have hstep : headStep (.version (token ++ more)) b = onVersion (token ++ more) := by
      simp only [headStep, tokenStep, hends, if_true]
    rw [scanned]
    simp only [ofExcept_ok, bind_ok, bind_apply, decodeVersionToken_eq]
    cases hversion : versionFromBytes (token ++ more) with
    | ok version =>
      rw [onVersion, hversion] at hstep
      rw [scan_more hstep]
      exact agrees_statusCodePhase
    | error e =>
      rw [onVersion, hversion] at hstep
      rw [scan_fail hstep]
      exact .fail _
  | cut hlegal scanned =>
    rw [scanned]
    exact .more ⟨.version, mem_cons_of_mem _ (mem_cons_self ..)⟩
  | refused scanned =>
    rw [scanned]
    exact .fail _

/-- A safe call does what the scanner does with the bytes of the segment. -/
theorem agrees_decode {segment : List UInt8} (hrep : Rep d s) (hne : segment ≠ []) (hsafe : Safe d segment) :
    Agrees Rep (decode segment d) (scan headStep s segment) := by
  obtain ⟨holds, hstage⟩ := hrep
  have hheader : ∀ {p : Phase} {stage : HeaderStage}, s.phase = some p → d.stage = .header stage →
      Agrees Rep (decode segment d) (scan headStep s segment) := by
    intro p stage hphase hheader
    have hloop := loopAgrees_decodeHeader segment ⟨holds, hstage⟩ hphase hne hsafe
    simp only [decode, get_bind, hheader]
    exact agrees_of_loopAgrees hloop
  cases holds with
  | version =>
    rcases mem_cons.mp hstage with rfl | hstage
    · exact agrees_versionPhase
    · obtain rfl := mem_singleton.mp hstage
      exact agrees_versionPhase
  | statusCode =>
    obtain rfl := mem_singleton.mp hstage
    exact agrees_statusCodePhase
  | reason =>
    obtain rfl := mem_singleton.mp hstage
    exact agrees_reasonPhase
  | statusCrlf =>
    obtain rfl := mem_singleton.mp hstage
    exact agrees_statusCrlfPhase hne
  | blankLine =>
    obtain rfl := mem_singleton.mp hstage
    exact agrees_blankLinePhase hne
  | key | ows | value => exact hheader rfl (mem_singleton.mp hstage)
  | @fieldCrlf _ _ _ _ _ cr =>
    cases cr with
    | false => cases hstage
    | true => exact hheader rfl (mem_singleton.mp hstage)
  | fieldStart =>
    rcases mem_cons.mp hstage with hstart | hstage
    · exact hheader rfl hstart
    · exact hheader rfl (mem_singleton.mp hstage)

end YlongHttp.H1.ResponseDecoder
