/-
What the decoder of chunked bodies does with the bytes of a segment.

`chunkStep` reads a chunked body one byte at a time; its states are what the decoder has to
keep between two calls. A call does what the scanner does with the bytes of the segment
(`agrees_receive`). With trailers there are two exceptions, which `SafeCut` excludes:

* A decoder that has read the last zero of the size of the last chunk looks one byte ahead
  to see that the chunk is the last one. At the end of a segment it does not come back to
  this, and takes the path without trailers.
* A decoder that has read the CR of a trailer line completes the line at the end of the
  segment, and once more when the LF arrives.
-/

import YlongHttp.Body.ChunkDecoder
import YlongHttp.Body.ChunkGrammar
import YlongHttp.Codec.Scanner

namespace YlongHttp.Body

open Rust Codec Method Outcome List

/-! ### The scanner -/

/-- Where a chunked body can be cut. The flags of a size say whether a digit other than zero
has been read, and whether the last byte was a zero. The text of a trailer section is its
complete lines, and in `trailerLine` and `trailerLineEnd` the current line as well. -/
inductive Control where
  | size (count : Nat) (nonzero zero : Bool)
  | ext (total : Nat)
  | sizeEnd (total : Nat)
  | data (total rest : Nat)
  | dataEnd (total : Nat) (cr : Bool)
  | trailerExt
  | trailerCrlf
  | trailerStart (text : List UInt8)
  | trailerLine (text : List UInt8)
  | trailerLineEnd (text : List UInt8)
  | trailerEnd (text : List UInt8)
deriving DecidableEq, Repr

/-- The body, and the headers of the trailer section. -/
abbrev Received := List UInt8 × Outcome Unit HttpError (Option Headers)

/-- The state has the body so far. -/
abbrev ChunkVerdict := Verdict (List UInt8 × Control) HttpError Received

abbrev ChunkScan := Scan (List UInt8 × Control) HttpError Received

/-- A byte that ends a size. -/
def endsSize (b : UInt8) : Bool := b == 0x20 || b == 0x09 || b == 0x3b || b == 0x0d || b == 0x0a

/-- A byte of a line whose content is `inside` and whose CR leads to `onCr`. -/
def lineStep (inside onCr : List UInt8 × Control) (b : UInt8) : ChunkVerdict :=
  if b = 0x0d then .more onCr else if b = 0x0a then .fail .invalidInput else .more inside

/-- The LF of a line end whose CR has been read. -/
def lfStep (onLf : ChunkVerdict) (b : UInt8) : ChunkVerdict :=
  if b = 0x0a then onLf else .fail .invalidInput

def extStep (body : List UInt8) (total : Nat) (b : UInt8) : ChunkVerdict :=
  lineStep (body, .ext total) (body, .sizeEnd total) b

def trailerExtStep (body : List UInt8) (b : UInt8) : ChunkVerdict :=
  lineStep (body, .trailerExt) (body, .trailerCrlf) b

def sizeStep (t : Bool) (body : List UInt8) (count : Nat) (nonzero zero : Bool) (b : UInt8) : ChunkVerdict :=
  match hexDigit b with
  | some digit =>
    if count * 16 + digit ≤ ChunkBodyDecoder.i64Max then
      .more (body, .size (count * 16 + digit) (nonzero || digit ≠ 0) (digit = 0))
    else .fail .invalidInput
  | none =>
    if endsSize b then
      if t && !nonzero && zero && ChunkBodyDecoder.endsLastSize b then trailerExtStep body b
      else extStep body count b
    else .fail .invalidInput

def dataEndStep (body : List UInt8) (total : Nat) (cr : Bool) (b : UInt8) : ChunkVerdict :=
  if cr then
    lfStep (if total = 0 then .done (body, ChunkBodyDecoder.trailerHeaders [])
      else .more (body, .size 0 false false)) b
  else if b = 0x0d then .more (body, .dataEnd total true)
  else .fail .invalidInput

def dataStep (body : List UInt8) (total : Nat) : Nat → UInt8 → ChunkVerdict
  | 0, b => dataEndStep body total false b
  | 1, b => .more (body ++ [b], .dataEnd total false)
  | rest + 2, b => .more (body ++ [b], .data total (rest + 1))

/-- The trailer section as the decoder has it when the blank line has been read. -/
def closed (text : List UInt8) : List UInt8 := if text = [] then [] else text ++ [0x0d, 0x0a]

def chunkStep (t : Bool) : List UInt8 × Control → UInt8 → ChunkVerdict
  | (body, .size count nonzero zero), b => sizeStep t body count nonzero zero b
  | (body, .ext total), b => extStep body total b
  | (body, .sizeEnd total), b => lfStep (.more (body, .data total total)) b
  | (body, .data total rest), b => dataStep body total rest b
  | (body, .dataEnd total cr), b => dataEndStep body total cr b
  | (body, .trailerExt), b => trailerExtStep body b
  | (body, .trailerCrlf), b => lfStep (.more (body, .trailerStart [])) b
  | (body, .trailerStart text), b =>
    lineStep (body, .trailerLine (text ++ [b])) (body, .trailerEnd text) b
  | (body, .trailerLine text), b =>
    lineStep (body, .trailerLine (text ++ [b])) (body, .trailerLineEnd text) b
  | (body, .trailerLineEnd text), b => lfStep (.more (body, .trailerStart (text ++ [0x0d, 0x0a]))) b
  | (body, .trailerEnd text), b =>
    lfStep (.done (body, ChunkBodyDecoder.trailerHeaders (closed text))) b

/-! ### What the decoder keeps -/

/-- A trailer section between two lines. -/
def Lines (text : List UInt8) : Prop := text = [] ∨ ∃ front, text = front ++ [0x0a]

namespace ChunkBodyDecoder

/-- The decoder keeps where a body was cut. -/
inductive Holds (t : Bool) : ChunkBodyDecoder → Control → Prop where
  | size {num flag trailerCrlf stage count nonzero zero} (hzero : nonzero = false → count = 0) :
      Holds t ⟨num, 0, 0, count, [], false, flag, nonzero, false, false, t, trailerCrlf, stage⟩
        (.size count nonzero zero)
  | ext {num flag trailerCrlf stage total} :
      Holds t ⟨num, total, total, 0, [], false, flag, false, total = 0, false, t, trailerCrlf, stage⟩
        (.ext total)
  | sizeEnd {num flag trailerCrlf stage total} :
      Holds t ⟨num, total, total, 0, [], true, flag, false, total = 0, false, t, trailerCrlf, stage⟩
        (.sizeEnd total)
  | data {num flag trailerCrlf stage total rest} :
      Holds t ⟨num, total, rest, 0, [], false, flag, false, total = 0, false, t, trailerCrlf, stage⟩
        (.data total rest)
  | dataEnd {num flag trailerCrlf stage total cr} :
      Holds t ⟨num, total, 0, 0, [], cr, flag, false, total = 0, false, t, trailerCrlf, stage⟩
        (.dataEnd total cr)
  | trailerExt {num flag trailerCrlf stage} :
      Holds t ⟨num, 0, 0, 0, [], false, flag, false, false, true, t, trailerCrlf, stage⟩ .trailerExt
  | trailerCrlf {num flag trailerCrlf stage} :
      Holds t ⟨num, 0, 0, 0, [], true, flag, false, false, true, t, trailerCrlf, stage⟩ .trailerCrlf
  | trailerStart {num flag stage text} (hlines : Lines text) :
      Holds t ⟨num, 0, 0, 0, text, false, flag, false, false, true, t, true, stage⟩ (.trailerStart text)
  | trailerLine {num flag stage text} (hne : text ≠ []) :
      Holds t ⟨num, 0, 0, 0, text, false, flag, false, false, true, t, false, stage⟩ (.trailerLine text)
  | trailerLineEnd {num flag trailerCrlf stage text} :
      Holds t ⟨num, 0, 0, 0, text ++ [0x0d, 0x0a], true, flag, false, false, true, t, trailerCrlf, stage⟩
        (.trailerLineEnd text)
  | trailerEnd {num flag trailerCrlf stage text} (hlines : Lines text) :
      Holds t ⟨num, 0, 0, 0, closed text, true, flag, false, true, true, t, trailerCrlf, stage⟩
        (.trailerEnd text)

/-- The stage in which the decoder stands between two calls. -/
def stageOf : Control → Stage
  | .size _ _ _ => .size
  | .ext _ => .extension
  | .sizeEnd _ => .sizeEnd
  | .data _ _ => .data
  | .dataEnd _ _ => .dataEnd
  | .trailerExt => .extension
  | .trailerCrlf => .trailerCrlf
  | .trailerStart _ => .trailerData
  | .trailerLine _ => .trailerData
  | .trailerLineEnd _ => .trailerEndCrlf
  | .trailerEnd _ => .trailerEndCrlf

def Stands (t : Bool) (d : ChunkBodyDecoder) (c : Control) : Prop := Holds t d c ∧ d.stage = stageOf c

/-- The chunk with which the decoder reports the end of the body. -/
def Finishing (chunk : Chunk) : Prop := chunk.state = .finish ∧ chunk.size = 0

instance (chunk : Chunk) : Decidable (Finishing chunk) := inferInstanceAs (Decidable (_ ∧ _))

/-- How a round of the loop of `decode` ends with the scan `x`, if `body` is the body in front
of its chunk and the round has `total` bytes. -/
inductive RoundAgrees (t : Bool) (body : List UInt8) (total : Nat) (x : ChunkScan) :
    Outcome ChunkBodyDecoder HttpError (Piece × Bool) → Prop where
  | wait {d : ChunkBodyDecoder} {c : Control} {chunk : Chunk} (stands : Stands t d c)
      (hunfinished : ¬ Finishing chunk) (scanned : x = .more (body ++ chunk.data, c)) :
      RoundAgrees t body total x (.ok ((chunk, []), true) d)
  | next {d : ChunkBodyDecoder} {c : Control} {chunk : Chunk} {rest : List UInt8} (stands : Stands t d c)
      (hunfinished : ¬ Finishing chunk) (hne : rest ≠ []) (hshort : rest.length < total)
      (hclear : ∀ text, c ≠ .trailerLineEnd text) (hsize : ∀ n nonzero, c ≠ .size n nonzero true)
      (scanned : x = scan (chunkStep t) (body ++ chunk.data, c) rest) :
      RoundAgrees t body total x (.ok ((chunk, rest), false) d)
  | done {d : ChunkBodyDecoder} {chunk : Chunk} {rest : List UInt8} (hfinished : Finishing chunk)
      (scanned : x = .done (body ++ chunk.data, getTrailer d) rest) :
      RoundAgrees t body total x (.ok ((chunk, rest), true) d)
  | fail {d : ChunkBodyDecoder} {e : HttpError} (scanned : x = .fail e) : RoundAgrees t body total x (.err e d)

/-- The round of a chunk. -/
def closing (x : Outcome ChunkBodyDecoder HttpError Piece) : Outcome ChunkBodyDecoder HttpError (Piece × Bool) :=
  x.bind fun piece d => closeRound piece d

@[simp] theorem closing_ok (piece : Piece) (d : ChunkBodyDecoder) : closing (.ok piece d) = closeRound piece d := rfl

variable {d : ChunkBodyDecoder} {t flag trailerCrlf : Bool} {body buf text : List UInt8} {total most num : Nat}
  {stage : Stage}

theorem decodeCr_false (h : d.crMeet = false) : decodeCr d = .ok () { d with crMeet := true } := by
  simp [decodeCr, h]

theorem decodeLf_true (h : d.crMeet = true) : decodeLf d = .ok () { d with crMeet := false } := by
  simp [decodeLf, h]

variable {state : ChunkState} {c : Control} {b : UInt8}

/-- A chunk that is not complete ends the loop. -/
theorem closeRound_incomplete (h : d.isChunkTrailer = false) (data : List UInt8)
    (size : Nat) (hstate : state ≠ .finish) (rest : List UInt8) :
    closeRound (sizedChunk data none size state, rest) d =
      .ok ((⟨d.chunkNum, state, size, data, none⟩, rest), true) d := by
  cases state with
  | finish => exact absurd rfl hstate
  | _ => simp [closeRound, sizedChunk, matchDecodeResult, Chunk.isComplete, h]

theorem closeRound_finish (data : List UInt8) (size : Nat) (rest : List UInt8) :
    closeRound (sizedChunk data none size .finish, rest) d =
      .ok ((⟨d.chunkNum, .finish, size, data, none⟩, rest), d.isLastChunk || rest = [])
        (if d.isLastChunk then { d with isLastChunk := false, chunkNum := 0 }
        else { d with chunkNum := d.chunkNum + 1 }) := by
  cases h : d.isLastChunk <;> simp [closeRound, sizedChunk, matchDecodeResult, Chunk.isComplete, h]

/-- A round that has come to `s` does with the bytes ahead what the scanner does. -/
abbrev Reads (t : Bool) (body : List UInt8) (most : Nat) (s : List UInt8 × Control) (buf : List UInt8)
    (x : Outcome ChunkBodyDecoder HttpError Piece) : Prop :=
  RoundAgrees t body most (scan (chunkStep t) s buf) (closing x)

/-- The loop goes on with the rest if there is one. -/
theorem RoundAgrees.of_rest {chunk : Chunk} {rest : List UInt8} {x : ChunkScan} (stands : Stands t d c)
    (hunfinished : ¬ Finishing chunk) (hshort : rest.length < total)
    (hclear : ∀ text, c ≠ .trailerLineEnd text) (hsize : ∀ n nonzero, c ≠ .size n nonzero true)
    (scanned : x = scan (chunkStep t) (body ++ chunk.data, c) rest) :
    RoundAgrees t body total x (.ok ((chunk, rest), rest = []) d) := by
  cases rest with
  | nil => exact .wait stands hunfinished scanned
  | cons b rest => exact .next stands hunfinished (cons_ne_nil _ _) hshort hclear hsize scanned

/-- A call with nothing to read leaves the decoder where it stands. -/
theorem RoundAgrees.idle (h : d.isChunkTrailer = false) (size : Nat)
    (hstate : state ≠ .finish) (stands : Stands t d c) : Reads t body most (body, c) []
      (.ok (sizedChunk [] none size state, []) d) := by
  rw [Reads, closing_ok, closeRound_incomplete h _ _ hstate]
  refine .wait stands (fun hfinished => hstate hfinished.1) ?_
  rw [append_nil]
  rfl

variable {s : List UInt8 × Control} {onCr onLf next : Call Piece} {data : List UInt8} {count n digit : Nat}
  {nonzero zero : Bool}

theorem RoundAgrees.more {s' : List UInt8 × Control} {x : Outcome ChunkBodyDecoder HttpError Piece}
    (h : chunkStep t s b = .more s') (hx : Reads t body most s' buf x) : Reads t body most s (b :: buf) x := by
  rw [Reads, scan_more h]
  exact hx

/-- A byte behind a CR: only a LF is allowed. -/
theorem RoundAgrees.afterCr {v : ChunkVerdict} (h : d.crMeet = true) (hstep : ∀ b, chunkStep t s b = lfStep v b)
    (hlf : Reads t body most s (0x0a :: buf) (onLf { d with crMeet := false })) :
    Reads t body most s (b :: buf)
      ((if b = 0x0d then decodeCr >>= fun _ => onCr
        else if b = 0x0a then decodeLf >>= fun _ => onLf else throw .invalidInput : Call Piece) d) := by
  by_cases hb : b = 0x0a
  · subst hb
    rw [if_neg (by decide), if_pos rfl, bind_apply, decodeLf_true h]
    exact hlf
  · have hfail : chunkStep t s b = .fail .invalidInput := (hstep b).trans (if_neg hb)
    rw [Reads, scan_fail hfail]
    split
    · simp only [bind_apply, decodeCr, get_apply, bind_ok, h, if_true]
      exact .fail rfl
    · exact .fail rfl

/-- A byte of a line, whose CR is followed by `onCr`. -/
theorem RoundAgrees.inLine {onCrlf : List UInt8 × Control} {inside : UInt8 → List UInt8 × Control}
    (h : d.crMeet = false) (hstep : ∀ b, chunkStep t s b = lineStep (inside b) onCrlf b)
    (hcr : Reads t body most onCrlf buf (onCr { d with crMeet := true }))
    (hnext : Reads t body most (inside b) buf (next d)) :
    Reads t body most s (b :: buf)
      ((if b = 0x0d then decodeCr >>= fun _ => onCr
        else if b = 0x0a then decodeLf >>= fun _ => onLf else next : Call Piece) d) := by
  by_cases hb : b = 0x0d
  · subst hb
    rw [if_pos rfl, bind_apply, decodeCr_false h]
    exact .more (hstep 0x0d) hcr
  rw [if_neg hb]
  by_cases hlf : b = 0x0a
  · subst hlf
    rw [Reads, scan_fail (hstep 0x0a)]
    simp only [bind_apply, decodeLf, get_apply, bind_ok, h, if_true]
    exact .fail rfl
  · have hmore : chunkStep t s b = .more (inside b) := by
      rw [hstep b, lineStep, if_neg hb, if_neg hlf]
    rw [if_neg hlf]
    exact .more hmore hnext

theorem RoundAgrees.skipLastCrlf_go : ∀ {buf : List UInt8} {cr : Bool}, buf.length ≤ most →
    Reads t body most (body ++ data, .dataEnd total cr) buf (skipLastCrlf.go data buf
      ⟨num, total, 0, 0, [], cr, flag, false, total = 0, false, t, trailerCrlf, .dataEnd⟩) := by
  intro buf
  induction buf with
  | nil =>
    intro cr _
    simp only [skipLastCrlf.go, get_bind, pure_apply, Reads, closing_ok]
    rw [closeRound_incomplete rfl _ _ (by decide)]
    exact .wait ⟨.dataEnd, rfl⟩ (by simp [Finishing]) rfl
  | cons b buf ih =>
    intro cr hlen
    cases cr with
    | true =>
      refine .afterCr rfl (fun _ => rfl) ?_
      simp only [bind_apply, modify_apply, bind_ok, get_apply, pure_apply, Reads, closing_ok]
      by_cases htotal : total = 0
      · subst htotal
        exact .done ⟨rfl, rfl⟩ (scan_done rfl _)
      · rw [closeRound_finish]
        have hstep : chunkStep t (body ++ data, .dataEnd total true) 0x0a =
            .more (body ++ data, .size 0 false false) := by
          simp [chunkStep, dataEndStep, lfStep, htotal]
        rw [scan_more hstep]
        simp only [htotal, decide_false]
        exact .of_rest ⟨.size fun _ => rfl, rfl⟩ (by simp [Finishing, htotal])
          (Nat.lt_of_succ_le hlen) (by simp) (by simp) rfl
    | false =>
      simp only [skipLastCrlf.go]
      by_cases hcr : b = 0x0d
      · subst hcr
        exact .more rfl (ih (Nat.le_of_succ_le hlen))
      · have hfail : chunkStep t (body ++ data, .dataEnd total false) b = .fail .invalidInput := by
          simp [chunkStep, dataEndStep, hcr]
        rw [if_neg hcr, Reads, scan_fail hfail]
        split <;> exact .fail rfl

/-- All bytes of the data of a chunk. -/
theorem scan_data (t : Bool) (total : Nat) (tail : List UInt8) : ∀ {bytes : List UInt8} (body : List UInt8),
    bytes ≠ [] → scan (chunkStep t) (body, .data total bytes.length) (bytes ++ tail) =
      scan (chunkStep t) (body ++ bytes, .dataEnd total false) tail := by
  intro bytes
  induction bytes with
  | nil =>
    intro body hne
    exact absurd rfl hne
  | cons b bytes ih =>
    intro body _
    rw [cons_append]
    cases bytes with
    | nil => rw [scan_more rfl, nil_append]
    | cons c bytes =>
      have hrest : scan (chunkStep t) (body ++ [b], .data total (c :: bytes).length) (c :: bytes ++ tail) =
          scan (chunkStep t) (body ++ [b] ++ c :: bytes, .dataEnd total false) tail :=
        ih _ (cons_ne_nil _ _)
      rw [append_assoc] at hrest
      exact (scan_more rfl _).trans hrest

/-- The first bytes of the data of a chunk. -/
theorem scan_data_cut (t : Bool) (total : Nat) : ∀ {bytes : List UInt8} (body : List UInt8) {rest : Nat},
    bytes.length < rest →
    scan (chunkStep t) (body, .data total rest) bytes = .more (body ++ bytes, .data total (rest - bytes.length)) := by
  intro bytes
  induction bytes with
  | nil =>
    intro body rest _
    rw [append_nil]
    rfl
  | cons b bytes ih =>
    intro body rest hlen
    obtain ⟨rest, rfl⟩ : ∃ k, rest = k + 2 := ⟨rest - 2, by rw [length_cons] at hlen; omega⟩
    have hrest := ih (body ++ [b]) (Nat.lt_of_succ_lt_succ hlen)
    have hleft : rest + 2 - (bytes.length + 1) = rest + 1 - bytes.length := Nat.add_sub_add_right _ 1 _
    rw [append_assoc, singleton_append] at hrest
    rw [scan_more rfl, hrest, length_cons, hleft]

theorem RoundAgrees.decodeData {rest : Nat} (hlen : buf.length ≤ most) :
    Reads t body most (body, .data total rest) buf (decodeData buf
      ⟨num, total, rest, 0, [], false, flag, false, total = 0, false, t, trailerCrlf, stage⟩) := by
  simp only [ChunkBodyDecoder.decodeData, bind_apply, modify_apply, bind_ok]
  by_cases hnil : buf = []
  · subst hnil
    exact .idle rfl _ (by decide) ⟨.data, rfl⟩
  · simp only [if_neg hnil, get_bind]
    by_cases hfull : buf.length ≥ rest
    · have hscan : scan (chunkStep t) (body, .data total rest) buf =
          scan (chunkStep t) (body ++ buf.take rest, .dataEnd total false) (buf.drop rest) := by
        cases rest with
        | zero =>
          obtain ⟨b, buf, rfl⟩ := exists_cons_of_ne_nil hnil
          rw [take_zero, append_nil]
          exact scan_congr rfl _
        | succ rest =>
          have htake : (buf.take (rest + 1)).length = rest + 1 := length_take_of_le hfull
          have hne : buf.take (rest + 1) ≠ [] := by
            intro h
            rw [h] at htake
            cases htake
          have hdata := scan_data t total (buf.drop (rest + 1)) body hne
          rwa [htake, take_append_drop] at hdata
      have hdrop : (buf.drop rest).length ≤ most := by
        rw [length_drop]
        exact le_trans (Nat.sub_le _ _) hlen
      simp only [if_pos hfull, bind_apply, modify_apply, bind_ok, skipLastCrlf]
      rw [Reads, hscan]
      exact .skipLastCrlf_go hdrop
    · have hscan := scan_data_cut t total body (Nat.lt_of_not_le hfull)
      simp only [if_neg hfull, bind_apply, modify_apply, bind_ok, get_apply, pure_apply, Reads, closing_ok]
      rw [closeRound_incomplete rfl _ _ (by decide)]
      exact .wait ⟨.data, rfl⟩ (by simp [Finishing]) hscan

theorem RoundAgrees.skipCrlf_go (hlen : buf.length ≤ most) :
    Reads t body most (body, .sizeEnd total) buf (skipCrlf.go buf
      ⟨num, total, total, 0, [], true, flag, false, total = 0, false, t, trailerCrlf, .sizeEnd⟩) := by
  cases buf with
  | nil => exact .idle rfl _ (by decide) ⟨.sizeEnd, rfl⟩
  | cons b buf =>
    refine .afterCr rfl (fun _ => rfl) ?_
    exact .more rfl (.decodeData (Nat.le_of_succ_le hlen))

theorem RoundAgrees.skipChunkExt : ∀ {buf : List UInt8}, buf.length ≤ most →
    Reads t body most (body, .ext total) buf (skipChunkExt buf
      ⟨num, total, total, 0, [], false, flag, false, total = 0, false, t, trailerCrlf, .extension⟩) := by
  intro buf
  induction buf with
  | nil => exact fun _ => .idle rfl _ (by decide) ⟨.ext, rfl⟩
  | cons b buf ih =>
    intro hlen
    exact .inLine rfl (fun _ => rfl) (.skipCrlf_go (Nat.le_of_succ_le hlen)) (ih (Nat.le_of_succ_le hlen))

/-! ### The trailer section -/

theorem RoundAgrees.idleTrailer (size : Nat) (hstate : state = .metaExt ∨ state = .metaCrlf) (stands : Stands t d c) :
    Reads t body most (body, c) [] (.ok (sizedChunk [] (some []) size state, []) d) := by
  have hclose : closeRound (sizedChunk [] (some []) size state, []) d =
      .ok ((⟨d.chunkNum, state, size, [], some []⟩, []), true) d := by
    rcases hstate with rfl | rfl <;>
      simp [closeRound, sizedChunk, matchDecodeResult, mergeTrailer, Chunk.isComplete]
  rw [Reads, closing_ok, hclose]
  refine .wait stands (by rcases hstate with rfl | rfl <;> simp [Finishing]) ?_
  rw [append_nil]
  rfl

theorem closeRound_trailerData (h : d.isChunkTrailer = true) (data rest : List UInt8) :
    closeRound (sizedChunk [] (some data) 0 .data, rest) d =
      .ok ((⟨d.chunkNum, .data, 0, [], some data⟩, rest), rest = [])
        { d with trailer := d.trailer ++ data, chunkNum := d.chunkNum + 1 } := by
  simp [closeRound, sizedChunk, matchDecodeResult, mergeTrailer, Chunk.isComplete, h]

theorem closeRound_trailerLine (h : d.isChunkTrailer = true) (data rest : List UInt8) :
    closeRound (sizedChunk [] (some data) 0 .dataCrlf, rest) d =
      .ok ((⟨d.chunkNum, .dataCrlf, 0, [], some data⟩, rest), rest = [])
        { d with trailer := closed (d.trailer ++ data), chunkNum := d.chunkNum + 1 } := by
  by_cases hnil : d.trailer ++ data = []
  · simp [closeRound, sizedChunk, matchDecodeResult, mergeTrailer, Chunk.isComplete, h, closed,
      append_eq_nil_iff.mp hnil]
  · simp [closeRound, sizedChunk, matchDecodeResult, mergeTrailer, Chunk.isComplete, h, closed,
      -append_eq_nil_iff, hnil]

theorem closeRound_trailerFinish (h : d.isLastChunk = true) (rest : List UInt8) :
    closeRound (sizedChunk [] (some []) 0 .finish, rest) d = .ok ((⟨d.chunkNum, .finish, 0, [], some []⟩, rest), true)
        { d with trailer := closed d.trailer, isLastChunk := false, chunkNum := 0 } := by
  by_cases hnil : d.trailer = []
  · simp [closeRound, sizedChunk, matchDecodeResult, mergeTrailer, Chunk.isComplete, h, closed, hnil]
  · simp [closeRound, sizedChunk, matchDecodeResult, mergeTrailer, Chunk.isComplete, h, closed, hnil]

theorem lines_crlf (text : List UInt8) : Lines (text ++ [0x0d, 0x0a]) :=
  .inr ⟨text ++ [0x0d], by rw [append_assoc]; rfl⟩

theorem closed_of_ne (h : text ≠ []) : closed text = text ++ [0x0d, 0x0a] := if_neg h

theorem trailerStep_cr (seen : List UInt8) (s : TrailerState) : trailerStep seen 0x0d s = .ok false s := rfl

theorem trailerStep_blank (front : List UInt8) (s : TrailerState) :
    trailerStep (front ++ [0x0a] ++ [0x0d]) 0x0a s = .ok true s := by
  have hlength : (front ++ [0x0a] ++ [0x0d]).length = front.length + 2 := by simp
  have hbefore : ((front ++ [0x0a] ++ [0x0d]).take (front.length + 2 - 1)).drop (front.length + 2 - 2) = [0x0a] := by
    rw [append_assoc, Nat.add_sub_cancel, take_append, drop_append]
    simp
  have hspace : (0x0a : UInt8) ≠ 0x20 := by decide
  have hcolon : ¬ ((0x0a : UInt8) = 0x3a ∧ s.colon = 0) := fun h => absurd h.1 (by decide)
  simp only [trailerStep, bind_apply, get_apply, bind_ok, if_neg hspace,
    if_neg hcolon, if_true, hlength, checkedSub_eq_ok (Nat.le_add_left 2 front.length)]
  rw [checkedSub_eq_ok (le_trans (by decide) (Nat.le_add_left 2 front.length))]
  simp only [bind_ok]
  rw [slice_eq_ok (by omega) (by rw [hlength]; omega), hbefore]
  rfl

/-- The loop over the trailer section breaks at a blank line. -/
theorem trailerLoop_blank (after : List UInt8) : ∀ (text seen : List UInt8) (s : TrailerState),
    (∃ front, seen ++ text = front ++ [0x0a]) →
    trailerLoop seen (text ++ 0x0d :: 0x0a :: after) s = trailerLoop seen (text ++ [0x0d, 0x0a]) s := by
  intro text
  induction text with
  | nil =>
    rintro seen s ⟨front, hfront⟩
    rw [append_nil] at hfront
    subst hfront
    have hlf := trailerStep_blank front s
    simp only [nil_append, trailerLoop, bind_apply, trailerStep_cr, bind_ok, hlf, if_true, if_false, Bool.false_eq_true]
  | cons b text ih =>
    rintro seen s ⟨front, hfront⟩
    simp only [cons_append, trailerLoop, bind_apply]
    cases trailerStep seen b s with
    | ok ends s' =>
      cases ends with
      | true => rfl
      | false =>
        refine ih _ s' ⟨front, ?_⟩
        rw [append_assoc, singleton_append, hfront]
    | err | panic => rfl

/-- A second blank line changes nothing. -/
theorem trailerHeaders_closed (h : Lines text) :
    trailerHeaders (closed (closed text)) = trailerHeaders (closed text) := by
  rcases h with rfl | ⟨front, rfl⟩
  · rfl
  · have hne : front ++ [0x0a] ≠ [] := by simp
    have hne' : front ++ [0x0a] ++ [0x0d, 0x0a] ≠ [] := by simp
    have hne'' : front ++ [0x0a] ++ [0x0d, 0x0a] ++ [0x0d, 0x0a] ≠ [] := by simp
    rw [closed_of_ne hne, closed_of_ne hne', trailerHeaders, trailerHeaders, if_neg hne', if_neg hne'']
    have hloop : ∀ s, trailerLoop [] (front ++ [0x0a] ++ ([0x0d, 0x0a] ++ [0x0d, 0x0a])) s = _ := fun s =>
      trailerLoop_blank [0x0d, 0x0a] (front ++ [0x0a]) [] s ⟨front, rfl⟩
    rw [append_assoc (front ++ [0x0a]), hloop]

/-- The LF of a trailer line. -/
theorem RoundAgrees.trailerLineEnd (hline : text ++ data ≠ []) (hlen : buf.length ≤ most) :
    Reads t body most (body, .trailerLineEnd (text ++ data)) buf (skipTrailerLastCrlf.go data buf
      ⟨num, 0, 0, 0, text, true, flag, false, false, true, t, trailerCrlf, .trailerEndCrlf⟩) := by
  cases buf with
  | nil =>
    simp only [skipTrailerLastCrlf.go, pure_apply, Reads, closing_ok]
    rw [closeRound_trailerLine rfl, closed_of_ne hline]
    refine .wait ⟨.trailerLineEnd, rfl⟩ (by simp [Finishing]) ?_
    rw [append_nil]
    rfl
  | cons b buf =>
    refine .afterCr rfl (fun _ => rfl) ?_
    simp only [bind_apply, bind_ok, get_apply, if_false, Bool.false_eq_true, modify_apply, pure_apply, Reads, closing_ok]
    rw [closeRound_trailerLine rfl, closed_of_ne hline, scan_more rfl]
    refine .of_rest ⟨.trailerStart (lines_crlf _), rfl⟩ (by simp [Finishing])
      (Nat.lt_of_succ_le hlen) (by simp) (by simp) ?_
    rw [append_nil]

/-- The LF of the blank line. The decoder may have taken the blank line for complete when its
CR ended the segment before. -/
theorem RoundAgrees.trailerEnd {text' : List UInt8} (hlines : Lines text) (hnil : buf = [] → text' = text)
    (hheaders : trailerHeaders (closed text') = trailerHeaders (closed text)) :
    Reads t body most (body, .trailerEnd text) buf (skipTrailerLastCrlf.go [] buf
      ⟨num, 0, 0, 0, text', true, flag, false, true, true, t, trailerCrlf, .trailerEndCrlf⟩) := by
  cases buf with
  | nil =>
    rw [hnil rfl]
    simp only [skipTrailerLastCrlf.go, pure_apply, Reads, closing_ok]
    rw [closeRound_trailerLine rfl]
    simp only [append_nil]
    refine .wait ⟨.trailerEnd hlines, rfl⟩ (by simp [Finishing]) ?_
    rw [append_nil]
    rfl
  | cons b buf =>
    refine .afterCr rfl (fun _ => rfl) ?_
    simp only [if_true, bind_apply, bind_ok, get_apply, modify_apply, pure_apply, Reads, closing_ok]
    rw [closeRound_trailerFinish rfl]
    refine .done ⟨rfl, rfl⟩ ?_
    rw [scan_done rfl, append_nil, getTrailer, hheaders]

/-- The rest of a trailer line. -/
theorem RoundAgrees.trailerLine : ∀ {buf data : List UInt8}, text ++ data ≠ [] → buf.length ≤ most →
    Reads t body most (body, .trailerLine (text ++ data)) buf (decodeTrailerData.go data buf
      ⟨num, 0, 0, 0, text, false, flag, false, false, true, t, trailerCrlf, .trailerData⟩) := by
  intro buf
  induction buf with
  | nil =>
    intro data hline _
    simp only [decodeTrailerData.go, modify_bind, pure_apply, Reads, closing_ok]
    rw [closeRound_trailerData rfl]
    refine .wait ⟨.trailerLine hline, rfl⟩ (by simp [Finishing]) ?_
    rw [append_nil]
    rfl
  | cons b buf ih =>
    intro data hline hlen
    have hshort := Nat.le_of_succ_le hlen
    refine .inLine rfl (fun _ => rfl) (.trailerLineEnd hline hshort) ?_
    rw [append_assoc]
    exact ih (by simp) hshort

theorem RoundAgrees.trailerStart (hlines : Lines text) (hlen : buf.length ≤ most) :
    Reads t body most (body, .trailerStart text) buf (decodeTrailerData buf
      ⟨num, 0, 0, 0, text, false, flag, false, false, true, t, true, stage⟩) := by
  simp only [decodeTrailerData, modify_bind]
  cases buf with
  | nil =>
    simp only [if_true, pure_apply, Reads, closing_ok]
    rw [closeRound_trailerData rfl]
    simp only [append_nil]
    refine .wait ⟨.trailerStart hlines, rfl⟩ (by simp [Finishing]) ?_
    rw [append_nil]
    rfl
  | cons b buf =>
    have hshort := Nat.le_of_succ_le hlen
    simp only [cons_ne_nil, if_false, get_bind, head?_cons, Option.some.injEq, and_true]
    by_cases hcr : b = 0x0d
    · subst hcr
      exact .more rfl (.trailerEnd hlines (fun _ => rfl) rfl)
    · simp only [if_neg hcr]
      rw [decodeTrailerData.go, if_neg hcr]
      by_cases hlf : b = 0x0a
      · subst hlf
        exact .fail (scan_fail rfl _)
      · have hstep : chunkStep t (body, .trailerStart text) b = .more (body, .trailerLine (text ++ [b])) := by
          simp [chunkStep, lineStep, hcr, hlf]
        rw [if_neg hlf]
        exact .more hstep (.trailerLine (by simp) hshort)

/-- A call in the middle of a trailer line. -/
theorem RoundAgrees.trailerLineResumed (hline : text ≠ []) (hlen : buf.length ≤ most) (hne : buf ≠ []) :
    Reads t body most (body, .trailerLine text) buf (decodeTrailerData buf
      ⟨num, 0, 0, 0, text, false, flag, false, false, true, t, false, stage⟩) := by
  have hstate : Control.trailerLine text = .trailerLine (text ++ []) := by rw [append_nil]
  rw [hstate]
  simp only [decodeTrailerData, bind_apply, modify_apply, bind_ok, hne, if_false,
    get_apply, Bool.false_eq_true, and_false]
  exact .trailerLine (by simpa using hline) hlen

theorem RoundAgrees.skipTrailerCrlf_go (hlen : buf.length ≤ most) :
    Reads t body most (body, .trailerCrlf) buf (skipTrailerCrlf.go buf
      ⟨num, 0, 0, 0, [], true, flag, false, false, true, t, trailerCrlf, .trailerCrlf⟩) := by
  cases buf with
  | nil => exact .idleTrailer _ (.inr rfl) ⟨.trailerCrlf, rfl⟩
  | cons b buf =>
    refine .afterCr rfl (fun _ => rfl) ?_
    exact .more rfl (.trailerStart (.inl rfl) (Nat.le_of_succ_le hlen))

theorem RoundAgrees.skipTrailerExt : ∀ {buf : List UInt8}, buf.length ≤ most →
    Reads t body most (body, .trailerExt) buf (skipTrailerExt buf
      ⟨num, 0, 0, 0, [], false, flag, false, false, true, t, trailerCrlf, .extension⟩) := by
  intro buf
  induction buf with
  | nil => exact fun _ => .idleTrailer _ (.inl rfl) ⟨.trailerExt, rfl⟩
  | cons b buf ih =>
    intro hlen
    exact .inLine rfl (fun _ => rfl) (.skipTrailerCrlf_go (Nat.le_of_succ_le hlen)) (ih (Nat.le_of_succ_le hlen))

/-! ### The size -/

theorem hexToDecimal_eq (count num : Nat) : hexToDecimal count num =
      if count * 16 + num ≤ i64Max then .ok (count * 16 + num) else .error .invalidInput := by
  rw [hexToDecimal]
  by_cases h : count * 16 + num ≤ i64Max
  · have h' : ¬ count * 16 > i64Max := by omega
    rw [if_neg h', if_neg (not_lt.mpr h), if_pos h]
  · rw [if_neg h, if_pos (Nat.lt_of_not_le h), ite_self]

theorem addNonzeroDigit_bind (num : Nat) (next : Call Piece) : (addNonzeroDigit num >>= fun _ => next) =
      (addDigit num >>= fun _ =>
        modify (fun d => { d with chunkFlag := true, numFlag := true }) >>= fun _ => next) := by
  funext d
  simp only [addNonzeroDigit, bind_apply]
  cases addDigit num d <;> rfl

/-- What a byte of a size is, and what the loop does with it. -/
inductive SizeByte (b : UInt8) : Prop where
  | zero (h : b = 0x30)
  | digit {num : Nat} (hnum : num ≠ 0) (hdigit : hexDigit b = some num)
      (hloop : ∀ buf, decodeSizeLoop (b :: buf) = addDigit num >>= fun _ => do
        modify fun d => { d with chunkFlag := true, numFlag := true }
        decodeSizeLoop buf)
  | special (hdigit : hexDigit b = none) (hends : endsSize b = true)
      (hloop : ∀ buf, decodeSizeLoop (b :: buf) = decodeSpecialChar (b :: buf))
  | other (hdigit : hexDigit b = none) (hends : endsSize b = false)
      (hloop : ∀ buf, decodeSizeLoop (b :: buf) = throw .invalidInput)

theorem sizeByte (b : UInt8) : SizeByte b := by
  by_cases hzero : b = 0x30
  · exact .zero hzero
  by_cases hnine : 0x31 ≤ b ∧ b ≤ 0x39
  · have hrange : 0x30 ≤ b ∧ b ≤ 0x39 := ⟨UInt8.le_trans (by decide) hnine.1, hnine.2⟩
    have hlow : 0x31 ≤ b.toNat := UInt8.le_iff_toNat_le.mp hnine.1
    have hdigit : hexDigit b = some (b.toNat - 0x30) := if_pos hrange
    refine .digit (by omega) hdigit fun buf => ?_
    rw [decodeSizeLoop, if_neg hzero, if_pos hnine, addNonzeroDigit_bind]
  have hdecimal : ¬ (0x30 ≤ b ∧ b ≤ 0x39) := by
    rintro ⟨hlow, hhigh⟩
    have hne : (0x30 : UInt8).toNat ≠ b.toNat := fun h => hzero (UInt8.toNat_inj.mp h).symm
    have hle : (0x30 : UInt8).toNat ≤ b.toNat := UInt8.le_iff_toNat_le.mp hlow
    exact hnine ⟨UInt8.le_iff_toNat_le.mpr (Nat.lt_of_le_of_ne hle hne), hhigh⟩
  by_cases hlower : 0x61 ≤ b ∧ b ≤ 0x66
  · have hdigit : hexDigit b = some (b.toNat - 0x61 + 10) := by
      rw [hexDigit, if_neg hdecimal, if_pos hlower]
    refine .digit (Nat.succ_ne_zero _) hdigit fun buf => ?_
    rw [decodeSizeLoop, if_neg hzero, if_neg hnine, if_pos hlower, addNonzeroDigit_bind]
  by_cases hupper : 0x41 ≤ b ∧ b ≤ 0x46
  · have hdigit : hexDigit b = some (b.toNat - 0x41 + 10) := by
      rw [hexDigit, if_neg hdecimal, if_neg hlower, if_pos hupper]
    refine .digit (Nat.succ_ne_zero _) hdigit fun buf => ?_
    rw [decodeSizeLoop, if_neg hzero, if_neg hnine, if_neg hlower, if_pos hupper, addNonzeroDigit_bind]
  have hdigit : hexDigit b = none := by
    rw [hexDigit, if_neg hdecimal, if_neg hlower, if_neg hupper]
  by_cases hends : b = 0x20 ∨ b = 0x09 ∨ b = 0x3b ∨ b = 0x0d ∨ b = 0x0a
  · refine .special hdigit ?_ fun buf => ?_
    · simpa [endsSize, or_assoc] using hends
    · rw [decodeSizeLoop, if_neg hzero, if_neg hnine, if_neg hlower, if_neg hupper, if_pos hends]
  · refine .other hdigit ?_ fun buf => ?_
    · simpa [endsSize, and_assoc] using hends
    · rw [decodeSizeLoop, if_neg hzero, if_neg hnine, if_neg hlower, if_neg hupper, if_neg hends]

theorem endsSize_of_endsLastSize : ∀ b : UInt8, endsLastSize b = true → hexDigit b = none ∧ endsSize b = true :=
  forall_byte (by decide +kernel)

theorem RoundAgrees.decodeSpecialChar (hlen : (b :: buf).length ≤ most) :
    Reads t body most (body, .ext count) (b :: buf) (decodeSpecialChar (b :: buf)
      ⟨num, 0, 0, count, [], false, flag, nonzero, false, false, t, trailerCrlf, .size⟩) := by
  simp only [ChunkBodyDecoder.decodeSpecialChar, get_bind, if_false, Bool.false_eq_true]
  by_cases hcount : count = 0
  · subst hcount
    exact .skipChunkExt hlen
  · simp only [if_neg hcount, bind_apply, modify_apply, bind_ok, skipExtension, get_apply, if_false, Bool.false_eq_true]
    have hrest : Reads t body most (body, .ext count) (b :: buf) (ChunkBodyDecoder.skipChunkExt (b :: buf)
      ⟨num, count, count, 0, [], false, flag, false, count = 0, false, t, trailerCrlf, .extension⟩) :=
      .skipChunkExt hlen
    simp only [hcount, decide_false] at hrest
    exact hrest

section

variable (hdigit : hexDigit b = some digit)

include hdigit

theorem chunkStep_digit (hfit : n * 16 + digit ≤ i64Max) : chunkStep t (body, .size n nonzero zero) b =
      .more (body, .size (n * 16 + digit) (nonzero || digit ≠ 0) (digit = 0)) := by
  simp only [chunkStep, sizeStep, hdigit, if_pos hfit]

theorem chunkStep_overflow
    (hlarge : ¬ n * 16 + digit ≤ i64Max) : chunkStep t (body, .size n nonzero zero) b = .fail .invalidInput := by
  simp only [chunkStep, sizeStep, hdigit, if_neg hlarge]

/-- A digit that fits. -/
theorem RoundAgrees.ofDigit (hcount : d.hexCount = count)
    (hrest : Reads t body most (body, .size (count * 16 + digit) (nonzero || digit ≠ 0) (digit = 0)) buf
      (next { d with hexCount := count * 16 + digit })) :
    Reads t body most (body, .size count nonzero zero) (b :: buf) ((addDigit digit >>= fun _ => next) d) := by
  subst hcount
  simp only [bind_apply, addDigit, get_apply, bind_ok, hexToDecimal_eq]
  split_ifs with hfit
  · exact .more (chunkStep_digit hdigit hfit) hrest
  · exact .fail (scan_fail (chunkStep_overflow hdigit hfit) _)

end

/-- The last zero of the size of the last chunk belongs to the line as an extension does. -/
theorem scan_lastZero (body : List UInt8) (zero : Bool) (hlook : ¬ (buf.head?.map endsLastSize).getD false = false) :
    scan (chunkStep true) (body, .size 0 false zero) (0x30 :: buf) =
      scan (chunkStep true) (body, .trailerExt) (0x30 :: buf) := by
  cases buf with
  | nil => exact absurd rfl hlook
  | cons c buf =>
    have hc : endsLastSize c = true := by simpa using hlook
    obtain ⟨hdigit, hends⟩ := endsSize_of_endsLastSize c hc
    have hfirst : chunkStep true (body, .size 0 false zero) 0x30 = .more (body, .size 0 false true) := rfl
    rw [scan_more hfirst]
    refine scan_congr ?_ _
    simp [chunkStep, sizeStep, hdigit, hends, hc]

/-- The loop over the digits. At its start, a zero that ended the segment before must not be
followed by the end of the size. -/
theorem RoundAgrees.decodeSizeLoop :
    ∀ {buf : List UInt8} {count : Nat} {flag nonzero zero : Bool}, (flag = true → nonzero = true) →
      (nonzero = false → count = 0) →
      (t = true → nonzero = false → zero = true → (buf.head?.map endsLastSize).getD false = false) →
      buf.length ≤ most → Reads t body most (body, .size count nonzero zero) buf (decodeSizeLoop buf
        ⟨num, 0, 0, count, [], false, flag, nonzero, false, false, t, trailerCrlf, .size⟩) := by
  intro buf
  induction buf with
  | nil =>
    intro count flag nonzero zero _ hcount _ _
    exact .idle rfl _ (by decide) ⟨.size hcount, rfl⟩
  | cons b buf ih =>
    intro count flag nonzero zero hflag hcount hsafe hlen
    have hshort := Nat.le_of_succ_le hlen
    rcases sizeByte b with hzero | ⟨hnum, hdigit, hloop⟩ | ⟨hdigit, hends, hloop⟩ | ⟨hdigit, hends, hloop⟩
    · subst hzero
      -- a zero that does not start the trailers
      have hplain : (t = true → nonzero = false → (buf.head?.map endsLastSize).getD false = false) →
          Reads t body most (body, .size count nonzero zero) (0x30 :: buf)
            ((addDigit 0 >>= fun _ => ChunkBodyDecoder.decodeSizeLoop buf)
              ⟨num, 0, 0, count, [], false, flag, nonzero, false, false, t, trailerCrlf, .size⟩) := by
        intro hlook
        have hstate : (nonzero || decide (0 ≠ 0)) = nonzero := by simp
        refine .ofDigit rfl rfl ?_
        rw [hstate]
        exact ih hflag (fun h => by rw [hcount h]) (fun ht hnz _ => hlook ht hnz) hshort
      simp only [ChunkBodyDecoder.decodeSizeLoop, if_true]
      split_ifs with hlook
      · exact hplain fun _ _ => hlook
      · simp only [get_bind]
        by_cases htrailer : (t && !flag && !nonzero) = true
        · simp only [Bool.and_eq_true, Bool.not_eq_true'] at htrailer
          obtain ⟨⟨rfl, rfl⟩, rfl⟩ := htrailer
          obtain rfl := hcount rfl
          rw [Reads, scan_lastZero body zero hlook]
          exact .skipTrailerExt hlen
        · simp only [if_neg htrailer]
          refine hplain fun ht hnz => absurd ?_ htrailer
          have hflag' : flag = false := by
            cases flag with
            | false => rfl
            | true => exact absurd (hflag rfl) (by rw [hnz]; exact Bool.false_ne_true)
          rw [ht, hnz, hflag']
          rfl
    · rename_i digit
      have hstate : (nonzero || decide (digit ≠ 0)) = true ∧ decide (digit = 0) = false := by simp [hnum]
      rw [hloop]
      refine .ofDigit hdigit rfl ?_
      rw [hstate.1]
      exact ih (fun _ => rfl) (fun h => by cases h) (fun _ h => by cases h) hshort
    · have hext : chunkStep t (body, .size count nonzero zero) b = chunkStep t (body, .ext count) b := by
        have hplain : (t && !nonzero && zero && endsLastSize b) = false := by
          cases t <;> cases nonzero <;> cases zero <;> simp_all
        simp [chunkStep, sizeStep, hdigit, hends, hplain]
      rw [Reads, scan_congr hext, hloop]
      exact .decodeSpecialChar hlen
    · have hfail : chunkStep t (body, .size count nonzero zero) b = .fail .invalidInput := by
        simp [chunkStep, sizeStep, hdigit, hends]
      rw [Reads, scan_fail hfail, hloop]
      exact .fail rfl

/-! ### Rounds and calls -/

/-- A cut at `c` that the decoder notices as it should. -/
def SafeAt (t : Bool) (c : Control) (next : List UInt8) : Prop :=
  match c with
  | .size _ nonzero zero => t = true → nonzero = false → zero = true → (next.head?.map endsLastSize).getD false = false
  | .trailerLineEnd _ => False
  | _ => True

theorem roundAgrees_decodeRound {remains : List UInt8}
    (body : List UInt8) (hstands : Stands t d c) (hne : remains ≠ []) (hsafe : SafeAt t c remains) :
    RoundAgrees t body remains.length (scan (chunkStep t) (body, c) remains) (decodeRound remains d) := by
  obtain ⟨holds, hstage⟩ := hstands
  have hlen := le_refl remains.length
  cases holds with
  | size hzero =>
    cases hstage
    simp only [decodeRound, decodeStage, decodeSize, hne, if_false]
    exact .decodeSizeLoop (fun h => by cases h) hzero hsafe hlen
  | ext =>
    cases hstage
    exact .skipChunkExt hlen
  | sizeEnd =>
    cases hstage
    exact .skipCrlf_go hlen
  | data =>
    cases hstage
    exact .decodeData hlen
  | @dataEnd _ _ _ _ total cr =>
    cases hstage
    have hbody : (body, Control.dataEnd total cr) = (body ++ [], .dataEnd total cr) := by
      rw [append_nil]
    rw [hbody]
    exact .skipLastCrlf_go hlen
  | trailerExt =>
    cases hstage
    exact .skipTrailerExt hlen
  | trailerCrlf =>
    cases hstage
    exact .skipTrailerCrlf_go hlen
  | trailerStart hlines =>
    cases hstage
    exact .trailerStart hlines hlen
  | trailerLine hline =>
    cases hstage
    exact .trailerLineResumed hline hlen hne
  | trailerLineEnd => exact hsafe.elim
  | trailerEnd hlines =>
    cases hstage
    exact .trailerEnd hlines (fun h => absurd h hne) (trailerHeaders_closed hlines)

/-- The chunks of a call report the end of the body. -/
def finished (chunks : List Chunk) : Bool := chunks.any fun chunk => Finishing chunk

/-- How a call ends with the scan `x`, if `body` is the body of the calls before. -/
inductive CallAgrees (t : Bool) (body : List UInt8) (x : ChunkScan) :
    Outcome ChunkBodyDecoder HttpError (List Chunk × List UInt8) → Prop where
  | wait {d : ChunkBodyDecoder} {c : Control} {chunks : List Chunk} (stands : Stands t d c)
      (hunfinished : finished chunks = false) (scanned : x = .more (body ++ chunks.flatMap Chunk.data, c)) :
      CallAgrees t body x (.ok (chunks, []) d)
  | done {d : ChunkBodyDecoder} {chunks : List Chunk} {rest : List UInt8} (hfinished : finished chunks = true)
      (scanned : x = .done (body ++ chunks.flatMap Chunk.data, getTrailer d) rest) :
      CallAgrees t body x (.ok (chunks, rest) d)
  | fail {d : ChunkBodyDecoder} {e : HttpError} (scanned : x = .fail e) : CallAgrees t body x (.err e d)

theorem callAgrees_decodeLoop {fuel : Nat} : ∀ {d : ChunkBodyDecoder} {c : Control}
    (body : List UInt8) {remains : List UInt8}, Stands t d c → remains ≠ [] → SafeAt t c remains →
    remains.length < fuel → CallAgrees t body (scan (chunkStep t) (body, c) remains) (decodeLoop fuel remains d) := by
  induction fuel with
  | zero =>
    rintro d c body remains _ _ _ ⟨⟩
  | succ fuel ih =>
    intro d c body remains hstands hne hsafe hfuel
    have hround := roundAgrees_decodeRound body hstands hne hsafe
    simp only [decodeLoop, bind_apply]
    generalize decodeRound remains d = out at hround
    generalize scan (chunkStep t) (body, c) remains = x at hround
    cases hround with
    | @wait d' c' chunk stands hunfinished scanned =>
      refine .wait stands ?_ ?_
      · simp [finished, hunfinished]
      · rw [scanned, flatMap_singleton]
    | @next d' c' chunk rest stands hunfinished hne' hshort hclear hsize scanned =>
      have hsafe' : SafeAt t c' rest := by
        cases c' with
        | size n nonzero zero =>
          intro _ _ hzero
          exact absurd (by rw [hzero]) (hsize n nonzero)
        | trailerLineEnd text => exact hclear text rfl
        | _ => trivial
      have hrest := ih (body ++ chunk.data) stands hne' hsafe'
        (lt_of_lt_of_le hshort (Nat.le_of_lt_succ hfuel))
      subst scanned
      simp only [bind_ok, if_false, Bool.false_eq_true, bind_apply]
      generalize decodeLoop fuel rest d' = out at hrest
      cases hrest with
      | wait stands' hunfinished' scanned' =>
        refine .wait stands' ?_ ?_
        · simpa [finished, hunfinished] using hunfinished'
        · rw [scanned', flatMap_cons, append_assoc]
      | done hfinished' scanned' =>
        refine .done ?_ ?_
        · simpa [finished, hunfinished] using hfinished'
        · rw [scanned', flatMap_cons, append_assoc]
      | fail scanned' => exact .fail scanned'
    | done hfinished scanned =>
      refine .done ?_ ?_
      · simp [finished, hfinished]
      · rw [scanned, flatMap_singleton]
    | fail scanned => exact .fail scanned

end ChunkBodyDecoder

/-! ### Receivers -/

/-- A decoder with the data of the chunks that it has returned and the bytes that it has
taken. -/
structure Receiver where
  decoder : ChunkBodyDecoder
  body : List UInt8
  fed : List UInt8

namespace Receiver

open ChunkBodyDecoder

def start (t : Bool) : Receiver := ⟨ChunkBodyDecoder.new.containsTrailer t, [], []⟩

/-- A call of `decode` by a receiver that collects the data, and takes the trailer headers
when the end of the body is reported. Bytes that are left before the end would be lost. -/
def receive (segment : List UInt8) : Method Receiver HttpError (Option (Received × List UInt8)) := fun r =>
  match decode segment r.decoder with
  | .ok (chunks, rest) d =>
    let body := r.body ++ chunks.flatMap Chunk.data
    if finished chunks then .ok (some ((body, getTrailer d), rest)) ⟨d, body, r.fed ++ segment⟩
    else if rest = [] then .ok none ⟨d, body, r.fed ++ segment⟩
    else .panic
  | .err e d => .err e ⟨d, r.body, r.fed ++ segment⟩
  | .panic => .panic

/-- The state of the scanner at the start of a body. -/
def initial : List UInt8 × Control := ([], .size 0 false false)

/-- Between two calls. -/
def Rep (t : Bool) (r : Receiver) (s : List UInt8 × Control) : Prop :=
  r.body = s.1 ∧ Stands t r.decoder s.2 ∧ scan (chunkStep t) initial r.fed = .more s

theorem rep_start (t : Bool) : Rep t (start t) initial :=
  ⟨rfl, ⟨.size fun _ => rfl, rfl⟩, rfl⟩

variable {s : List UInt8 × Control} {body : List UInt8} {b : UInt8}
  {t : Bool} {r : Receiver} {segment : List UInt8} {total : Nat}

theorem agrees_receive_of_safeAt (hrep : Rep t r s) (hne : segment ≠ []) (hsafe : SafeAt t s.2 segment) :
    Agrees (Rep t) (receive segment r) (scan (chunkStep t) s segment) := by
  obtain ⟨body, c⟩ := s
  obtain ⟨rfl, hstands, hfed⟩ := hrep
  have hcall := callAgrees_decodeLoop r.body hstands hne hsafe (Nat.lt_succ_self _)
  have hscan : scan (chunkStep t) initial (r.fed ++ segment) = scan (chunkStep t) (r.body, c) segment := by
    rw [scan_append, hfed]
    rfl
  simp only [receive, decode]
  generalize decodeLoop (segment.length + 1) segment r.decoder = out at hcall
  cases hcall with
  | wait stands hunfinished scanned =>
    simp only [hunfinished, Bool.false_eq_true, if_false, if_true]
    rw [scanned] at hscan ⊢
    exact .more ⟨rfl, stands, hscan⟩
  | done hfinished scanned =>
    simp only [hfinished, if_true]
    rw [scanned]
    exact .done _ _
  | fail scanned =>
    rw [scanned]
    exact .fail _

/-! ### Cuts -/

/-- The decoder with trailers notices a cut between `front` and `next` as it should. -/
def SafeCut (front next : List UInt8) : Prop :=
  match scan (chunkStep true) initial front with
  | .more s => SafeAt true s.2 next
  | _ => True

/-- A scanner without trailers does not come to the trailer section. -/
def Plain : Control → Prop
  | .size _ _ _ => True
  | .ext _ => True
  | .sizeEnd _ => True
  | .data _ _ => True
  | .dataEnd _ _ => True
  | _ => False

theorem plain_extStep (h : extStep body total b = .more s) : Plain s.2 := by
  unfold extStep lineStep at h
  split at h
  · cases h
    trivial
  · split at h
    · cases h
    · cases h
      trivial

theorem plain_dataEndStep {cr : Bool} (h : dataEndStep body total cr b = .more s) : Plain s.2 := by
  cases cr with
  | true =>
    simp only [dataEndStep, if_true, lfStep] at h
    split at h
    · split at h
      · cases h
      · cases h
        trivial
    · cases h
  | false =>
    simp only [dataEndStep, if_false, Bool.false_eq_true] at h
    split at h
    · cases h
      trivial
    · cases h

theorem plain_sizeStep {count : Nat} {nonzero zero : Bool}
    (h : sizeStep false body count nonzero zero b = .more s) : Plain s.2 := by
  simp only [sizeStep, Bool.false_and, if_false, Bool.false_eq_true] at h
  split at h
  · split at h
    · cases h
      trivial
    · cases h
  · split at h
    · exact plain_extStep h
    · cases h

theorem plain_chunkStep {s' : List UInt8 × Control} (hs : Plain s.2)
    (h : chunkStep false s b = .more s') : Plain s'.2 := by
  obtain ⟨body, c⟩ := s
  cases c with
  | size count nonzero zero => exact plain_sizeStep h
  | ext total => exact plain_extStep h
  | sizeEnd total =>
    simp only [chunkStep, lfStep] at h
    split at h
    · cases h
      trivial
    · cases h
  | data total rest =>
    rcases rest with _ | _ | rest
    · have hend : dataEndStep body total false b = .more s' := h
      exact plain_dataEndStep hend
    · cases h
      trivial
    · cases h
      trivial
  | dataEnd total cr => exact plain_dataEndStep h
  | _ => exact hs.elim

/-- A safe call does what the scanner does with the bytes of the segment. -/
theorem agrees_receive (hrep : Rep t r s) (hne : segment ≠ []) (hsafe : t = true → SafeCut r.fed segment) :
    Agrees (Rep t) (receive segment r) (scan (chunkStep t) s segment) := by
  refine agrees_receive_of_safeAt hrep hne ?_
  obtain ⟨-, -, hfed⟩ := hrep
  cases t with
  | true =>
    have hcut := hsafe rfl
    rwa [SafeCut, hfed] at hcut
  | false =>
    have hstart : Plain initial.2 := trivial
    have hplain : Plain s.2 := scan_invariant (P := fun s => Plain s.2) plain_chunkStep hstart hfed
    obtain ⟨body, c⟩ := s
    cases c with
    | size _ _ _ =>
      rintro ⟨⟩
    | trailerLineEnd _ => exact hplain
    | _ => trivial

end Receiver

end YlongHttp.Body
