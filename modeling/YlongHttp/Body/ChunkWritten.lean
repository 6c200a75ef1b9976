/-
Which of the texts of the encoder are chunked bodies.

The text for windows of which the last is shorter than `CHUNK_SIZE`, but not empty, is a
chunked body with the windows as content (`chunkedBody_text`). After an empty window the last
chunk is written a second time, and what is written in vain in front of the size of the last
window makes that size too large (`not_chunkedBody_empty`, `not_chunkedBody_junk`). So the
encoder writes a chunked body only in the first case, and if no buffer ends inside the size of
the last window (`pollProduces_chunkedBody_iff`).
-/

import YlongHttp.Body.ChunkText
import YlongHttp.Body.SizeLines

namespace YlongHttp.Body

open Rust Method Outcome List

variable {α : Type}

/-! ### Hexadecimal sizes -/

/-- The digit for a number less than 16. -/
def hexByte (n : Nat) : UInt8 := (Nat.digitChar n).toNat.toUInt8

variable {n : Nat} {ws : Windows} {junk : List UInt8}

theorem lowerHex_of_lt (h : n < 16) : lowerHex n = [hexByte n] := by
  rw [lowerHex, Nat.toDigits_of_lt_base h]
  rfl

theorem lowerHex_of_le (h : 16 ≤ n) : lowerHex n = lowerHex (n / 16) ++ [hexByte (n % 16)] := by
  rw [lowerHex, Nat.toDigits_of_base_le (by decide) h, map_append]
  rfl

theorem hexDigit_hexByte : ∀ n < 16, hexDigit (hexByte n) = some n := by decide

theorem hexFrom_append (n : Nat) (digits digits' : List UInt8) :
    hexFrom n (digits ++ digits') = hexFrom (hexFrom n digits) digits' := foldl_append

theorem isHex_lowerHex (n : Nat) : ∀ b ∈ lowerHex n, isHex b = true := by
  have hbyte : ∀ m < 16, isHex (hexByte m) = true := by
    intro m hm
    rw [isHex, hexDigit_hexByte m hm]
    rfl
  induction n using Nat.strong_induction_on with
  | _ n ih =>
    rcases lt_or_ge n 16 with hlt | hge
    · rw [lowerHex_of_lt hlt]
      simpa using hbyte n hlt
    · rw [lowerHex_of_le hge]
      intro b hb
      rcases mem_append.mp hb with hb | hb
      · exact ih (n / 16) (by omega) b hb
      · rw [mem_singleton.mp hb]
        exact hbyte (n % 16) (Nat.mod_lt n (by decide))

theorem hexValue_lowerHex (n : Nat) : hexValue (lowerHex n) = n := by
  induction n using Nat.strong_induction_on with
  | _ n ih =>
    rcases lt_or_ge n 16 with hlt | hge
    · rw [lowerHex_of_lt hlt, hexValue, hexFrom_cons, hexDigit_hexByte n hlt]
      exact zero_add n
    · have hlast := hexDigit_hexByte (n % 16) (Nat.mod_lt n (by decide))
      have hfront := ih (n / 16) (by omega)
      rw [hexValue] at hfront
      rw [lowerHex_of_le hge, hexValue, hexFrom_append, hfront, hexFrom_cons, hlast]
      exact Nat.div_add_mod' n 16

/-- The first digit is not zero. -/
theorem lowerHex_head (h : 0 < n) : ∃ b rest d, lowerHex n = b :: rest ∧ hexDigit b = some d ∧ 0 < d := by
  induction n using Nat.strong_induction_on with
  | _ n ih =>
    rcases lt_or_ge n 16 with hlt | hge
    · exact ⟨hexByte n, [], n, lowerHex_of_lt hlt, hexDigit_hexByte n hlt, h⟩
    · obtain ⟨b, rest, d, heq, hdigit, hpos⟩ := ih (n / 16) (by omega) (by omega)
      refine ⟨b, rest ++ [hexByte (n % 16)], d, ?_, hdigit, hpos⟩
      rw [lowerHex_of_le hge, heq]
      rfl

theorem lowerHex_ne_nil (n : Nat) : lowerHex n ≠ [] := by
  intro h
  rw [lowerHex, map_eq_nil_iff] at h
  exact Nat.toDigits_ne_nil h

theorem sizeLine_lowerHex (n : Nat) : SizeLine (lowerHex n) n := by
  refine ⟨lowerHex n, [], (append_nil _).symm, lowerHex_ne_nil n, isHex_lowerHex n, hexValue_lowerHex n, .nil⟩

theorem hexFrom_lt (digits : List UInt8) : ∀ {m n : Nat}, m < n → hexFrom m digits < hexFrom n digits := by
  induction digits with
  | nil =>
    intro m n h
    exact h
  | cons b digits ih =>
    intro m n h
    rw [hexFrom_cons, hexFrom_cons]
    apply ih
    omega

/-! ### Texts that are chunked bodies -/

namespace Windows

/-- The body that the windows make up. -/
def content : Nat → Windows → List UInt8
  | 0, ws => (ws 0).2
  | n + 1, ws => (ws 0).2 ++ content n ws.next

/-- The part of the body that the whole windows make up. -/
def frontContent : Nat → Windows → List UInt8
  | 0, _ => []
  | n + 1, ws => (ws 0).2 ++ frontContent n ws.next

theorem content_eq (n : Nat) (ws : Windows) : content n ws = frontContent n ws ++ (ws n).2 := by
  induction n generalizing ws with
  | zero => rfl
  | succ n ih =>
    rw [content, frontContent, ih ws.next, append_assoc]
    rfl

end Windows

/-- The size lines of the grammar whose sizes fit. -/
abbrev FitLine (line : List UInt8) (n : Nat) : Prop := SizeLine line n ∧ n < usizeBound

theorem fitLine_lowerHex (h : n < usizeBound) : FitLine (lowerHex n) n := ⟨sizeLine_lowerHex n, h⟩

theorem reads_of_fitLine {line : List UInt8} (h : FitLine line n) : Reads line n := reads_of_sizeLine h.1

/-- Everything before the size of the last window is chunks. -/
theorem chunks_front (h : ws.Fulls n) : Chunks FitLine (ws.front n) (ws.frontContent n) := by
  induction n generalizing ws with
  | zero => exact .nil
  | succ n ih =>
    obtain ⟨hfull, hrest⟩ := h
    have hline : FitLine (lowerHex (ws 0).2.length) (ws 0).2.length := by
      rw [hfull]
      exact fitLine_lowerHex (by decide)
    have hne : (ws 0).2 ≠ [] := by
      intro hnil
      rw [Windows.Full, hnil] at hfull
      cases hfull
    have hchunks := Chunks.cons hline hne (ih hrest)
    simp only [append_assoc] at hchunks
    exact hchunks

theorem chunkedBody_lastChunk : ChunkedBody usizeBound lastChunk [] := by
  have hzero : FitLine (lowerHex 0) 0 := fitLine_lowerHex (by decide)
  exact Framed.last hzero

theorem chunkedBody_text (h : ws.Fulls n) (hlast : (ws n).2.length < usizeBound)
    (hne : (ws n).2 ≠ []) : ChunkedBody usizeBound (ws.text n) (ws.content n) := by
  have htail : ChunkedBody usizeBound (tailSize (ws n).2 ++ tailRest (ws n).2) (ws n).2 := by
    have hcons := Framed.cons (fitLine_lowerHex hlast) hne chunkedBody_lastChunk
    simp only [append_assoc, append_nil] at hcons
    exact hcons
  rw [ws.text_front, ws.content_eq]
  exact (chunks_front h).framed htail

/-- After an empty window, the last chunk is written twice. -/
theorem not_chunkedBody_empty (h : ws.Fulls n) (hnil : (ws n).2 = []) (body : List UInt8) :
    ¬ ChunkedBody usizeBound (ws.text n) body := by
  intro hbody
  have htext : ws.text n = ws.front n ++ lastChunk ++ lastChunk := by
    rw [ws.text_front, hnil, append_assoc]
    rfl
  have hshort : ChunkedBody usizeBound (ws.front n ++ lastChunk) (ws.frontContent n ++ []) :=
    (chunks_front h).framed chunkedBody_lastChunk
  have heq : ws.text n ++ [] = ws.front n ++ lastChunk ++ lastChunk := by
    rw [append_nil, htext]
  obtain ⟨hsame, -⟩ := hbody.unique reads_of_fitLine reads_of_fitLine hshort heq
  rw [htext] at hsame
  have hlength := congrArg length hsame
  simp [lastChunk] at hlength

theorem reads_digits {digits : List UInt8} (h : ∀ b ∈ digits, isHex b = true) : Reads digits (hexValue digits) := by
  have hnone : ∀ b ∈ ([] : List UInt8), Inline b := by simp
  have hreads := reads_append h hnone (.inl rfl)
  rwa [append_nil] at hreads

theorem sizeLine_ne_nil {line : List UInt8} (h : SizeLine line n) : line ≠ [] := by
  obtain ⟨digits, ext, rfl, hdigits, -⟩ := h
  intro hnil
  exact hdigits (append_eq_nil_iff.mp hnil).1

/-- A piece of a number is not zero. -/
theorem hexValue_junk_pos (hjunk : Junk (lowerHex n) junk) : 0 < hexValue junk := by
  obtain ⟨k, more, hpos, hlt, rfl, -⟩ := hjunk
  have hn : 0 < n := by
    rcases Nat.eq_zero_or_pos n with rfl | hn
    · have hlength : (lowerHex 0).length = 1 := rfl
      omega
    · exact hn
  obtain ⟨b, rest, d, heq, hdigit, hd⟩ := lowerHex_head hn
  obtain ⟨k, rfl⟩ := Nat.exists_eq_succ_of_ne_zero (ne_of_gt hpos)
  rw [heq, take_succ_cons, cons_append, hexValue, hexFrom_cons, hdigit]
  refine lt_of_lt_of_le ?_ (le_hexFrom _ _)
  simpa using hd

/-- The size with something in front of it. -/
theorem reads_junk {window : List UInt8} (hjunk : Junk (tailSize window) junk) :
    ∃ n, Reads (junk ++ tailSize window) n ∧ window.length < n := by
  have hhex : ∀ b ∈ junk ++ tailSize window, isHex b = true := by
    intro b hb
    rcases mem_append.mp hb with hb | hb
    · exact isHex_lowerHex _ b (hjunk.mem b hb)
    · exact isHex_lowerHex _ b hb
  refine ⟨_, reads_digits hhex, ?_⟩
  have hlt := hexFrom_lt (tailSize window) (hexValue_junk_pos hjunk)
  have hvalue : hexFrom 0 (tailSize window) = window.length := hexValue_lowerHex _
  rw [hvalue] at hlt
  rw [hexValue, hexFrom_append]
  exact hlt

/-- What is written in vain makes the size of the last window too large. -/
theorem not_chunkedBody_junk (h : ws.Fulls n) (hjunk : Junk (tailSize (ws n).2) junk) (body : List UInt8) :
    ¬ ChunkedBody usizeBound (ws.front n ++ (junk ++ (tailSize (ws n).2 ++ tailRest (ws n).2))) body := by
  intro hbody
  obtain ⟨body', front, last, hchunks, hlast, heq⟩ :=
    (chunks_front h).tail_of_append reads_of_fitLine reads_of_fitLine hbody rfl
  obtain ⟨size, hreads, hlarge⟩ := reads_junk hjunk
  rw [← append_assoc, tailRest] at heq
  cases hchunks with
  | nil =>
    simp only [nil_append, append_assoc last] at heq
    obtain ⟨rfl, -⟩ := line_unique hreads.1 (reads_of_fitLine hlast).1 heq
    have hzero : size = 0 := hreads.2.symm.trans (reads_of_fitLine hlast).2
    omega
  | @cons first data front _ hfirst hne hrest =>
    have hshape : junk ++ tailSize (ws n).2 ++ (crlf ++ ((ws n).2 ++ (crlf ++ lastChunk))) =
        first ++ (crlf ++ (data ++ (crlf ++ (front ++ (last ++ (crlf ++ crlf)))))) := by
      rw [heq]
      simp only [append_assoc]
    obtain ⟨rfl, hbehind⟩ := line_unique hreads.1 (reads_of_fitLine hfirst).1 hshape
    have hsize : data.length = size := (reads_of_fitLine hfirst).2.symm.trans hreads.2
    have hline := length_pos_iff.mpr (sizeLine_ne_nil hlast.1)
    have hlength := congrArg length hbehind
    simp only [length_append, lastChunk, crlf, length_cons, length_nil] at hlength
    omega

/-! ### What the encoder writes -/

section Encoder

variable {load : Method (ChunkBody α) Infallible (Poll Unit)}
  {window : Method (ChunkBody α) Infallible (List UInt8)} {Ahead Loaded : Windows → α → ChunkData → Prop}
  (hsupply : Supply load window Ahead Loaded) {call : Nat → Method (ChunkBody α) Infallible (Poll (List UInt8))}
  (hcall : ∀ room b, 0 < room → call room b = fillPoll (ChunkBody.sourceStep load window) (2 * room + 2) false room b)

/-- A buffer ends inside the size of the last window. -/
def SizeCut (rooms : Nat → Nat) (n : Nat) (ws : Windows) : Prop :=
  Cut (tailSize (ws n).2) (tailRest (ws n).2) rooms ((ws.text n).length, (Position.size 0 ws).stops n)

theorem left_start (n : Nat) (ws : Windows) : (Position.size 0 ws).left n = ws.text n := (ws.text_eq n).symm

theorem bounded_start (n : Nat) (ws : Windows) : Bounded (ws.text n).length ((Position.size 0 ws).stops n) := by
  rw [Position.stops, left_start]
  exact Windows.bounded_replicate _ ((ws.bounded_stops n).mono (ws.length_after_le n))

theorem outside_start (n : Nat) (ws : Windows) :
    ∀ q ∈ (Position.size 0 ws).stops n, ¬ Inside (tailSize (ws n).2) (tailRest (ws n).2) q := by
  intro q hq
  rw [Position.stops, left_start] at hq
  rcases mem_append.mp hq with hq | hq
  · rw [eq_of_mem_replicate hq, ws.text_front]
    exact not_inside_append _
  · exact ws.stops_outside n q hq

include hsupply hcall

variable {rooms : Nat → Nat} {b : ChunkBody α} {ws : Windows} {n : Nat}

section

variable (hrooms : ∀ k, 0 < rooms k) (hholds : Holds Ahead Loaded b (.size 0 ws)) (hfulls : ws.Fulls n)

include hrooms hholds hfulls

/-- What is written is what the text drains to. -/
theorem pollProduces_iff_drains (out : List UInt8) : PollProduces call rooms b out ↔
      Drains (rewindTo (tailSize (ws n).2) (tailRest (ws n).2)) rooms ((Position.size 0 ws).stops n)
        (ws.text n) out := by
  have hat : At Ahead Loaded (ws n).2 b _ _ _ :=
    ⟨.size 0 ws, n, hholds, ⟨hfulls, rfl, fun _ => rfl⟩, rfl, rfl, rfl⟩
  have hiff : PollProduces call rooms b out ↔ _ :=
    (rewindingWriter hsupply (ws n).2).pollProduces_iff hcall hrooms hat
  rwa [← Position.left, left_start] at hiff

theorem pollProduces_text (hcut : ¬ SizeCut rooms n ws) : PollProduces call rooms b (ws.text n) := by
  rw [pollProduces_iff_drains hsupply hcall hrooms hholds hfulls]
  exact drains_of_not_cut hrooms (bounded_start n ws) hcut

/-- The encoder writes a chunked body if the last window is not empty and no buffer ends inside
its size, and the body is then made up of the windows. -/
theorem pollProduces_chunkedBody_iff (hlast : (ws n).2.length < usizeBound) (body : List UInt8) :
    (∃ out, PollProduces call rooms b out ∧ ChunkedBody usizeBound out body) ↔
      body = ws.content n ∧ (ws n).2 ≠ [] ∧ ¬ SizeCut rooms n ws := by
  constructor
  · rintro ⟨out, hout, hbody⟩
    rw [pollProduces_iff_drains hsupply hcall hrooms hholds hfulls] at hout
    obtain ⟨-, hsettled⟩ := drains_settled hout (bounded_start n ws) (outside_start n ws)
    rcases hsettled (ws.front n) (ws.text_front n) with ⟨rfl, hcut⟩ | ⟨junk, hjunk, rfl⟩
    · by_cases hnil : (ws n).2 = []
      · exact absurd hbody (not_chunkedBody_empty hfulls hnil body)
      · have htext := chunkedBody_text hfulls hlast hnil
        have heq : ws.text n ++ [] = ws.text n ++ [] := rfl
        obtain ⟨-, rfl⟩ := hbody.unique reads_of_fitLine reads_of_fitLine htext heq
        exact ⟨rfl, hnil, hcut⟩
    · exact absurd hbody (not_chunkedBody_junk hfulls hjunk body)
  · rintro ⟨rfl, hne, hcut⟩
    exact ⟨ws.text n, pollProduces_text hsupply hcall hrooms hholds hfulls hcut, chunkedBody_text hfulls hlast hne⟩

end

end Encoder

/-! ### Sources that do not wait -/

/-- The rounds of `data` are those of a source that is never pending. -/
theorem sourceStep_eq (loadWindow : Method (ChunkBody α) Infallible Unit)
    (window : Method (ChunkBody α) Infallible (List UInt8)) (room : Nat) (b : ChunkBody α) :
    ChunkBody.sourceStep (do ChunkBody.beginWindow; loadWindow; return .ready ()) window room b =
      (Poll.ready <$> ChunkBody.dataStep (ChunkBody.windowEncode loadWindow window) room) b := by
  simp only [ChunkBody.sourceStep, ChunkBody.dataStep, bind_apply, get_apply, bind_ok, map_apply]
  cases b.dataStatus with
  | incomplete =>
    cases hflag : b.encodeStatus.readFlag with
    | false =>
      simp only [ChunkBody.windowEncode, bind_apply, get_apply, map_apply, Outcome.bind_bind, bind_ok, hflag, if_true,
        pure_apply]
    | true =>
      simp only [ChunkBody.windowEncode, bind_apply, get_apply, map_apply, Outcome.bind_bind, bind_ok, hflag,
        Bool.true_eq_false, if_false, pure_apply]
  | complete => simp only [map_apply, bind_apply, Outcome.bind_bind, bind_ok, pure_apply]
  | finish => rfl

theorem ready_eq_ok {σ ε β : Type} {m : Method σ ε β} {s s' : σ} {x : β} :
    (Poll.ready <$> m) s = .ok (.ready x) s' ↔ m s = .ok x s' := by
  rw [map_apply]
  cases m s <;> simp

theorem holds_new {Ahead Loaded : Windows → α → ChunkData → Prop} {source : α}
    {chunkBuf : List UInt8} (h : Ahead ws source ⟨chunkBuf, 0, 0⟩) :
    Holds Ahead Loaded (.new source chunkBuf) (.size 0 ws) :=
  .size (.ahead h) (fun _ => by decide) (fun _ => rfl)

/-- Nothing is pending, so nothing ends early. -/
theorem stops_of_ready (h : ∀ k, (ws k).1 = 0) : (Position.size 0 ws).stops n = [] := by
  have hstops : ws.stops n = [] := by
    induction n generalizing ws with
    | zero => rw [Windows.stops, h 1, replicate_zero]
    | succ n ih =>
      rw [Windows.stops, h 1, replicate_zero]
      exact ih fun k => h (k + 1)
  rw [Position.stops, Position.waits, h 0, replicate_zero]
  exact hstops

theorem sizeCut_iff {rooms : Nat → Nat} (h : ∀ k, (ws k).1 = 0) :
    SizeCut rooms n ws ↔ ∃ k, (ws.front n).length < roomUpTo rooms k ∧
      roomUpTo rooms k < (ws.front n).length + (tailSize (ws n).2).length := by
  have hlength := congrArg length (ws.text_front n)
  rw [length_append, length_append] at hlength
  rw [SizeCut, stops_of_ready h]
  constructor
  · rintro ⟨k, hrest, htoken⟩
    rw [leftAfter_nil] at hrest htoken
    rw [length_append] at htoken
    exact ⟨k, by omega, by omega⟩
  · rintro ⟨k, hfront, hsize⟩
    refine ⟨k, ?_, ?_⟩
    · rw [leftAfter_nil]
      omega
    · rw [leftAfter_nil, length_append]
      omega

section Ready

variable {loadWindow : Method (ChunkBody α) Infallible Unit}
  {window : Method (ChunkBody α) Infallible (List UInt8)} {Ahead Loaded : Windows → α → ChunkData → Prop}
  (hsupply : Supply (do ChunkBody.beginWindow; loadWindow; return .ready ()) window Ahead Loaded)
  {call : Nat → Method (ChunkBody α) Infallible (List UInt8)}
  (hcall : ∀ room, call room = fill (ChunkBody.dataStep (ChunkBody.windowEncode loadWindow window)) (2 * room + 2) room)

include hcall in
theorem ready_call_eq (room : Nat) (b : ChunkBody α) (_ : 0 < room) :
    (Poll.ready <$> call room) b =
      fillPoll (ChunkBody.sourceStep (do ChunkBody.beginWindow; loadWindow; return .ready ()) window)
        (2 * room + 2) false room b := by
  have hrounds : ChunkBody.sourceStep (do ChunkBody.beginWindow; loadWindow; return .ready ()) window =
      fun room => Poll.ready <$> ChunkBody.dataStep (ChunkBody.windowEncode loadWindow window) room := by
    funext room b
    exact sourceStep_eq loadWindow window room b
  rw [hrounds, fillPoll_ready, hcall]

include hsupply hcall

variable {rooms : Nat → Nat} {b : ChunkBody α} {ws : Windows} {n : Nat}

section

variable (hrooms : ∀ k, 0 < rooms k) (hholds : Holds Ahead Loaded b (.size 0 ws)) (hfulls : ws.Fulls n)

include hrooms hholds hfulls

theorem produces_text (hcut : ¬ SizeCut rooms n ws) : Produces call rooms b (ws.text n) := by
  rw [← pollProduces_ready fun _ _ => rfl]
  exact pollProduces_text hsupply (ready_call_eq hcall) hrooms hholds hfulls hcut

/-- What a source that never waits writes. -/
theorem produces_chunkedBody_iff (hlast : (ws n).2.length < usizeBound) (body : List UInt8) :
    (∃ out, Produces call rooms b out ∧ ChunkedBody usizeBound out body) ↔
      body = ws.content n ∧ (ws n).2 ≠ [] ∧ ¬ SizeCut rooms n ws := by
  rw [← pollProduces_chunkedBody_iff hsupply (ready_call_eq hcall) hrooms hholds hfulls hlast body]
  simp only [pollProduces_ready fun _ _ => rfl]

end

end Ready

end YlongHttp.Body
