/-
Chunked bodies from readers.

Each read gives a window, and the first window that is not a whole one is taken for the last
(`content_of_pieces`): what the reader has behind it is not written. So a chunked body of
everything that the reader has comes out only if all reads but the last give whole windows
(`reader_chunkedBody_iff`).
-/

import YlongHttp.Body.ChunkWritten

namespace YlongHttp.Body

open Rust Method Outcome List

/-! ### The windows of a reader -/

/-- The pieces of a reader with its pending answers. Behind the last piece, reads give nothing. -/
def readWindows : List (Poll (List UInt8)) → Windows
  | [], _ => (0, [])
  | .pending :: answers, 0 => ((readWindows answers 0).1 + 1, (readWindows answers 0).2)
  | .pending :: answers, k + 1 => readWindows answers (k + 1)
  | .ready piece :: _, 0 => (0, piece)
  | .ready _ :: answers, k + 1 => readWindows answers k

def readyPiece : Poll (List UInt8) → Option (List UInt8)
  | .ready piece => some piece
  | .pending => none

/-- What a reader returns without the pending answers. -/
def piecesOf (answers : List (Poll (List UInt8))) : List (List UInt8) := answers.filterMap readyPiece

theorem readWindows_piece (answers : List (Poll (List UInt8))) (k : Nat) :
    (readWindows answers k).2 = (piecesOf answers).getD k [] := by
  induction answers generalizing k with
  | nil => rfl
  | cons answer answers ih =>
    cases answer with
    | pending =>
      cases k with
      | zero => exact ih 0
      | succ k => exact ih (k + 1)
    | ready piece =>
      cases k with
      | zero => rfl
      | succ k => exact ih k

theorem readWindows_ready (pieces : List (List UInt8)) (k : Nat) : (readWindows (pieces.map .ready) k).1 = 0 := by
  induction pieces generalizing k with
  | nil => rfl
  | cons piece pieces ih =>
    cases k with
    | zero => rfl
    | succ k => exact ih k

theorem piecesOf_ready (pieces : List (List UInt8)) : piecesOf (pieces.map .ready) = pieces := by
  induction pieces with
  | nil => rfl
  | cons piece pieces ih => exact congrArg (piece :: ·) ih

theorem mem_piecesOf {answers : List (Poll (List UInt8))} {p : List UInt8} :
    p ∈ piecesOf answers ↔ Poll.ready p ∈ answers := by
  rw [piecesOf, mem_filterMap]
  constructor
  · rintro ⟨answer, hmem, hready⟩
    cases answer with
    | ready piece =>
      cases hready
      exact hmem
    | pending => cases hready
  · intro hmem
    exact ⟨.ready p, hmem, rfl⟩

/-! ### Pieces as windows -/

section Pieces

variable {ws : Windows} {pieces : List (List UInt8)} (hws : ∀ k, (ws k).2 = pieces.getD k [])

include hws

theorem next_pieces (k : Nat) : (ws.next k).2 = pieces.tail.getD k [] := by
  rw [Windows.next, hws]
  cases pieces <;> rfl

/-- Some window is not a whole one, at the latest the one behind the last piece. -/
theorem exists_fulls : ∃ n, ws.Fulls n := by
  induction pieces generalizing ws with
  | nil =>
    refine ⟨0, ?_⟩
    rw [Windows.Fulls, Windows.Full, hws]
    decide
  | cons piece pieces ih =>
    by_cases hfull : ws.Full
    · obtain ⟨n, hn⟩ := ih (next_pieces hws)
      exact ⟨n + 1, hfull, hn⟩
    · exact ⟨0, hfull⟩

/-- The pieces in front of the last window are whole windows. -/
theorem split_of_fulls {n : Nat} (h : ws.Fulls n) (hne : (ws n).2 ≠ []) :
    ∃ front rest, pieces = front ++ (ws n).2 :: rest ∧ front.length = n ∧
      (∀ p ∈ front, p.length = chunkSize) ∧ (ws n).2.length ≠ chunkSize := by
  induction n generalizing ws pieces with
  | zero =>
    cases pieces with
    | nil => exact absurd (hws 0) hne
    | cons piece pieces =>
      have hpiece : (ws 0).2 = piece := hws 0
      exact ⟨[], pieces, by rw [hpiece]; rfl, rfl, by simp, h⟩
  | succ n ih =>
    cases pieces with
    | nil => exact absurd (hws (n + 1)) hne
    | cons piece pieces =>
      obtain ⟨hfull, hfulls⟩ := h
      have hpiece : (ws 0).2 = piece := hws 0
      obtain ⟨front, rest, heq, hlength, hwhole, hshort⟩ := ih (next_pieces hws) hfulls hne
      refine ⟨piece :: front, rest, congrArg (piece :: ·) heq, congrArg (· + 1) hlength, ?_, hshort⟩
      intro p hp
      rcases mem_cons.mp hp with rfl | hp
      · rw [← hpiece]
        exact hfull
      · exact hwhole p hp

end Pieces

section Split

variable {ws : Windows} {front rest : List (List UInt8)} {last : List UInt8}

section

variable (hws : ∀ k, (ws k).2 = (front ++ last :: rest).getD k [])

include hws

theorem fulls_of_split
    (hfront : ∀ p ∈ front, p.length = chunkSize) (hlast : last.length ≠ chunkSize) : ws.Fulls front.length := by
  induction front generalizing ws with
  | nil =>
    have hfirst : (ws 0).2 = last := hws 0
    rw [length_nil, Windows.Fulls, Windows.Full, hfirst]
    exact hlast
  | cons piece front ih =>
    have hfirst : (ws 0).2 = piece := hws 0
    constructor
    · rw [Windows.Full, hfirst]
      exact hfront piece mem_cons_self
    · exact ih (next_pieces hws) fun p hp => hfront p (mem_cons_of_mem _ hp)

theorem window_of_split : (ws front.length).2 = last := by
  rw [hws, getD_append_right _ _ _ _ (le_refl _), Nat.sub_self]
  rfl

/-- What is written does not have the pieces behind the last window. -/
theorem content_of_pieces : ws.content front.length = front.flatten ++ last := by
  induction front generalizing ws with
  | nil => exact hws 0
  | cons piece front ih =>
    have hfirst : (ws 0).2 = piece := hws 0
    rw [length_cons, Windows.content, hfirst, ih (next_pieces hws), flatten_cons, append_assoc]

/-- The chunk of a whole window has 7 bytes more than the window. -/
theorem length_front_of_split (hfront : ∀ p ∈ front, p.length = chunkSize) :
    (ws.front front.length).length = front.length * (chunkSize + 7) := by
  induction front generalizing ws with
  | nil => rfl
  | cons piece front ih =>
    have hfirst : (ws 0).2.length = chunkSize := by
      rw [hws]
      exact hfront piece mem_cons_self
    have hrest := ih (next_pieces hws) fun p hp => hfront p (mem_cons_of_mem _ hp)
    rw [length_cons, Windows.front, Windows.chunk]
    simp only [length_append, hfirst, length_lowerHex_chunkSize, hrest, Nat.succ_mul]
    have hcrlf : crlf.length = 2 := rfl
    omega

end

end Split

/-- What the encoder has to write for the pieces: whole windows and one that is shorter. -/
theorem chunkedBody_pieces_iff {ws : Windows} {pieces : List (List UInt8)}
    (hws : ∀ k, (ws k).2 = pieces.getD k []) (hpieces : ∀ p ∈ pieces, Piece p) {Written : Prop} {Cut : Nat → Prop}
    (hwritten : ∀ n, ws.Fulls n → (ws n).2.length < usizeBound →
      (Written ↔ pieces.flatten = ws.content n ∧ (ws n).2 ≠ [] ∧ ¬ Cut n)) :
    Written ↔ ∃ front last, pieces = front ++ [last] ∧ (∀ p ∈ front, p.length = chunkSize) ∧
      last.length < chunkSize ∧ ¬ Cut front.length := by
  have hbound : ∀ n, (ws n).2.length ≤ chunkSize := by
    intro n
    rw [hws]
    rcases lt_or_ge n pieces.length with hlt | hge
    · rw [getD_eq_getElem _ _ hlt]
      exact (hpieces _ (getElem_mem hlt)).2
    · rw [getD_eq_default _ _ hge]
      exact Nat.zero_le _
  have husize : ∀ n, (ws n).2.length < usizeBound := fun n => lt_of_le_of_lt (hbound n) (by decide)
  constructor
  · intro h
    obtain ⟨n, hfulls⟩ := exists_fulls hws
    obtain ⟨hcontent, hne, hcut⟩ := (hwritten n hfulls (husize n)).mp h
    obtain ⟨front, rest, heq, rfl, hwhole, hshort⟩ := split_of_fulls hws hfulls hne
    rw [heq] at hws hpieces hcontent
    rw [content_of_pieces hws, flatten_append, flatten_cons, ← append_assoc,
      append_right_eq_self, flatten_eq_nil_iff] at hcontent
    have hrest : rest = [] := by
      rw [eq_nil_iff_forall_not_mem]
      intro p hp
      exact (hpieces p (by simp [hp])).1 (hcontent p hp)
    exact ⟨front, (ws front.length).2, by rw [heq, hrest], hwhole, Nat.lt_of_le_of_ne (hbound _) hshort, hcut⟩
  · rintro ⟨front, last, rfl, hwhole, hlast, hcut⟩
    have hfulls := fulls_of_split hws hwhole (Nat.ne_of_lt hlast)
    refine (hwritten _ hfulls (husize _)).mpr ⟨?_, ?_, hcut⟩
    · rw [content_of_pieces hws, flatten_append, flatten_singleton]
    · rw [window_of_split hws]
      exact (hpieces last (by simp)).1

/-! ### The buffer -/

/-- The first window is at the start of the buffer, and `rest` comes from the reader. -/
structure Buffered (ws rest : Windows) (c : ChunkData) : Prop where
  ready : (ws 0).1 = 0
  next : ws.next = rest
  size : c.chunkBuf.length = chunkSize
  fits : (ws 0).2.length ≤ chunkSize
  last : c.chunkLast = (ws 0).2.length
  window : c.chunkBuf.take c.chunkLast = (ws 0).2

theorem Buffered.bufWindow {α : Type} {ws rest : Windows} {b : ChunkBody α} (h : Buffered ws rest b.chunkData) :
    ChunkBody.bufWindow b = .ok (ws 0).2 b := by
  have hfits : b.chunkData.chunkLast ≤ b.chunkData.chunkBuf.length := by
    rw [h.last, h.size]
    exact h.fits
  simp only [ChunkBody.bufWindow, get_bind, sliceTo_eq_ok hfits, h.window]

/-- The buffer with a piece at its start. -/
def ChunkData.filled (piece : List UInt8) (c : ChunkData) : ChunkData :=
  { c with
    chunkBuf := piece ++ c.chunkBuf.drop piece.length
    chunkLast := piece.length }

/-- A piece that has been read into the buffer. -/
theorem buffered_filled {ws : Windows} {c : ChunkData} (hready : (ws 0).1 = 0) (hsize : c.chunkBuf.length = chunkSize)
    (hfits : (ws 0).2.length ≤ chunkSize) : Buffered ws ws.next (c.filled (ws 0).2) where
  ready := hready
  next := rfl
  size := by
    simp only [ChunkData.filled, length_append, length_drop, hsize]
    omega
  fits := hfits
  last := rfl
  window := take_left

namespace FromReader

def load : Method (ChunkBody FromReader) Infallible (Poll Unit) := do
  ChunkBody.beginWindow
  loadWindow
  return .ready ()

def windows (r : FromReader) : Windows := readWindows (r.pieces.map .ready)

def Ahead (ws : Windows) (r : FromReader) (c : ChunkData) : Prop := ws = windows r ∧ c.chunkBuf.length = chunkSize

def Loaded (ws : Windows) (r : FromReader) (c : ChunkData) : Prop := Buffered ws (windows r) c

theorem windows_piece (r : FromReader) (k : Nat) : (windows r k).2 = r.pieces.getD k [] := by
  rw [windows, readWindows_piece, piecesOf_ready]

theorem read_eq (r : FromReader) : r.read.1 = (windows r 0).2 ∧ windows r.read.2 = (windows r).next := by
  obtain ⟨pieces, hpieces⟩ := r
  cases pieces <;> exact ⟨rfl, rfl⟩

theorem read_fits (r : FromReader) : (windows r 0).2.length ≤ chunkSize := by
  obtain ⟨pieces, hpieces⟩ := r
  cases pieces with
  | nil => exact Nat.zero_le _
  | cons piece pieces => exact (hpieces piece mem_cons_self).2

theorem supply : Supply load ChunkBody.bufWindow Ahead Loaded where
  pending := by
    rintro ws b ⟨rfl, -⟩ hwaits
    exact absurd (readWindows_ready _ 0) hwaits
  load := by
    rintro ws b ⟨rfl, hsize⟩ -
    obtain ⟨hpiece, hnext⟩ := read_eq b.source
    refine ⟨b.source.read.2, b.chunkData.filled b.source.read.1, rfl, ?_⟩
    rw [Loaded, hnext, hpiece]
    exact buffered_filled (readWindows_ready _ 0) hsize (read_fits b.source)
  window := Buffered.bufWindow
  length := fun h => ⟨h.last, h.ready⟩
  full := fun h _ => ⟨h.next, h.size⟩
  tail := fun {ws} _ _ h _ => ⟨ws.next, rfl, h.next, h.size⟩

end FromReader

namespace FromAsyncReader

/-- The read of `poll_partial`. -/
def load : Method (ChunkBody FromAsyncReader) Infallible (Poll Unit) := do
  let (answer, reader) := (← get).source.pollRead
  modify fun b => { b with source := reader }
  match answer with
  | .pending => return .pending
  | .ready piece =>
    ChunkBody.beginWindow
    ChunkBody.fillBuf piece
    return .ready ()

def windows (r : FromAsyncReader) : Windows := readWindows r.answers

def Ahead (ws : Windows) (r : FromAsyncReader) (c : ChunkData) : Prop :=
  ws = windows r ∧ c.chunkBuf.length = chunkSize

def Loaded (ws : Windows) (r : FromAsyncReader) (c : ChunkData) : Prop := Buffered ws (windows r) c

theorem pollStep_eq (room : Nat) (b : ChunkBody FromAsyncReader) :
    pollStep room b = ChunkBody.sourceStep load ChunkBody.bufWindow room b := by
  simp only [pollStep, ChunkBody.sourceStep, get_bind]
  cases b.dataStatus with
  | incomplete =>
    cases hflag : b.encodeStatus.readFlag with
    | false =>
      simp only [pollPartial, load, bind_apply, get_apply, bind_ok, hflag, if_true, modify_apply]
      cases b.source.pollRead.1 with
      | pending => rfl
      | ready piece => simp only [bind_apply, Outcome.bind_bind, bind_ok, pure_apply, Poll.map]
    | true =>
      simp only [pollPartial, bind_apply, get_apply, Outcome.bind_bind, bind_ok, hflag, Bool.true_eq_false, if_false,
        pure_apply, Poll.map]
  | complete | finish => rfl

theorem read_pending {r : FromAsyncReader} (h : (windows r 0).1 ≠ 0) :
    r.pollRead.1 = .pending ∧ windows r.pollRead.2 = (windows r).waited := by
  obtain ⟨answers, hanswers⟩ := r
  cases answers with
  | nil => exact absurd rfl h
  | cons answer answers =>
    cases answer with
    | pending => exact ⟨rfl, funext fun k => by cases k <;> rfl⟩
    | ready piece => exact absurd rfl h

theorem read_ready {r : FromAsyncReader} (h : (windows r 0).1 = 0) :
    r.pollRead.1 = .ready (windows r 0).2 ∧ windows r.pollRead.2 = (windows r).next ∧
      (windows r 0).2.length ≤ chunkSize := by
  obtain ⟨answers, hanswers⟩ := r
  cases answers with
  | nil => exact ⟨rfl, rfl, Nat.zero_le _⟩
  | cons answer answers =>
    cases answer with
    | pending => exact absurd h (Nat.succ_ne_zero _)
    | ready piece => exact ⟨rfl, rfl, (hanswers piece mem_cons_self).2⟩

theorem supply : Supply load ChunkBody.bufWindow Ahead Loaded where
  pending := by
    rintro ws b ⟨rfl, hsize⟩ hwaits
    obtain ⟨hanswer, hwaited⟩ := read_pending hwaits
    refine ⟨b.source.pollRead.2, ?_, hwaited.symm, hsize⟩
    simp only [load, bind_apply, get_apply, bind_ok, modify_apply, hanswer, pure_apply]
  load := by
    rintro ws b ⟨rfl, hsize⟩ hwaits
    obtain ⟨hanswer, hnext, hfits⟩ := read_ready hwaits
    refine ⟨b.source.pollRead.2, b.chunkData.filled (windows b.source 0).2, ?_, ?_⟩
    · simp only [load, bind_apply, get_apply, bind_ok, modify_apply, hanswer]
      rfl
    · rw [Loaded, hnext]
      exact buffered_filled hwaits hsize hfits
  window := Buffered.bufWindow
  length := fun h => ⟨h.last, h.ready⟩
  full := fun h _ => ⟨h.next, h.size⟩
  tail := fun {ws} _ _ h _ => ⟨ws.next, rfl, h.next, h.size⟩

end FromAsyncReader

/-! ### What is written for a reader -/

theorem FromReader.not_sizeCut_iff {r : FromReader} {rooms : Nat → Nat} {front : List (List UInt8)} {last : List UInt8}
    (heq : r.pieces = front ++ [last]) (hwhole : ∀ p ∈ front, p.length = chunkSize) :
    ¬ SizeCut rooms front.length r.windows ↔ ∀ k, roomUpTo rooms k ≤ front.length * (chunkSize + 7) ∨
        front.length * (chunkSize + 7) + (lowerHex last.length).length ≤ roomUpTo rooms k := by
  have hws : ∀ k, (r.windows k).2 = (front ++ [last]).getD k [] := by
    intro k
    rw [r.windows_piece, heq]
  have hready : ∀ k, (r.windows k).1 = 0 := readWindows_ready r.pieces
  rw [sizeCut_iff hready, tailSize, window_of_split hws, length_front_of_split hws hwhole]
  simp only [not_exists, not_and_or, not_lt]

theorem FromAsyncReader.pollData_eq (room : Nat) (b : ChunkBody FromAsyncReader) (_ : 0 < room) :
    pollData room b = fillPoll (ChunkBody.sourceStep load ChunkBody.bufWindow) (2 * room + 2) false room b := by
  have hrounds : pollStep = ChunkBody.sourceStep load ChunkBody.bufWindow := funext₂ pollStep_eq
  rw [pollData, hrounds]

theorem FromAsyncReader.chunkedBody_iff {rooms : Nat → Nat} (hrooms : ∀ k, 0 < rooms k) (r : FromAsyncReader) :
    (∃ out, PollProduces FromAsyncReader.pollData rooms (FromAsyncReader.chunkBody r) out ∧
      ChunkedBody usizeBound out (piecesOf r.answers).flatten) ↔
    ∃ front last, piecesOf r.answers = front ++ [last] ∧ (∀ p ∈ front, p.length = chunkSize) ∧
      last.length < chunkSize ∧ ¬ SizeCut rooms front.length (readWindows r.answers) := by
  have hholds : Holds FromAsyncReader.Ahead FromAsyncReader.Loaded (FromAsyncReader.chunkBody r)
      (.size 0 r.windows) := holds_new ⟨rfl, length_replicate⟩
  have hpieces : ∀ p ∈ piecesOf r.answers, Piece p := fun p hp => r.piece p (mem_piecesOf.mp hp)
  exact chunkedBody_pieces_iff (readWindows_piece r.answers) hpieces fun n hfulls hbound =>
    pollProduces_chunkedBody_iff FromAsyncReader.supply FromAsyncReader.pollData_eq hrooms hholds hfulls hbound _

/-- What a reader has comes out as a chunked body if every read but the last gives a whole
window, the last read is shorter, and no buffer ends inside the size of the last window. With an
asynchronous reader, a pending read ends a buffer early. -/
theorem reader_chunkedBody_iff (rooms : Nat → Nat) (hrooms : ∀ k, 0 < rooms k) :
    (∀ r : FromReader,
      (∃ out, Produces FromReader.data rooms (FromReader.chunkBody r) out ∧
        ChunkedBody usizeBound out r.pieces.flatten) ↔
      ∃ front last, r.pieces = front ++ [last] ∧ (∀ p ∈ front, p.length = chunkSize) ∧ last.length < chunkSize ∧
        ∀ k, roomUpTo rooms k ≤ front.length * (chunkSize + 7) ∨
          front.length * (chunkSize + 7) + (lowerHex last.length).length ≤ roomUpTo rooms k) ∧
    (∀ r : FromAsyncReader,
      (∃ out, PollProduces FromAsyncReader.pollData rooms (FromAsyncReader.chunkBody r) out ∧
        ChunkedBody usizeBound out (piecesOf r.answers).flatten) ↔
      ∃ front last, piecesOf r.answers = front ++ [last] ∧ (∀ p ∈ front, p.length = chunkSize) ∧
        last.length < chunkSize ∧ ¬ SizeCut rooms front.length (readWindows r.answers)) := by
  constructor
  · intro r
    have hholds : Holds FromReader.Ahead FromReader.Loaded (FromReader.chunkBody r) (.size 0 r.windows) :=
      holds_new ⟨rfl, length_replicate⟩
    have hiff := chunkedBody_pieces_iff r.windows_piece r.piece fun n hfulls hbound =>
      produces_chunkedBody_iff FromReader.supply (fun _ => rfl) hrooms hholds hfulls hbound r.pieces.flatten
    refine Iff.trans hiff ?_
    constructor
    · rintro ⟨front, last, heq, hwhole, hlast, hcut⟩
      exact ⟨front, last, heq, hwhole, hlast, (FromReader.not_sizeCut_iff heq hwhole).mp hcut⟩
    · rintro ⟨front, last, heq, hwhole, hlast, hrooms⟩
      exact ⟨front, last, heq, hwhole, hlast, (FromReader.not_sizeCut_iff heq hwhole).mpr hrooms⟩
  · exact fun r => r.chunkedBody_iff hrooms

/-- The bytes `hello` in one read, with buffers of 16 bytes; the asynchronous reader is pending
before it. -/
theorem reader_chunkedBody_hello : (∀ _ : Nat, 0 < 16) ∧
    (∃ out, Produces FromReader.data (fun _ => 16)
      (FromReader.chunkBody ⟨[[0x68, 0x65, 0x6c, 0x6c, 0x6f]], by decide⟩) out ∧
      ChunkedBody usizeBound out [0x68, 0x65, 0x6c, 0x6c, 0x6f]) ∧
    ∃ out, PollProduces FromAsyncReader.pollData (fun _ => 16)
      (FromAsyncReader.chunkBody ⟨[.pending, .ready [0x68, 0x65, 0x6c, 0x6c, 0x6f]], by simp [Piece, chunkSize]⟩) out ∧
      ChunkedBody usizeBound out [0x68, 0x65, 0x6c, 0x6c, 0x6f] := by
  have hrooms : ∀ _ : Nat, 0 < 16 := fun _ => Nat.zero_lt_succ 15
  obtain ⟨hsync, hasync⟩ := reader_chunkedBody_iff _ hrooms
  -- a size of one digit cannot be cut
  refine ⟨hrooms, (hsync _).mpr ⟨[], [0x68, 0x65, 0x6c, 0x6c, 0x6f], rfl, by simp, by decide, ?_⟩,
    (hasync _).mpr ⟨[], [0x68, 0x65, 0x6c, 0x6c, 0x6f], rfl, by simp, by decide, ?_⟩⟩
  · intro k
    exact (Nat.eq_zero_or_pos _).imp le_of_eq id
  · rintro ⟨k, hrest, hsize⟩
    exact absurd hrest (Nat.not_lt_of_le (Nat.le_of_lt_succ hsize))

/-- A reader that gives `he` and then `llo`. -/
def twoReads : FromReader := ⟨[[0x68, 0x65], [0x6c, 0x6c, 0x6f]], by decide⟩

/-- The second read is lost. -/
theorem reader_shortRead :
    Produces FromReader.data (fun _ => 16) (FromReader.chunkBody twoReads)
      ([0x32, 0x0d, 0x0a, 0x68, 0x65, 0x0d, 0x0a] ++ lastChunk) ∧
    ¬ ChunkedBody usizeBound ([0x32, 0x0d, 0x0a, 0x68, 0x65, 0x0d, 0x0a] ++ lastChunk) twoReads.pieces.flatten := by
  have hrooms : ∀ _ : Nat, 0 < 16 := fun _ => Nat.zero_lt_succ 15
  have hholds : Holds FromReader.Ahead FromReader.Loaded (FromReader.chunkBody twoReads) (.size 0 twoReads.windows) :=
    holds_new ⟨rfl, length_replicate⟩
  have hfulls : twoReads.windows.Fulls 0 := by
    rw [Windows.Fulls]
    decide
  have hcut : ¬ SizeCut (fun _ => 16) 0 twoReads.windows := by
    rintro ⟨k, hrest, hsize⟩
    exact absurd hrest (Nat.not_lt_of_le (Nat.le_of_lt_succ hsize))
  constructor
  · exact produces_text FromReader.supply (fun _ => rfl) hrooms hholds hfulls hcut
  · intro hbody
    have htext : ChunkedBody usizeBound (twoReads.windows.text 0) [0x68, 0x65] :=
      chunkedBody_text hfulls (by decide) (by decide)
    have heq : twoReads.windows.text 0 ++ [] = twoReads.windows.text 0 ++ [] := rfl
    obtain ⟨-, hsame⟩ := htext.unique reads_of_fitLine reads_of_fitLine hbody heq
    exact absurd hsame (by decide)

end YlongHttp.Body
