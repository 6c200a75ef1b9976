/-
The text that the encoder of chunked bodies writes.

After a number of whole windows comes one that is shorter, with which the encoder takes the
body to end. `Windows.text` is what it writes then, and `Position.stops` says how much of it is
left when the source is pending. The size of the last window is the token that is written
again if a buffer ends in it; everything else is resumed (`rewindingWriter`).
-/

import YlongHttp.Body.ChunkTokens

namespace YlongHttp.Body

open Rust List

variable {α : Type}

/-- What is written behind the size of the last window. -/
def tailRest (window : List UInt8) : List UInt8 := crlf ++ (window ++ (crlf ++ lastChunk))

def tailSize (window : List UInt8) : List UInt8 := lowerHex window.length

namespace Windows

/-- Exactly `n` whole windows come first. -/
def Fulls : Nat → Windows → Prop
  | 0, ws => ¬ ws.Full
  | n + 1, ws => ws.Full ∧ Fulls n ws.next

/-- One chunk, with the text behind it. -/
def chunk (window after : List UInt8) : List UInt8 :=
  lowerHex window.length ++ (crlf ++ (window ++ (crlf ++ after)))

def text : Nat → Windows → List UInt8
  | 0, ws => chunk (ws 0).2 lastChunk
  | n + 1, ws => chunk (ws 0).2 (text n ws.next)

/-- What is written behind the chunk of the first window. -/
def after : Nat → Windows → List UInt8
  | 0, _ => lastChunk
  | n + 1, ws => text n ws.next

/-- The chunks of the whole windows. -/
def front : Nat → Windows → List UInt8
  | 0, _ => []
  | n + 1, ws => chunk (ws 0).2 (front n ws.next)

/-- How much is left when the source is pending behind the first window. -/
def stops : Nat → Windows → List Nat
  | 0, ws => List.replicate (ws 1).1 (crlf ++ lastChunk).length
  | n + 1, ws => List.replicate (ws 1).1 (crlf ++ text n ws.next).length ++ stops n ws.next

section

variable (n : Nat) (ws : Windows)

theorem text_eq : text n ws = chunk (ws 0).2 (after n ws) := by
  cases n <;> rfl

theorem text_front : text n ws = front n ws ++ (tailSize (ws n).2 ++ tailRest (ws n).2) := by
  induction n generalizing ws with
  | zero => rfl
  | succ n ih =>
    simp only [text, front, chunk, ih ws.next, append_assoc]
    rfl

/-- The last window is behind everything that follows a whole window. -/
theorem after_front : n = 0 ∨ ∃ before, after n ws = before ++ (tailSize (ws n).2 ++ tailRest (ws n).2) := by
  cases n with
  | zero => exact .inl rfl
  | succ n => exact .inr ⟨front n ws.next, text_front n ws.next⟩

theorem length_after_le : (crlf ++ after n ws).length ≤ (text n ws).length := by
  rw [text_eq]
  simp only [chunk, length_append]
  omega

end

theorem bounded_replicate (k : Nat) {left : Nat} {rest : List Nat} (h : Bounded left rest) :
    Bounded left (List.replicate k left ++ rest) := by
  induction k with
  | zero => exact h
  | succ k ih => exact ⟨le_refl left, ih⟩

theorem bounded_stops (n : Nat) (ws : Windows) : Bounded (crlf ++ after n ws).length (stops n ws) := by
  induction n generalizing ws with
  | zero =>
    have hbounded : Bounded (crlf ++ lastChunk).length (replicate (ws 1).1 (crlf ++ lastChunk).length ++ []) :=
      bounded_replicate _ trivial
    rwa [append_nil] at hbounded
  | succ n ih =>
    refine bounded_replicate _ ((ih ws.next).mono ?_)
    refine le_trans (length_after_le n ws.next) ?_
    rw [length_append]
    exact Nat.le_add_left ..

/-! Pending calls change nothing in the windows. -/

theorem next_waited (ws : Windows) : ws.waited.next = ws.next := by
  funext k
  simp [next, waited]

theorem window_waited (ws : Windows) (n : Nat) : (ws.waited n).2 = (ws n).2 := by
  cases n <;> rfl

section

variable (n : Nat) (ws : Windows)

theorem fulls_waited : Fulls n ws.waited ↔ Fulls n ws := by
  cases n with
  | zero => exact Iff.rfl
  | succ n =>
    exact Iff.rfl

theorem text_waited : text n ws.waited = text n ws := by
  cases n with
  | zero => rfl
  | succ n =>
    rfl

theorem after_waited : after n ws.waited = after n ws := by
  cases n with
  | zero => rfl
  | succ n => rw [after, after, next_waited]

theorem stops_waited : stops n ws.waited = stops n ws := by
  cases n with
  | zero => rfl
  | succ n =>
    rfl

/-- The source is not pending inside the size of the last window. -/
theorem stops_outside : ∀ q ∈ stops n ws, ¬ Inside (tailSize (ws n).2) (tailRest (ws n).2) q := by
  induction n generalizing ws with
  | zero =>
    intro q hq
    rw [eq_of_mem_replicate hq]
    refine not_inside_of_le ?_
    simp only [tailRest, length_append]
    omega
  | succ n ih =>
    intro q hq
    rcases mem_append.mp hq with hq | hq
    · rw [eq_of_mem_replicate hq, text_front, ← append_assoc]
      exact not_inside_append _
    · exact ih ws.next q hq

end

end Windows

/-! ### What is left at a position -/

namespace Position

/-- What is written behind the token, with `n` whole windows to come. -/
def behind (n : Nat) : Position → List UInt8
  | .size _ ws => crlf ++ ((ws 0).2 ++ (crlf ++ ws.after n))
  | .sizeEnd _ ws => (ws 0).2 ++ (crlf ++ ws.after n)
  | .data _ ws => crlf ++ ws.after n
  | .dataEnd _ ws => ws.text n
  | .finish _ _ => lastChunk
  | .last _ => []
  | .done => []

def left (n : Nat) (p : Position) : List UInt8 := p.token ++ p.behind n

/-- How much is left when the source is pending behind the position. -/
def later (n : Nat) : Position → List Nat
  | .size _ ws => ws.stops n
  | .sizeEnd _ ws => ws.stops n
  | .data _ ws => ws.stops n
  | .dataEnd _ ws => ws.stops n
  | _ => []

def stops (n : Nat) (p : Position) : List Nat := List.replicate p.waits (p.left n).length ++ p.later n

/-- The windows of a position: `n` whole ones, and then `window`. -/
def Fits (n : Nat) (window : List UInt8) : Position → Prop
  | .size i ws => ws.Fulls n ∧ (ws n).2 = window ∧ (n = 0 → i = 0)
  | .sizeEnd _ ws => ws.Fulls n ∧ (ws n).2 = window
  | .data _ ws => ws.Fulls n ∧ (ws n).2 = window
  | .dataEnd _ ws => ws.Fulls n ∧ (ws n).2 = window
  | _ => True

variable {n : Nat} {window : List UInt8}

theorem not_inside_after (ws : Windows) (front : List UInt8)
    (h : n = 0 → (front ++ lastChunk).length ≤ (tailRest (ws n).2).length) :
    ¬ Inside (tailSize (ws n).2) (tailRest (ws n).2) (front ++ ws.after n).length := by
  rcases ws.after_front n with rfl | ⟨before, hafter⟩
  · exact not_inside_of_le (h rfl)
  · rw [hafter, ← append_assoc]
    exact not_inside_append _

variable {p : Position}

/-- A position is not inside the size of the last window. -/
theorem not_inside (h : p.Fits n window) : ¬ Inside (tailSize window) (tailRest window) (p.left n).length := by
  cases p with
  | size i ws =>
    obtain ⟨-, rfl, hindex⟩ := h
    rcases ws.after_front n with rfl | ⟨before, hafter⟩
    · rw [hindex rfl]
      exact not_inside_append []
    · have hleft : (size i ws).left n = ((size i ws).token ++ (crlf ++ ((ws 0).2 ++ (crlf ++ before)))) ++
          (tailSize (ws n).2 ++ tailRest (ws n).2) := by
        simp only [left, behind, hafter, append_assoc]
      rw [hleft]
      exact not_inside_append _
  | sizeEnd i ws | data i ws =>
    obtain ⟨-, rfl⟩ := h
    simp only [left, token, behind, ← append_assoc]
    refine not_inside_after ws _ ?_
    rintro rfl
    simp only [tailRest, length_append, length_drop]
    omega
  | dataEnd i ws =>
    obtain ⟨-, rfl⟩ := h
    rw [left, behind, Windows.text_front, ← append_assoc]
    exact not_inside_append _
  | finish i waits =>
    refine not_inside_of_le ?_
    simp only [left, token, behind, tailRest, length_append, length_drop]
    omega
  | last i =>
    refine not_inside_of_le ?_
    simp only [left, token, behind, tailRest, length_append, length_drop, length_nil]
    omega
  | done => exact not_inside_of_le (Nat.zero_le _)

/-- The position behind a token. -/
theorem next_fits (h : p.Fits n window) (hwaits : p.waits = 0) :
    ∃ m, p.next.Fits m window ∧ p.next.left m = p.behind n ∧ p.next.stops m = p.stops n := by
  cases p with
  | size i ws =>
    obtain ⟨hfulls, hwindow, -⟩ := h
    refine ⟨n, ⟨hfulls, hwindow⟩, rfl, ?_⟩
    rw [stops, stops, hwaits]
    rfl
  | sizeEnd i ws => exact ⟨n, h, rfl, rfl⟩
  | data i ws =>
    obtain ⟨hfulls, hwindow⟩ := h
    cases n with
    | zero =>
      rw [next, if_neg hfulls]
      refine ⟨0, trivial, rfl, ?_⟩
      exact append_nil _
    | succ n =>
      rw [next, if_pos hfulls.1]
      exact ⟨n, ⟨hfulls.2, hwindow⟩, rfl, rfl⟩
  | dataEnd i ws =>
    obtain ⟨hfulls, hwindow⟩ := h
    refine ⟨n, ⟨hfulls, hwindow, fun _ => rfl⟩, (ws.text_eq n).symm, ?_⟩
    have hfirst : (ws 0).1 = 0 := hwaits
    simp only [next, stops, waits, hfirst]
    rfl
  | finish i waits =>
    obtain rfl : waits = 0 := hwaits
    exact ⟨n, trivial, rfl, rfl⟩
  | last | done => exact ⟨n, trivial, rfl, rfl⟩

theorem stops_eq_later (hwaits : p.waits = 0) : p.stops n = p.later n := by
  rw [stops, hwaits, replicate_zero, nil_append]

/-- A token that is resumed. -/
theorem resumed {q : Position} {room : Nat} (hfits : q.Fits n window) (hwaits : p.waits = 0)
    (hsame : q.waits = p.waits) (hlater : q.later n = p.later n) (htoken : q.token = p.token.drop room)
    (hbehind : q.behind n = p.behind n) : q.Fits n window ∧ q.stops n = p.stops n ∧
      q.left n = rewindTo (tailSize window) (tailRest window) (p.token.drop room ++ p.behind n) := by
  refine ⟨hfits, ?_, ?_⟩
  · rw [stops_eq_later hwaits, stops_eq_later (hsame.trans hwaits), hlater]
  · rw [← htoken, ← hbehind]
    exact (rewindTo_eq (not_inside hfits)).symm

/-- The position in a token of which a piece was written. -/
theorem stay_fits {room : Nat} (h : p.Fits n window) (hpos : 0 < room)
    (hlt : room < p.token.length) (hwaits : p.waits = 0) :
    (p.stay room).Fits n window ∧ (p.stay room).stops n = p.stops n ∧
      (p.stay room).left n = rewindTo (tailSize window) (tailRest window) (p.token.drop room ++ p.behind n) := by
  cases p with
  | size i ws =>
    obtain ⟨hfulls, rfl, hindex⟩ := h
    cases n with
    | zero =>
      obtain rfl := hindex rfl
      rw [stay, if_neg hfulls]
      refine ⟨⟨hfulls, rfl, fun _ => rfl⟩, rfl, ?_⟩
      have hinside : Inside (tailSize (ws 0).2) (tailRest (ws 0).2)
          ((size 0 ws).token.drop room ++ (size 0 ws).behind 0).length := by
        have hlength : (size 0 ws).token.length = (tailSize (ws 0).2).length := rfl
        have hrest : (size 0 ws).behind 0 = tailRest (ws 0).2 := rfl
        constructor
        · rw [hrest, length_append, length_drop]
          omega
        · rw [hrest, length_append, length_append, length_drop]
          omega
      exact (if_pos hinside).symm
    | succ n =>
      rw [stay, if_pos hfulls.1]
      refine resumed ⟨hfulls, rfl, fun h => absurd h (Nat.succ_ne_zero n)⟩ hwaits rfl rfl ?_ rfl
      exact (drop_drop ..).symm
  | sizeEnd | data | dataEnd => exact resumed h hwaits rfl rfl (drop_drop ..).symm rfl
  | finish | last => exact resumed trivial hwaits rfl rfl (drop_drop ..).symm rfl
  | done => exact absurd hlt (Nat.not_lt_zero _)

/-- The position after a pending call. -/
theorem waited_fits (h : p.Fits n window) (hwaits : p.waits ≠ 0) :
    p.waited.Fits n window ∧ p.waited.token = p.token ∧ p.waited.behind n = p.behind n ∧
      p.stops n = (p.left n).length :: p.waited.stops n := by
  -- one pending call fewer, and everything else as before
  have hstops : p.waited.waits + 1 = p.waits → p.waited.token = p.token → p.waited.behind n = p.behind n →
      p.waited.later n = p.later n → p.stops n = (p.left n).length :: p.waited.stops n := by
    intro hfewer htoken hbehind hlater
    rw [stops, stops, left, left, htoken, hbehind, hlater, ← hfewer, replicate_succ, cons_append]
  cases p with
  | size i ws =>
    obtain ⟨hfulls, hwindow, hindex⟩ := h
    have hbehind : (size i ws).waited.behind n = (size i ws).behind n := by
      simp only [waited, behind, ws.after_waited, ws.window_waited]
    refine ⟨⟨(ws.fulls_waited n).mpr hfulls, (ws.window_waited n).trans hwindow, hindex⟩, rfl, hbehind, ?_⟩
    exact hstops (Nat.sub_add_cancel (Nat.pos_of_ne_zero hwaits)) rfl hbehind (ws.stops_waited n)
  | dataEnd i ws =>
    obtain ⟨hfulls, hwindow⟩ := h
    have hbehind : (dataEnd i ws).waited.behind n = (dataEnd i ws).behind n := ws.text_waited n
    refine ⟨⟨(ws.fulls_waited n).mpr hfulls, (ws.window_waited n).trans hwindow⟩, rfl, hbehind, ?_⟩
    exact hstops (Nat.sub_add_cancel (Nat.pos_of_ne_zero hwaits)) rfl hbehind (ws.stops_waited n)
  | finish i waits =>
    exact ⟨trivial, rfl, rfl, hstops (Nat.sub_add_cancel (Nat.pos_of_ne_zero hwaits)) rfl rfl rfl⟩
  | sizeEnd | data | last | done => exact absurd rfl hwaits

/-- The source is pending behind the token, if at all. -/
theorem later_le (h : p.waits = 0) : ∀ q ∈ (p.stops n).head?, q ≤ (p.behind n).length := by
  rw [stops_eq_later h]
  have hhead : ∀ {left : Nat} {stops : List Nat}, Bounded left stops → ∀ q ∈ stops.head?, q ≤ left := by
    intro left stops hbounded q hq
    cases stops with
    | nil => cases hq
    | cons r stops =>
      cases hq
      exact hbounded.1
  cases p with
  | size i ws | sizeEnd i ws =>
    refine hhead ((ws.bounded_stops n).mono ?_)
    simp only [behind, length_append]
    omega
  | data i ws => exact hhead (ws.bounded_stops n)
  | dataEnd i ws => exact hhead ((ws.bounded_stops n).mono (ws.length_after_le n))
  | finish | last | done => simp [later]

end Position

/-! ### The encoder as a writer of tokens -/

section Writer

variable {load : Method (ChunkBody α) Infallible (Poll Unit)}
  {window : Method (ChunkBody α) Infallible (List UInt8)} {Ahead Loaded : Windows → α → ChunkData → Prop}
  {b : ChunkBody α} {p : Position}

/-- An empty token is that of an empty window. -/
theorem Holds.token_next (h : Holds Ahead Loaded b p) (hdone : p ≠ .done)
    (hnil : p.token = []) : p.next.token ≠ [] := by
  have hcrlf : crlf ≠ [] := by decide
  have hlast : lastChunk ≠ [] := by decide
  cases h with
  | size _ _ _ => exact hcrlf
  | sizeEnd _ index | dataEnd _ index | last index => exact absurd (drop_eq_nil_iff.mp hnil) (Nat.not_le_of_lt index)
  | @data ws _ _ _ _ i _ _ =>
    rw [Position.next]
    split <;> exact hcrlf
  | finish _ _ _ => exact hlast
  | done => exact absurd rfl hdone

theorem Holds.finish_iff (h : Holds Ahead Loaded b p) : b.dataStatus = .finish ↔ p = .done := by
  cases h <;> simp

variable (Ahead Loaded) in
/-- The encoder has a token to write, with more behind it, and `last` is the last window. -/
def At (last : List UInt8) (b : ChunkBody α) (token behind : List UInt8) (stops : List Nat) : Prop :=
  ∃ p n, Holds Ahead Loaded b p ∧ p.Fits n last ∧ token = p.token ∧ behind = p.behind n ∧ stops = p.stops n

/-- The source is pending. -/
def Waiting (load : Method (ChunkBody α) Infallible (Poll Unit))
    (window : Method (ChunkBody α) Infallible (List UInt8)) (b : ChunkBody α) : Prop :=
  ∃ b', ChunkBody.sourceStep load window 1 b = .ok .pending b'

variable (hsupply : Supply load window Ahead Loaded)

include hsupply

theorem waits_of_waiting (h : Holds Ahead Loaded b p) (hwaiting : Waiting load window b) : p.waits ≠ 0 := by
  intro hwaits
  obtain ⟨b', hpending⟩ := hwaiting
  by_cases hdone : p = .done
  · subst hdone
    rw [h.stop] at hpending
    cases hpending
  · obtain ⟨b'', hstep, -⟩ := h.write hsupply hdone hwaits 1
    rw [hstep] at hpending
    cases hpending

theorem rewindingWriter (last : List UInt8) :
    RewindingWriter (ChunkBody.sourceStep load window) (rewindTo (tailSize last) (tailRest last))
      (At Ahead Loaded last) (Waiting load window) (fun b => b.dataStatus = .finish) where
  stop := by
    rintro room b token behind stops ⟨p, n, hholds, -, rfl, rfl, rfl⟩ hfinished
    obtain rfl := hholds.finish_iff.mp hfinished
    exact ⟨hholds.stop, rfl, rfl⟩
  wait := by
    rintro room b token behind stops ⟨p, n, hholds, hfits, rfl, rfl, rfl⟩ hwaiting
    have hwaits := waits_of_waiting hsupply hholds hwaiting
    obtain ⟨b', hstep, hholds'⟩ := hholds.pending hsupply hwaits (room + 1)
    obtain ⟨hfits', htoken, hbehind, hstops⟩ := Position.waited_fits hfits hwaits
    exact ⟨b', _, hstep, hstops, p.waited, n, hholds', hfits', htoken.symm, hbehind.symm, rfl⟩
  write := by
    rintro room b token behind stops ⟨p, n, hholds, hfits, rfl, rfl, rfl⟩ hfinished hwaiting
    have hdone : p ≠ .done := fun h => hfinished (hholds.finish_iff.mpr h)
    have hwaits : p.waits = 0 := by
      by_contra hne
      obtain ⟨b', hstep, -⟩ := hholds.pending hsupply hne 1
      exact hwaiting ⟨b', hstep⟩
    refine ⟨Position.later_le hwaits, ?_⟩
    obtain ⟨b', hstep, hholds'⟩ := hholds.write hsupply hdone hwaits (room + 1)
    rw [Position.advance] at hholds'
    split_ifs at hholds' ⊢ with hroom
    · obtain ⟨m, hfits', hleft, hstops⟩ := Position.next_fits hfits hwaits
      refine ⟨b', _, _, hstep, ⟨p.next, m, hholds', hfits', rfl, rfl, hstops.symm⟩, hleft, ?_⟩
      intro hnil
      exact .inl (hholds.token_next hdone hnil)
    · obtain ⟨hfits', hstops, hleft⟩ :=
        Position.stay_fits hfits (Nat.succ_pos room) (Nat.lt_of_not_le hroom) hwaits
      refine ⟨b', _, _, hstep, ⟨p.stay (room + 1), n, hholds', hfits', rfl, rfl, hstops.symm⟩, hleft, ?_⟩
      intro hnil
      rw [hnil] at hroom
      exact absurd (Nat.zero_le _) hroom
  fixed := by
    rintro b token behind stops ⟨p, n, -, hfits, rfl, rfl, rfl⟩
    exact rewindTo_eq (Position.not_inside hfits)

end Writer

end YlongHttp.Body
