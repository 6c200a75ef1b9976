/-
What the encoder of chunked bodies does with its windows.

A `Supply` says that a source gives the windows of a sequence, each after a number of pending
calls. The encoder is then at one of the `Position`s: in each of them it has a token to write,
and it goes on to the next position when the token is written. `Position.stay` says where it is
when only a piece of the token was written: behind the piece, except that the size of the last
window is written again from its start.

A round of the encoder writes as much of the token as there is room for (`Holds.write`), or is
pending (`Holds.pending`).
-/

import YlongHttp.Body.ChunkEncoder
import YlongHttp.Rust.Rewind

namespace YlongHttp.Body

open Rust Method Outcome List

variable {α : Type}

/-! ### Sources -/

/-- The windows to come, each with the number of pending calls before it. -/
abbrev Windows := Nat → Nat × List UInt8

namespace Windows

def next (ws : Windows) : Windows := fun k => ws (k + 1)

/-- After one pending call. -/
def waited (ws : Windows) : Windows := fun k => if k = 0 then ((ws 0).1 - 1, (ws 0).2) else ws k

/-- The window that comes first is a whole one. -/
def Full (ws : Windows) : Prop := (ws 0).2.length = chunkSize

instance (ws : Windows) : Decidable ws.Full := inferInstanceAs (Decidable (_ = _))

end Windows

/-- A round of `data` or `poll_data`, with the ways in which the window is loaded and taken. -/
def ChunkBody.sourceStep (load : Method (ChunkBody α) Infallible (Poll Unit))
    (window : Method (ChunkBody α) Infallible (List UInt8)) (room : Nat) :
    Method (ChunkBody α) Infallible (Poll (Option (List UInt8))) := do
  match (← get).dataStatus with
  | .incomplete =>
    let loaded ← if (← get).encodeStatus.readFlag = false then load else pure (.ready ())
    match loaded with
    | .pending => return .pending
    | .ready () =>
      let src ← window
      return .ready (some (← chunkEncode src room))
  | .complete => return .ready (some (← trailerEncode room))
  | .finish => return .ready none

/-- The body with another source and window. -/
def ChunkBody.loaded (source : α) (c : ChunkData) (b : ChunkBody α) : ChunkBody α :=
  { b with
    source := source
    chunkData := c
    encodeStatus := { b.encodeStatus with readFlag := true, chunkIdx := 0 } }

/-- A source that has windows `Ahead`, and then the first of them `Loaded`. The number of whole
windows so far, which the encoder sets, is part of the `ChunkData`. -/
structure Supply (load : Method (ChunkBody α) Infallible (Poll Unit))
    (window : Method (ChunkBody α) Infallible (List UInt8)) (Ahead Loaded : Windows → α → ChunkData → Prop) :
    Prop where
  pending : ∀ {ws : Windows} {b : ChunkBody α}, Ahead ws b.source b.chunkData → (ws 0).1 ≠ 0 →
    ∃ source, load b = .ok .pending { b with source := source } ∧ Ahead ws.waited source b.chunkData
  load : ∀ {ws : Windows} {b : ChunkBody α}, Ahead ws b.source b.chunkData → (ws 0).1 = 0 →
    ∃ source c, load b = .ok (.ready ()) (b.loaded source c) ∧ Loaded ws source c
  window : ∀ {ws : Windows} {b : ChunkBody α}, Loaded ws b.source b.chunkData → window b = .ok (ws 0).2 b
  length : ∀ {ws : Windows} {source : α} {c : ChunkData}, Loaded ws source c →
    c.chunkLast = (ws 0).2.length ∧ (ws 0).1 = 0
  full : ∀ {ws : Windows} {source : α} {c : ChunkData}, Loaded ws source c → ws.Full →
    Ahead ws.next source { c with chunkCount := 1 }
  tail : ∀ {ws : Windows} {source : α} {c : ChunkData}, Loaded ws source c → ¬ ws.Full →
    ∃ ws' : Windows, (ws' 0).1 = (ws 1).1 ∧ Ahead ws' source { c with chunkCount := 0 }

/-! ### Positions -/

/-- The last chunk and the blank line. -/
def lastChunk : List UInt8 := [0x30, 0x0d, 0x0a, 0x0d, 0x0a]

inductive Position where
  | size (i : Nat) (ws : Windows)
  | sizeEnd (i : Nat) (ws : Windows)
  | data (i : Nat) (ws : Windows)
  | dataEnd (i : Nat) (ws : Windows)
  | finish (i : Nat) (waits : Nat)
  | last (i : Nat)
  | done

namespace Position

def token : Position → List UInt8
  | .size i ws => (lowerHex (ws 0).2.length).drop i
  | .sizeEnd i _ => crlf.drop i
  | .data i ws => (ws 0).2.drop i
  | .dataEnd i _ => crlf.drop i
  | .finish i _ => crlf.drop i
  | .last i => lastChunk.drop i
  | .done => []

/-- The number of pending calls at a position. -/
def waits : Position → Nat
  | .size _ ws => (ws 0).1
  | .dataEnd _ ws => (ws 0).1
  | .finish _ waits => waits
  | _ => 0

def waited : Position → Position
  | .size i ws => .size i ws.waited
  | .dataEnd i ws => .dataEnd i ws.waited
  | .finish i waits => .finish i (waits - 1)
  | p => p

def next : Position → Position
  | .size _ ws => .sizeEnd 0 ws
  | .sizeEnd _ ws => .data 0 ws
  | .data _ ws => if ws.Full then .dataEnd 0 ws.next else .finish 0 (ws 1).1
  | .dataEnd _ ws => .size 0 ws
  | .finish _ _ => .last 0
  | .last _ => .done
  | .done => .done

def stay (n : Nat) : Position → Position
  | .size i ws => if ws.Full then .size (i + n) ws else .size i ws
  | .sizeEnd i ws => .sizeEnd (i + n) ws
  | .data i ws => .data (i + n) ws
  | .dataEnd i ws => .dataEnd (i + n) ws
  | .finish i waits => .finish (i + n) waits
  | .last i => .last (i + n)
  | .done => .done

def advance (n : Nat) (p : Position) : Position := if p.token.length ≤ n then p.next else p.stay n

end Position

/-! ### The parts of a chunk -/

/-- What a writer of the token `t` returns. -/
def tokenStatus (t : List UInt8) (room : Nat) : TokenStatus :=
  if t.length ≤ room then .complete t else .incomplete (t.take room)

theorem writeData_eq {src : List UInt8} {i : Nat} (h : i ≤ src.length) (room : Nat) : writeData src room i =
      .ok (tokenStatus (src.drop i) room) (if (src.drop i).length ≤ room then src.length else i + room) := by
  simp only [writeData, tokenStatus, bind_apply, get_apply, bind_ok, checkedSub_eq_ok h,
    set_apply, Method.ite_apply, pure_apply, length_drop, ge_iff_le]
  split
  next hfits =>
    rw [take_of_length_le (by rwa [length_drop]), length_drop, Nat.add_sub_cancel' h]
  next hlong => rw [length_take_of_le (by rw [length_drop]; omega)]

theorem index_lt {src : List UInt8} {i room : Nat} (h : ¬ (src.drop i).length ≤ room) : i + room < src.length := by
  rw [length_drop] at h
  omega

namespace EncodeStatus

variable {write : Method EncodeStatus Infallible TokenStatus} {e done rest : EncodeStatus} {t : List UInt8}
  {room : Nat}

variable (next : EncodeStatus → EncodeStatus)

theorem encodePart_bind (h : write e = .ok (tokenStatus t room) (if t.length ≤ room then done else rest)) :
    (encodePart write next >>= fun written => pure (written, (none : Option StatusVar))) e =
      if t.length ≤ room then .ok (t, none) (next done) else .ok (t.take room, none) rest := by
  simp only [encodePart, bind_apply, h, bind_ok, tokenStatus]
  split <;> rfl

theorem encodeLast_eq (var : StatusVar)
    (h : write e = .ok (tokenStatus t room) (if t.length ≤ room then done else rest)) : encodeLast write next var e =
      if t.length ≤ room then .ok (t, some var) (next done) else .ok (t.take room, none) rest := by
  simp only [encodeLast, bind_apply, h, bind_ok, tokenStatus]
  split <;> rfl

variable {src : List UInt8} {last idx i : Nat} {flag : Bool} {hex hexLast : EncodeHex}

/-- A token whose index is a component of the encoder. -/
theorem onField_writeData (index : EncodeStatus → Nat) (store : Nat → EncodeStatus → EncodeStatus)
    (h : index e ≤ src.length) : onField index store (writeData src room) e =
      .ok (tokenStatus (src.drop (index e)) room)
        (if (src.drop (index e)).length ≤ room then store src.length e else store (index e + room) e) := by
  simp only [onField, writeData_eq h, mapState_ok]
  split <;> rfl

theorem onField_hex (proj : EncodeStatus → EncodeHex) (store : EncodeHex → EncodeStatus → EncodeStatus)
    (h : (proj e).srcIdx ≤ (proj e).inner.length) : onField proj store (EncodeHex.encode room) e =
      .ok (tokenStatus ((proj e).inner.drop (proj e).srcIdx) room)
        (if ((proj e).inner.drop (proj e).srcIdx).length ≤ room then store ⟨(proj e).inner, (proj e).inner.length⟩ e
        else store ⟨(proj e).inner, (proj e).srcIdx + room⟩ e) := by
  simp only [onField, EncodeHex.encode, writeData_eq h, mapState_ok]
  split <;> rfl

/-- A call writes the token `t` and goes on to `done`, or stays with `rest`. -/
def Encodes (src : List UInt8) (room : Nat) (t : List UInt8) (var : Option StatusVar)
    (e done rest : EncodeStatus) : Prop :=
  encode src room e = if t.length ≤ room then .ok (t, var) done else .ok (t.take room, none) rest

theorem encodes_fullSize (hlast : last = chunkSize) (h : i ≤ (lowerHex chunkSize).length) :
    Encodes src room ((lowerHex chunkSize).drop i) none
      ⟨last, idx, flag, .metaSize, 0, 0, 0, ⟨lowerHex chunkSize, i⟩, hexLast⟩
      ⟨last, idx, flag, .metaCrlf, 0, 0, 0, ⟨lowerHex chunkSize, 0⟩, hexLast⟩
      ⟨last, idx, flag, .metaSize, 0, 0, 0, ⟨lowerHex chunkSize, i + room⟩, hexLast⟩ := by
  unfold Encodes
  simp only [encode, metaSizeEncode, bind_apply, get_apply, bind_ok, Method.ite_apply, if_pos hlast]
  exact encodePart_bind _ (onField_hex EncodeStatus.hex _ (by exact h))

theorem encodes_tailSize (h : last ≠ chunkSize) :
    Encodes src room (lowerHex last) none ⟨last, idx, flag, .metaSize, 0, 0, 0, hex, hexLast⟩
      ⟨last, idx, flag, .metaCrlf, 0, 0, 0, hex, ⟨lowerHex last, 0⟩⟩
      ⟨last, idx, flag, .metaSize, 0, 0, 0, hex, ⟨lowerHex last, 0 + room⟩⟩ := by
  unfold Encodes
  simp only [encode, metaSizeEncode, bind_apply, get_apply, bind_ok, Method.ite_apply, if_neg h, modify_apply]
  exact encodePart_bind _ (onField_hex EncodeStatus.hexLast _ (by exact Nat.zero_le _))

theorem encodes_fullData (hlast : last = chunkSize) (h : i ≤ src.length) :
    Encodes src room (src.drop i) (some ⟨1, .incomplete⟩) ⟨last, i, flag, .data, 0, 0, 0, hex, hexLast⟩
      ⟨last, src.length, false, .dataCrlf, 0, 0, 0, hex, hexLast⟩
      ⟨last, i + room, flag, .data, 0, 0, 0, hex, hexLast⟩ := by
  subst hlast
  exact encodeLast_eq _ _ (onField_writeData EncodeStatus.chunkIdx _ h)

theorem encodes_tailData (hlast : last ≠ chunkSize) (h : i ≤ src.length) :
    Encodes src room (src.drop i) (some ⟨0, .incomplete⟩) ⟨last, i, flag, .data, 0, 0, 0, hex, hexLast⟩
      ⟨last, src.length, false, .finish, 0, 0, 0, hex, hexLast⟩
      ⟨last, i + room, flag, .data, 0, 0, 0, hex, hexLast⟩ := by
  unfold Encodes
  simp only [encode, get_bind, if_pos hlast]
  exact encodeLast_eq _ _ (onField_writeData EncodeStatus.chunkIdx _ h)

end EncodeStatus

/-! ### Where the encoder is -/

section Holds

variable (Ahead Loaded : Windows → α → ChunkData → Prop)

/-- The windows are ahead, or the first one has been loaded and nothing of it has been written. -/
inductive Ready (ws : Windows) : Bool → Nat → α → ChunkData → Prop where
  | ahead {idx : Nat} {source : α} {c : ChunkData} (h : Ahead ws source c) : Ready ws false idx source c
  | loaded {source : α} {c : ChunkData} (h : Loaded ws source c) : Ready ws true 0 source c

inductive Holds : ChunkBody α → Position → Prop where
  | size {ws flag idx source c last hexLast i} (ready : Ready Ahead Loaded ws flag idx source c)
      (full : ws.Full → i < 3) (tail : ¬ ws.Full → i = 0) :
      Holds ⟨source, [], c, .incomplete,
        ⟨last, idx, flag, .metaSize, 0, 0, 0, ⟨lowerHex chunkSize, i⟩, hexLast⟩, 0⟩ (.size i ws)
  | sizeEnd {ws source c last hexLast i} (loaded : Loaded ws source c) (index : i < 2) :
      Holds ⟨source, [], c, .incomplete,
        ⟨last, 0, true, .metaCrlf, i, 0, 0, ⟨lowerHex chunkSize, 0⟩, hexLast⟩, 0⟩ (.sizeEnd i ws)
  | data {ws source c last hexLast i} (loaded : Loaded ws source c)
      (index : i < (ws 0).2.length ∨ i = 0) :
      Holds ⟨source, [], c, .incomplete,
        ⟨last, i, true, .data, 0, 0, 0, ⟨lowerHex chunkSize, 0⟩, hexLast⟩, 0⟩ (.data i ws)
  | dataEnd {ws flag idx source c last hexLast i} (ready : Ready Ahead Loaded ws flag idx source c)
      (index : i < 2) :
      Holds ⟨source, [], c, .incomplete,
        ⟨last, idx, flag, .dataCrlf, 0, i, 0, ⟨lowerHex chunkSize, 0⟩, hexLast⟩, 0⟩ (.dataEnd i ws)
  | finish {ws : Windows} {flag idx source c last hexLast i waits}
      (ready : Ready Ahead Loaded ws flag idx source c) (pending : (ws 0).1 = waits) (index : i < 2) :
      Holds ⟨source, [], c, .incomplete,
        ⟨last, idx, flag, .finish, 0, 0, i, ⟨lowerHex chunkSize, 0⟩, hexLast⟩, 0⟩ (.finish i waits)
  | last {source c e i} (index : i < 5) : Holds ⟨source, [], c, .complete, e, i⟩ (.last i)
  | done {source c e i} : Holds ⟨source, [], c, .finish, e, i⟩ .done

end Holds

/-! ### Rounds -/

theorem length_lowerHex_chunkSize : (lowerHex chunkSize).length = 3 := by decide +kernel

/-- The body after a part, with the status that the part ends in. -/
def ChunkBody.settled (e : EncodeStatus) : Option StatusVar → ChunkBody α → ChunkBody α
  | none, b => { b with encodeStatus := e }
  | some var, b =>
    { b with
      encodeStatus := e
      chunkData := { b.chunkData with chunkCount := var.cnt }
      dataStatus := var.dataStatus }

section Step

variable {load : Method (ChunkBody α) Infallible (Poll Unit)}
  {window : Method (ChunkBody α) Infallible (List UInt8)} {Ahead Loaded : Windows → α → ChunkData → Prop}

/-- The window is encoded from `b` on: as much of the token as there is room for. -/
def Encodes (Ahead Loaded : Windows → α → ChunkData → Prop) (src : List UInt8) (room : Nat) (p : Position)
    (b : ChunkBody α) : Prop :=
  ∃ b', ChunkBody.chunkEncode src room b = .ok (p.token.take room) b' ∧ Holds Ahead Loaded b' (p.advance room)

/-- A part of a chunk is a token of the position: the body goes on to the next position, or stays. -/
theorem Encodes.of_part {src : List UInt8} {room : Nat} {p : Position} {b : ChunkBody α}
    {var : Option StatusVar} {done rest : EncodeStatus} (h : EncodeStatus.Encodes src room p.token var
      { b.encodeStatus with chunkLast := b.chunkData.chunkLast } done rest)
    (hnext : p.token.length ≤ room → Holds Ahead Loaded (b.settled done var) p.next)
    (hstay : ¬ p.token.length ≤ room → Holds Ahead Loaded (b.settled rest none) (p.stay room)) :
    Encodes Ahead Loaded src room p b := by
  unfold Encodes Position.advance
  unfold EncodeStatus.Encodes at h
  simp only [ChunkBody.chunkEncode, bind_apply, modify_apply, bind_ok, onField, h]
  split_ifs with hfits
  · rw [take_of_length_le hfits]
    cases var <;> exact ⟨_, rfl, hnext hfits⟩
  · exact ⟨_, rfl, hstay hfits⟩

variable (hsupply : Supply load window Ahead Loaded)

include hsupply

variable {b : ChunkBody α} {ws : Windows} {i room : Nat} {p : Position}

section

variable (hstatus : b.dataStatus = .incomplete)

include hstatus

/-- A round with a loaded window. -/
theorem sourceStep_loaded (hflag : b.encodeStatus.readFlag = true)
    (h : Loaded ws b.source b.chunkData) (hnext : Encodes Ahead Loaded (ws 0).2 room p b) :
    ∃ b', ChunkBody.sourceStep load window room b = .ok (.ready (some (p.token.take room))) b' ∧
      Holds Ahead Loaded b' (p.advance room) := by
  obtain ⟨b', hencode, hholds⟩ := hnext
  refine ⟨b', ?_, hholds⟩
  simp only [ChunkBody.sourceStep, bind_apply, get_apply, bind_ok, hstatus, hflag,
    Bool.true_eq_false, if_false, pure_apply, hsupply.window h, hencode]

/-- A round that does not have to wait encodes the first window. -/
theorem sourceStep_ready
    (h : Ready Ahead Loaded ws b.encodeStatus.readFlag b.encodeStatus.chunkIdx b.source b.chunkData)
    (hwaits : (ws 0).1 = 0)
    (hnext : ∀ source c, Loaded ws source c → Encodes Ahead Loaded (ws 0).2 room p (b.loaded source c)) :
    ∃ b', ChunkBody.sourceStep load window room b = .ok (.ready (some (p.token.take room))) b' ∧
      Holds Ahead Loaded b' (p.advance room) := by
  generalize hflag : b.encodeStatus.readFlag = flag at h
  generalize hidx : b.encodeStatus.chunkIdx = idx at h
  generalize hsource : b.source = source at h
  generalize hc : b.chunkData = c at h
  cases h with
  | ahead h =>
    subst hsource hc
    obtain ⟨source, c, hload, hloaded⟩ := hsupply.load h hwaits
    obtain ⟨b', hencode, hholds⟩ := hnext source c hloaded
    refine ⟨b', ?_, hholds⟩
    have hwindow : window (b.loaded source c) = .ok (ws 0).2 (b.loaded source c) := hsupply.window hloaded
    simp only [ChunkBody.sourceStep, bind_apply, get_apply, bind_ok, hstatus, hflag,
      if_true, hload, hwindow, hencode, pure_apply]
  | loaded h =>
    have hencode := hnext source c h
    have hb : b.loaded source c = b := by
      obtain ⟨source', trailerValue, c', status, e, trailer⟩ := b
      obtain ⟨last, idx, flag, chunkStatus, metaCrlf, dataCrlf, finishCrlf, hex, hexLast⟩ := e
      subst hflag hidx hsource hc
      rfl
    rw [hb] at hencode
    subst hsource hc
    exact sourceStep_loaded hsupply hstatus hflag h hencode

theorem sourceStep_pending {Q : ChunkBody α → Prop}
    (h : Ready Ahead Loaded ws b.encodeStatus.readFlag b.encodeStatus.chunkIdx b.source b.chunkData)
    (hwaits : (ws 0).1 ≠ 0) (hnext : ∀ source,
      Ready Ahead Loaded ws.waited b.encodeStatus.readFlag b.encodeStatus.chunkIdx source b.chunkData →
        Q { b with source := source }) : ∃ b', ChunkBody.sourceStep load window room b = .ok .pending b' ∧ Q b' := by
  generalize hflag : b.encodeStatus.readFlag = flag at h hnext
  generalize hidx : b.encodeStatus.chunkIdx = idx at h hnext
  generalize hsource : b.source = source at h
  generalize hc : b.chunkData = c at h
  cases h with
  | ahead h =>
    subst hsource hc
    obtain ⟨source, hload, hahead⟩ := hsupply.pending h hwaits
    refine ⟨_, ?_, hnext source (.ahead hahead)⟩
    simp only [ChunkBody.sourceStep, bind_apply, get_apply, bind_ok, hstatus, hflag, if_true, hload, pure_apply]
  | loaded h => exact absurd (hsupply.length h).2 hwaits

end

/-- At a position with pending calls, the source is pending once more. -/
theorem Holds.pending (h : Holds Ahead Loaded b p) (hwaits : p.waits ≠ 0) (room : Nat) :
    ∃ b', ChunkBody.sourceStep load window room b = .ok .pending b' ∧ Holds Ahead Loaded b' p.waited := by
  cases h with
  | size ready full tail =>
    refine sourceStep_pending hsupply rfl ready hwaits ?_
    intro source hready
    exact .size hready full tail
  | dataEnd ready index =>
    refine sourceStep_pending hsupply rfl ready hwaits ?_
    intro source hready
    exact .dataEnd hready index
  | finish ready pending index =>
    subst pending
    refine sourceStep_pending hsupply rfl ready hwaits ?_
    intro source hready
    exact .finish hready rfl index
  | sizeEnd | data | last | done => exact absurd rfl hwaits

variable {source : α} {c : ChunkData} {last : Nat} {hexLast : EncodeHex}

theorem Encodes.size {idx : Nat} {flag : Bool}
    (full : ws.Full → i < 3) (tail : ¬ ws.Full → i = 0) (hloaded : Loaded ws source c) :
    Encodes Ahead Loaded (ws 0).2 room (.size i ws) (ChunkBody.loaded source c ⟨source, [], c, .incomplete,
      ⟨last, idx, flag, .metaSize, 0, 0, 0, ⟨lowerHex chunkSize, i⟩, hexLast⟩, 0⟩) := by
  obtain ⟨hlast, -⟩ := hsupply.length hloaded
  by_cases hfull : ws.Full
  · have htoken : (Position.size i ws).token = (lowerHex chunkSize).drop i := by
      rw [Position.token, hfull]
    have hindex := full hfull
    refine .of_part (htoken ▸ EncodeStatus.encodes_fullSize (hlast.trans hfull) (le_of_lt hindex)) ?_ ?_
    · exact fun _ => .sizeEnd hloaded (by decide)
    · intro hlong
      rw [htoken] at hlong
      rw [Position.stay, if_pos hfull]
      exact .size (.loaded hloaded) (fun _ => length_lowerHex_chunkSize ▸ index_lt hlong)
        (fun h => absurd hfull h)
  · obtain rfl := tail hfull
    have htail : c.chunkLast ≠ chunkSize := fun h => hfull (hlast.symm.trans h)
    have htoken : (Position.size 0 ws).token = lowerHex c.chunkLast := by
      rw [Position.token, hlast, drop_zero]
    refine .of_part (htoken ▸ EncodeStatus.encodes_tailSize htail) ?_ ?_
    · exact fun _ => .sizeEnd hloaded (by decide)
    · intro _
      rw [Position.stay, if_neg hfull]
      exact .size (.loaded hloaded) (fun h => absurd h hfull) (fun _ => rfl)

theorem Encodes.data (hle : i ≤ (ws 0).2.length)
    (hloaded : Loaded ws source c) : Encodes Ahead Loaded (ws 0).2 room (.data i ws) ⟨source, [], c, .incomplete,
      ⟨last, i, true, .data, 0, 0, 0, ⟨lowerHex chunkSize, 0⟩, hexLast⟩, 0⟩ := by
  obtain ⟨hlast, -⟩ := hsupply.length hloaded
  by_cases hfull : ws.Full
  · refine .of_part (EncodeStatus.encodes_fullData (hlast.trans hfull) hle) ?_ ?_
    · intro _
      rw [Position.next, if_pos hfull]
      exact .dataEnd (.ahead (hsupply.full hloaded hfull)) (by decide)
    · exact fun hlong => .data hloaded (.inl (index_lt hlong))
  · have htail : c.chunkLast ≠ chunkSize := fun h => hfull (hlast.symm.trans h)
    obtain ⟨ws', hpending, hahead⟩ := hsupply.tail hloaded hfull
    refine .of_part (EncodeStatus.encodes_tailData htail hle) ?_ ?_
    · intro _
      rw [Position.next, if_neg hfull]
      exact .finish (.ahead hahead) hpending (by decide)
    · exact fun hlong => .data hloaded (.inl (index_lt hlong))

omit hsupply in
theorem Holds.write_last (h : Holds Ahead Loaded b (.last i)) :
    ∃ b', ChunkBody.sourceStep load window room b = .ok (.ready (some ((Position.last i).token.take room))) b' ∧
      Holds Ahead Loaded b' ((Position.last i).advance room) := by
  cases h with
  | last index =>
    have hsrc : ([0x30, 0x0d, 0x0a] ++ crlf : List UInt8) = lastChunk := rfl
    have hle : i ≤ lastChunk.length := le_of_lt index
    rw [Position.advance, Position.token]
    simp only [ChunkBody.sourceStep, ChunkBody.trailerEncode, bind_apply, get_apply,
      bind_ok, onField, if_true, hsrc, writeData_eq hle, mapState_ok, tokenStatus]
    split_ifs with hfits
    · rw [take_of_length_le hfits]
      exact ⟨_, rfl, .done⟩
    · exact ⟨_, rfl, .last (index_lt hfits)⟩

/-- A round that does not have to wait writes as much of the token as there is room for. -/
theorem Holds.write (h : Holds Ahead Loaded b p) (hdone : p ≠ .done) (hwaits : p.waits = 0) (room : Nat) :
    ∃ b', ChunkBody.sourceStep load window room b = .ok (.ready (some (p.token.take room))) b' ∧
      Holds Ahead Loaded b' (p.advance room) := by
  cases h with
  | size ready full tail =>
    refine sourceStep_ready hsupply rfl ready hwaits fun source c hloaded => ?_
    exact .size hsupply full tail hloaded
  | sizeEnd loaded index =>
    refine sourceStep_loaded hsupply rfl rfl loaded ?_
    refine .of_part (EncodeStatus.encodePart_bind _ (EncodeStatus.onField_writeData _ _ (le_of_lt index))) ?_ ?_
    · exact fun _ => .data loaded (.inr rfl)
    · exact fun hlong => .sizeEnd loaded (index_lt hlong)
  | data loaded index =>
    refine sourceStep_loaded hsupply rfl rfl loaded (.data hsupply ?_ loaded)
    rcases index with hlt | rfl
    · exact le_of_lt hlt
    · exact Nat.zero_le _
  | dataEnd ready index =>
    refine sourceStep_ready hsupply rfl ready hwaits fun source c hloaded => ?_
    refine .of_part (EncodeStatus.encodePart_bind _ (EncodeStatus.onField_writeData _ _ (le_of_lt index))) ?_ ?_
    · exact fun _ => .size (.loaded hloaded) (fun _ => by decide) (fun _ => rfl)
    · exact fun hlong => .dataEnd (.loaded hloaded) (index_lt hlong)
  | finish ready pending index =>
    refine sourceStep_ready hsupply rfl ready (pending.trans hwaits) fun source c hloaded => ?_
    refine .of_part (EncodeStatus.encodeLast_eq _ _ (EncodeStatus.onField_writeData _ _ (le_of_lt index))) ?_ ?_
    · exact fun _ => .last (Nat.succ_pos 4)
    · exact fun hlong => .finish (.loaded hloaded) pending (index_lt hlong)
  | last index => exact Holds.write_last (.last index)
  | done => exact absurd rfl hdone

omit hsupply in
theorem Holds.stop (h : Holds Ahead Loaded b .done) :
    ChunkBody.sourceStep load window room b = .ok (.ready none) b := by
  cases h
  rfl

end Step

end YlongHttp.Body
