/-
WINDOW_UPDATE frames.

The header of a WINDOW_UPDATE frame may be cut anywhere. The count of the written bytes
starts again after it, while the increment is read as if it had not, so every buffer gets
the increment from its first octet on, until four octets are counted (`windowOutput`).
-/

import YlongHttp.H2.Encoder.Control

namespace YlongHttp.H2.FrameEncoder

open Rust Codec Method Outcome List

/-- The lengths that are left of buffers after their first `n` bytes. -/
def roomAfter : Nat → List Nat → List Nat
  | _, [] => []
  | n, len :: lens => if len < n then roomAfter (n - len) lens else (len - n) :: lens

/-- The octets that a buffer gets when `done` octets of the increment are counted. -/
def windowPiece (done room : Nat) : Nat := if done = 4 then 0 else min (4 - (done - 9)) room

/-- What comes out behind the header. -/
def windowOutput (octets : List UInt8) : Nat → List Nat → List UInt8
  | _, [] => []
  | done, len :: lens =>
    (octets.drop (done - 9)).take (windowPiece done len) ++ windowOutput octets (done + windowPiece done len) lens

theorem windowOutput_four (octets : List UInt8) (lens : List Nat) : windowOutput octets 4 lens = [] := by
  induction lens with
  | nil => rfl
  | cons len lens ih => exact ih

theorem length_windowPiece {increment : UInt32} {done room : Nat} (h : done ≤ 13) :
    (((octets32 increment).drop (done - 9)).take (windowPiece done room)).length = windowPiece done room := by
  apply length_take_drop
  change done - 9 + windowPiece done room ≤ 4
  unfold windowPiece
  split <;> omega

section WindowUpdate

variable {id : StreamId} {flags : FrameFlags} {increment : UInt32}

/-- The header is out and `done` octets of the increment are counted. -/
structure WindowAt (id : StreamId) (flags : FrameFlags) (increment : UInt32) (done : Nat)
    (e : FrameEncoder) : Prop where
  frame : e.currentFrame = some ⟨id, flags, .windowUpdate increment⟩
  encoded : e.encodedBytes = done
  le : done ≤ 13
  state : e.state = if done = 4 then .dataComplete else .encodingWindowUpdatePayload

variable {e : FrameEncoder} {buf : List UInt8} {bufs : List (List UInt8)} {n : Nat}

theorem encodeWindowUpdatePayload_eq
    (hframe : e.currentFrame = some ⟨id, flags, .windowUpdate increment⟩) (hle : e.encodedBytes ≤ 13)
    (hn : min (4 - (e.encodedBytes - 9)) buf.length = n) : encodeWindowUpdatePayload buf e =
      .ok (((octets32 increment).drop (e.encodedBytes - 9)).take n ++ buf.drop n, n) (e.afterPayload 4 n) := by
  have hfill : fillItems (fun i => windowUpdateByte increment (e.encodedBytes - 9 + i)) 0 n buf e =
      .ok (((octets32 increment).drop (e.encodedBytes - 9)).take n ++ buf.drop n) e := by
    refine fillItems_drop ?_ (by omega) fun i x hi hx => ?_
    · change e.encodedBytes - 9 + n ≤ 4
      omega
    · simp only [windowUpdateByte, bind_apply, bind_ok, pure_apply,
        checkedSub_eq_ok (show 8 * (e.encodedBytes - 9 + i) ≤ 24 by omega)]
      exact congrArg (ok · e) (octet32_eq hx)
  rw [encodeWindowUpdatePayload, tryRetrieveCurrentFrame_bind hframe]
  simp only [bind_apply, get_apply, bind_ok]
  rw [hn, hfill, afterPayload]
  simp only [advance, modify_apply, bind_ok]
  split_ifs <;> rfl

/-- A call, or the rest of one, behind the header. -/
theorem encodeLoop_windowUpdate {done : Nat} (h : WindowAt id flags increment done e)
    (fuel : Nat) (written buf : List UInt8) : ∃ e', encodeLoop (fuel + 2) written buf e =
        .ok (written ++ (((octets32 increment).drop (done - 9)).take (windowPiece done buf.length) ++
          buf.drop (windowPiece done buf.length)), written.length + windowPiece done buf.length) e' ∧
      WindowAt id flags increment (done + windowPiece done buf.length) e' := by
  obtain ⟨hframe, rfl, hle, hstate⟩ := h
  by_cases hfour : e.encodedBytes = 4
  · have hpiece : windowPiece e.encodedBytes buf.length = 0 := by
      rw [windowPiece, if_pos hfour]
    rw [hpiece]
    refine ⟨e, ?_, ⟨hframe, rfl, hle, hstate⟩⟩
    rw [if_pos hfour] at hstate
    exact encodeLoop_stop (.inr (by rw [hstate]; rfl))
  · by_cases hbuf : buf = []
    · subst hbuf
      have hpiece : windowPiece e.encodedBytes ([] : List UInt8).length = 0 := by
        rw [windowPiece, if_neg hfour]
        exact Nat.min_zero _
      rw [hpiece]
      exact ⟨e, encodeLoop_stop (.inl rfl), ⟨hframe, rfl, hle, hstate⟩⟩
    · have hpiece : windowPiece e.encodedBytes buf.length = min (4 - (e.encodedBytes - 9)) buf.length := by
        rw [windowPiece, if_neg hfour]
      rw [if_neg hfour] at hstate
      have hopen : e.state.isComplete = false := by
        rw [hstate]
        rfl
      have hwriter : encodeState e.state buf e = encodeWindowUpdatePayload buf e := by
        rw [hstate]
        rfl
      rw [hpiece]
      generalize hn : min (4 - (e.encodedBytes - 9)) buf.length = n
      have hround := encodeWindowUpdatePayload_eq hframe hle hn
      have hlen : (((octets32 increment).drop (e.encodedBytes - 9)).take n).length = n :=
        length_take_drop (show e.encodedBytes - 9 + n ≤ 4 by omega)
      rw [afterPayload] at hround
      by_cases hlast : e.encodedBytes + n = 4
      · rw [if_pos hlast] at hround
        refine ⟨{ e with encodedBytes := e.encodedBytes + n, state := .dataComplete }, ?_,
          ⟨hframe, rfl, by omega, by rw [if_pos hlast]⟩⟩
        have hmoved : FrameEncoderState.dataComplete ≠ e.state := by
          rw [hstate]
          decide
        rw [encodeLoop_moved hbuf hopen hlen (hwriter.trans hround) hmoved, encodeLoop_stop (.inr rfl), append_assoc, length_append, hlen]
      · rw [if_neg hlast] at hround
        refine ⟨{ e with encodedBytes := e.encodedBytes + n }, ?_,
          ⟨hframe, rfl, by omega, by rw [if_neg hlast]; exact hstate⟩⟩
        exact encodeLoop_same hbuf hopen (hwriter.trans hround) rfl

theorem encodeAll_windowUpdate (bufs : List (List UInt8)) :
    ∀ {done : Nat} {e : FrameEncoder}, WindowAt id flags increment done e → ∃ e', encodeAll bufs e =
        .ok (windowOutput (octets32 increment) done (bufs.map List.length)) e' := by
  induction bufs with
  | nil =>
    intro done e _
    exact ⟨e, rfl⟩
  | cons buf bufs ih =>
    intro done e h
    obtain ⟨e₁, hcall, hnext⟩ := encodeLoop_windowUpdate h buf.length [] buf
    obtain ⟨e₂, hrest⟩ := ih hnext
    refine ⟨e₂, ?_⟩
    rw [encodeAll_cons hcall, hrest, bind_ok, map_cons, windowOutput, length_nil,
      zero_add, nil_append, take_left' (length_windowPiece h.le)]

/-- The octets of the header. -/
theorem iterateWindowUpdateHeader_eq (hn : e.encodedBytes + n ≤ 9) (hbuf : n ≤ buf.length) :
    iterateWindowUpdateHeader ⟨id, flags, .windowUpdate increment⟩ buf n e =
      .ok (((controlFrame ⟨id, flags, .windowUpdate increment⟩).1.octets.drop e.encodedBytes).take n ++
        buf.drop n) e := by
  have hlength : octets24 4 = [0, 0, 4] := by decide
  have hoctets : (controlFrame ⟨id, flags, .windowUpdate increment⟩).1.octets =
      [0, 0, 4] ++ [FrameType.windowUpdate.code, flags.bits] ++ octets32 id := by
    rw [← hlength]
    rfl
  rw [hoctets]
  refine fillItems_drop hn hbuf fun i x _ hx => ?_
  have hi : e.encodedBytes + i < 9 := (List.getElem?_eq_some_iff.mp hx).1
  generalize e.encodedBytes + i = j at hx hi
  rcases lt_nine_cases hi with rfl | rfl | rfl | rfl | rfl | rfl | rfl | rfl | rfl
  all_goals
    cases hx
    rfl

section

variable (hframe : e.currentFrame = some ⟨id, flags, .windowUpdate increment⟩)

include hframe

theorem encodeWindowUpdateFrame_eq (hk : e.encodedBytes < 9)
    (hn : min (9 - e.encodedBytes) buf.length = n) : encodeState .encodingWindowUpdateFrame buf e =
      .ok (((controlFrame ⟨id, flags, .windowUpdate increment⟩).1.octets.drop e.encodedBytes).take n ++ buf.drop n, n)
        (e.afterHeader .encodingWindowUpdatePayload true n) := by
  change encodeWindowUpdateFrame buf e = _
  rw [encodeWindowUpdateFrame, tryRetrieveCurrentFrame_bind hframe]
  exact encodeHeader_eq hk hn (iterateWindowUpdateHeader_eq (by omega) (by omega))

/-- A call that gets behind the header. -/
theorem encode_windowUpdateHeader
    (hstate : e.state = .encodingWindowUpdateFrame) (hk : e.encodedBytes < 9) (hbuf : buf ≠ [])
    (hroom : 9 - e.encodedBytes ≤ buf.length) : ∃ e', encode buf e =
        .ok ((controlFrame ⟨id, flags, .windowUpdate increment⟩).1.octets.drop e.encodedBytes ++
          (((octets32 increment).drop (0 - 9)).take (windowPiece 0 (buf.length - (9 - e.encodedBytes))) ++
            (buf.drop (9 - e.encodedBytes)).drop (windowPiece 0 (buf.length - (9 - e.encodedBytes)))),
          9 - e.encodedBytes + windowPiece 0 (buf.length - (9 - e.encodedBytes))) e' ∧
      WindowAt id flags increment (0 + windowPiece 0 (buf.length - (9 - e.encodedBytes))) e' := by
  have hround := encodeWindowUpdateFrame_eq hframe hk (min_eq_left hroom)
  have hlength : (controlFrame ⟨id, flags, .windowUpdate increment⟩).1.octets.length = 9 :=
    FrameHeader.length_octets _
  generalize (controlFrame ⟨id, flags, .windowUpdate increment⟩).1.octets = octets at hround hlength ⊢
  have hnine : e.encodedBytes + (9 - e.encodedBytes) = 9 := by omega
  rw [afterHeader, if_pos hnine, ← hstate] at hround
  have hall : (octets.drop e.encodedBytes).take (9 - e.encodedBytes) = octets.drop e.encodedBytes := by
    rw [take_of_length_le]
    rw [length_drop, hlength]
  have htake : (octets.drop e.encodedBytes).length = 9 - e.encodedBytes := by
    rw [length_drop, hlength]
  rw [hall] at hround
  have hopen : e.state.isComplete = false := by
    rw [hstate]
    rfl
  have hmoved : FrameEncoderState.encodingWindowUpdatePayload ≠ e.state := by
    rw [hstate]
    decide
  have hwindow : WindowAt id flags increment 0
      { e with encodedBytes := 0, state := .encodingWindowUpdatePayload } :=
    ⟨hframe, rfl, by omega, rfl⟩
  obtain ⟨fuel, hfuel⟩ : ∃ fuel, buf.length + 1 = fuel + 2 :=
    ⟨buf.length - 1, by have := length_pos_iff.mpr hbuf; omega⟩
  obtain ⟨e', hcall, hnext⟩ := encodeLoop_windowUpdate hwindow fuel (octets.drop e.encodedBytes)
    (buf.drop (9 - e.encodedBytes))
  rw [htake, length_drop] at hcall
  rw [length_drop] at hnext
  refine ⟨e', ?_, hnext⟩
  rw [encode, encodeLoop_moved hbuf hopen htake hround hmoved, hfuel]
  exact hcall

end

/-- The header comes out right in all buffers, and the increment in the room behind it. -/
theorem encodeAll_windowUpdateHeader :
    ∀ {e : FrameEncoder}, e.currentFrame = some ⟨id, flags, .windowUpdate increment⟩ →
      e.state = .encodingWindowUpdateFrame → e.encodedBytes < 9 → (∀ buf ∈ bufs, buf ≠ []) →
      9 ≤ e.encodedBytes + (bufs.map List.length).sum → ∃ e', encodeAll bufs e =
        .ok ((controlFrame ⟨id, flags, .windowUpdate increment⟩).1.octets.drop e.encodedBytes ++
          windowOutput (octets32 increment) 0 (roomAfter (9 - e.encodedBytes) (bufs.map List.length))) e' := by
  induction bufs with
  | nil =>
    intro e _ _ hk _ hroom
    exact absurd hroom (not_le.mpr hk)
  | cons buf bufs ih =>
    intro e hframe hstate hk hbufs hroom
    have hbuf : buf ≠ [] := hbufs buf mem_cons_self
    have hopen : e.state.isComplete = false := by
      rw [hstate]
      rfl
    rw [map_cons, roomAfter]
    generalize hoctets : (controlFrame ⟨id, flags, .windowUpdate increment⟩).1.octets = octets
      at ih
    by_cases hshort : buf.length < 9 - e.encodedBytes
    · have hround := encodeWindowUpdateFrame_eq hframe hk (min_eq_right (le_of_lt hshort))
      rw [state_afterHeader (by omega), ← hstate, hoctets] at hround
      obtain ⟨e', hrest⟩ := ih (e := { e with encodedBytes := e.encodedBytes + buf.length }) hframe hstate
        (show e.encodedBytes + buf.length < 9 by omega)
        (fun b hb => hbufs b (mem_cons_of_mem buf hb)) (by rwa [add_assoc])
      have htake : ((octets.drop e.encodedBytes).take buf.length).length = buf.length :=
        length_take_drop (by rw [← hoctets, FrameHeader.length_octets]; omega)
      refine ⟨e', ?_⟩
      rw [encodeAll_cons (encode_of_same hbuf hopen hround rfl), hrest, bind_ok, if_pos hshort,
        take_left' htake, ← append_assoc, ← drop_drop, take_append_drop,
        Nat.sub_add_eq]
    · -- The rest of the buffer is for the increment.
      obtain ⟨e₁, hcall, hnext⟩ :=
        encode_windowUpdateHeader hframe hstate hk hbuf (Nat.le_of_not_lt hshort)
      obtain ⟨e₂, hrest⟩ := encodeAll_windowUpdate bufs hnext
      refine ⟨e₂, ?_⟩
      rw [hoctets] at hcall
      rw [encodeAll_cons hcall, hrest, bind_ok, if_neg hshort, windowOutput, ← append_assoc,
        take_left' ?_, append_assoc]
      rw [length_append, length_windowPiece (Nat.zero_le 13), length_drop, ← hoctets, FrameHeader.length_octets]

theorem produce_windowUpdate (hbufs : ∀ buf ∈ bufs, buf ≠ [])
    (hroom : 9 ≤ (bufs.map List.length).sum) (e : FrameEncoder) :
    ∃ e', produce ⟨id, flags, .windowUpdate increment⟩ bufs e =
      .ok ((controlFrame ⟨id, flags, .windowUpdate increment⟩).1.octets ++
        windowOutput (octets32 increment) 0 (roomAfter 9 (bufs.map List.length))) e' := by
  obtain ⟨e₀, hset, hframe, hencoded, hstate⟩ : ∃ e₀,
      setFrame ⟨id, flags, .windowUpdate increment⟩ e = .ok () e₀ ∧
        e₀.currentFrame = some ⟨id, flags, .windowUpdate increment⟩ ∧ e₀.encodedBytes = 0 ∧
        e₀.state = .encodingWindowUpdateFrame :=
    setFrame_control ⟨id, flags, .windowUpdate increment⟩ trivial e
  obtain ⟨e', hall⟩ := encodeAll_windowUpdateHeader hframe hstate (by omega) hbufs (by omega)
  rw [hencoded] at hall
  refine ⟨e', ?_⟩
  simp only [produce, bind_apply, hset, bind_ok, hall]
  rfl

end WindowUpdate

end YlongHttp.H2.FrameEncoder
