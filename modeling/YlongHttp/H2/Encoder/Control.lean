/-
Control frames: SETTINGS, PING, GOAWAY, WINDOW_UPDATE, RST_STREAM and PRIORITY.

`controlFrame` are the header and the payload that a control frame should have on the
wire. The writers of a frame are described by its octets and by the places at which they
may be resumed (`Writers`); if they are resumed only there, any buffers get the octets of
the frame (`Writers.produce_eq`).
-/

import YlongHttp.H2.Encoder.Drive
import YlongHttp.H2.Wire

namespace YlongHttp.H2

open Rust Codec Method Outcome List

/-! ### Control frames on the wire -/

def Payload.IsControl : Payload → Prop
  | .headers _ | .data _ | .pushPromise _ _ => False
  | _ => True

def settingOctets (s : Setting) : List UInt8 :=
  octets16 (FrameEncoder.settingPair s).1 ++ octets32 (FrameEncoder.settingPair s).2

/-- The payload of a control frame. -/
def controlPayload : Payload → List UInt8
  | .settings settings => settings.flatMap settingOctets
  | .ping ping => ping.data
  | .goaway goaway => octets32 goaway.lastStreamId ++ octets32 goaway.errorCode ++ goaway.debugData
  | .windowUpdate increment => octets32 increment
  | .rstStream errorCode => octets32 errorCode
  | .priority priority =>
    [(priority.exclusive.toUInt8 <<< 7) ||| (octet32 priority.streamDependency 0 &&& 0x7F),
      octet32 priority.streamDependency 1, octet32 priority.streamDependency 2,
      octet32 priority.streamDependency 3, priority.weight]
  | _ => []

/-- SETTINGS and PING frames go out on stream 0. -/
def controlStream (frame : Frame) : StreamId :=
  match frame.payload with
  | .settings _ | .ping _ => 0
  | _ => frame.id

def controlFrame (frame : Frame) : FrameHeader × List UInt8 :=
  (⟨controlStream frame, frame.flags.bits, frame.payload.frameType.code,
    (controlPayload frame.payload).length⟩, controlPayload frame.payload)

def controlOctets (frame : Frame) : List UInt8 :=
  (controlFrame frame).1.octets ++ (controlFrame frame).2

theorem length_controlOctets (frame : Frame) :
    (controlOctets frame).length = 9 + (controlPayload frame.payload).length := by
  rw [controlOctets, length_append]
  rfl

theorem nine_le_controlOctets (frame : Frame) : 9 ≤ (controlOctets frame).length := by
  rw [length_controlOctets]
  exact Nat.le_add_right _ _

namespace FrameEncoder

/-! ### Header writers -/

variable {i n : Nat} {x : UInt8} {h : FrameHeader} {buf payload : List UInt8} {e : FrameEncoder}
  {next : FrameEncoderState} {reset : Bool} {id : StreamId} {flags : FrameFlags}

theorem lt_nine_cases (h : i < 9) : i = 0 ∨ i = 1 ∨ i = 2 ∨ i = 3 ∨ i = 4 ∨ i = 5 ∨ i = 6 ∨ i = 7 ∨ i = 8 := by
  omega

theorem headerByte_eq (h : FrameHeader) (hx : h.octets[i]? = some x) (e : FrameEncoder) :
    headerByte h.payloadLength h.frameType h.flags h.streamId i e = .ok x e := by
  have hi : i < 9 := (List.getElem?_eq_some_iff.mp hx).1
  rcases lt_nine_cases hi with rfl | rfl | rfl | rfl | rfl | rfl | rfl | rfl | rfl
  all_goals
    cases hx
    rfl

theorem iterateHeader_eq (hn : e.encodedBytes + n ≤ 9) (hbuf : n ≤ buf.length) :
    iterateHeader h.payloadLength h.frameType h.flags h.streamId buf n e =
      .ok ((h.octets.drop e.encodedBytes).take n ++ buf.drop n) e := by
  exact fillItems_drop (by rwa [FrameHeader.length_octets]) hbuf fun i x _ hx => headerByte_eq h hx e

/-- The encoder after `n` bytes of a header. -/
def afterHeader (e : FrameEncoder) (next : FrameEncoderState) (reset : Bool) (n : Nat) : FrameEncoder :=
  if e.encodedBytes + n = 9 then
    { e with encodedBytes := if reset then 0 else 9, state := next }
  else { e with encodedBytes := e.encodedBytes + n }

theorem state_afterHeader (h : e.encodedBytes + n < 9) :
    e.afterHeader next reset n = { e with encodedBytes := e.encodedBytes + n } := by
  rw [afterHeader, if_neg (Nat.ne_of_lt h)]

variable {k : Nat} {iterate : Nat → Method FrameEncoder FrameEncoderErr (List UInt8)} {α : Type}
  {settings : List Setting} {frame : Frame}

theorem headerBytesToWrite_eq (h : k < 9) (room : Nat) : headerBytesToWrite k room = min (9 - k) room := by
  have hopen : ¬ frameHeaderSize ≤ k := not_le.mpr h
  rw [headerBytesToWrite, if_neg hopen]
  rfl

theorem encodeHeader_eq {room : Nat} {out : List UInt8}
    (hk : e.encodedBytes < 9) (hn : min (9 - e.encodedBytes) room = n) (h : iterate n e = .ok out e) :
    encodeHeader iterate next reset room e = .ok (out, n) (e.afterHeader next reset n) := by
  unfold encodeHeader afterHeader
  simp only [bind_apply, get_apply, bind_ok]
  rw [headerBytesToWrite_eq hk, hn, h]
  simp only [advance, modify_apply, bind_ok]
  by_cases hnine : e.encodedBytes + n = 9
  · rw [if_pos (show _ = frameHeaderSize from hnine), if_pos hnine, ← hnine]
    rfl
  · rw [if_neg (show ¬ _ = frameHeaderSize from hnine), if_neg hnine]
    rfl

/-- The encoder after `n` bytes of a payload, if the frame ends after `total` bytes. -/
def afterPayload (e : FrameEncoder) (total n : Nat) : FrameEncoder :=
  if e.encodedBytes + n = total then
    { e with encodedBytes := e.encodedBytes + n, state := .dataComplete }
  else { e with encodedBytes := e.encodedBytes + n }

/-! ### Writers -/

/-- The encoder has written `k` octets of the frame. -/
structure Position (frame : Frame) (header payload : FrameEncoderState) (octets : List UInt8) (k : Nat)
    (e : FrameEncoder) : Prop where
  frame : e.currentFrame = some frame
  encoded : e.encodedBytes = k
  le : k ≤ octets.length
  phase : k < 9 ∧ e.state = header ∨ (k = 9 ∨ 9 < k ∧ k < octets.length) ∧ e.state = payload ∨
    k = octets.length ∧ e.state = .dataComplete

/-- The writers of a frame write its octets from place `k` on, into a buffer with `room`, if
`resumable k room`. -/
structure Writers (frame : Frame) (header payload : FrameEncoderState) (octets : List UInt8)
    (resumable : Nat → Nat → Prop) : Prop where
  header_ne : header ≠ payload
  header_open : header.isComplete = false
  payload_open : payload.isComplete = false
  nine_le : 9 ≤ octets.length
  setFrame_eq : ∀ e : FrameEncoder, ∃ e', setFrame frame e = .ok () e' ∧ e'.currentFrame = some frame ∧
    e'.encodedBytes = 0 ∧ e'.state = header
  header_eq : ∀ {e : FrameEncoder} {buf : List UInt8}, e.currentFrame = some frame →
    e.encodedBytes < 9 → resumable e.encodedBytes buf.length →
      encodeState header buf e =
        .ok ((octets.drop e.encodedBytes).take (min (9 - e.encodedBytes) buf.length) ++
          buf.drop (min (9 - e.encodedBytes) buf.length), min (9 - e.encodedBytes) buf.length)
          (e.afterHeader payload false (min (9 - e.encodedBytes) buf.length))
  payload_eq : ∀ {e : FrameEncoder} {buf : List UInt8}, e.currentFrame = some frame →
    (e.encodedBytes = 9 ∨ 9 < e.encodedBytes ∧ e.encodedBytes < octets.length) →
      encodeState payload buf e =
        .ok ((octets.drop e.encodedBytes).take (min (octets.length - e.encodedBytes) buf.length) ++
          buf.drop (min (octets.length - e.encodedBytes) buf.length),
          min (octets.length - e.encodedBytes) buf.length)
          (e.afterPayload octets.length (min (octets.length - e.encodedBytes) buf.length))
  closed : ∀ {k room : Nat}, resumable k room → k + min (9 - k) room < 9 →
    ∀ room', resumable (k + min (9 - k) room) room'

namespace Writers

variable {frame : Frame} {header payload : FrameEncoderState} {octets : List UInt8}
  {resumable : Nat → Nat → Prop}

/-- The octets that are left of the frame, at a place where the writers may be resumed. -/
def Left (frame : Frame) (header payload : FrameEncoderState) (octets : List UInt8)
    (resumable : Nat → Nat → Prop) (pending : List UInt8) (e : FrameEncoder) : Prop :=
  ∃ k, Position frame header payload octets k e ∧ (k < 9 → ∀ room, resumable k room) ∧ pending = octets.drop k

variable {buf : List UInt8}

section

variable (hw : Writers frame header payload octets resumable)

include hw

theorem header_round {e : FrameEncoder} (hframe : e.currentFrame = some frame) (hstate : e.state = header)
    (hk : e.encodedBytes < 9) (hbuf : buf ≠ []) (hres : resumable e.encodedBytes buf.length) :
    ∃ n e', Round (Left frame header payload octets resumable) (fun _ => False) 0
      (octets.drop e.encodedBytes) buf e n e' := by
  have hpos : 0 < buf.length := length_pos_iff.mpr hbuf
  have hnine := hw.nine_le
  have hclosed := hw.closed hres
  have heq := hw.header_eq hframe hk hres
  generalize hn : min (9 - e.encodedBytes) buf.length = n at heq hclosed
  refine ⟨n, e.afterHeader payload false n, ⟨by rw [hstate]; exact heq, Nat.zero_le n, by omega, ?_, ?_,
    ?_, fun _ => .inl (by omega)⟩⟩
  · rw [length_drop]
    omega
  · refine ⟨e.encodedBytes + n, ?_, ?_, drop_drop⟩
    · unfold afterHeader
      split
      next hlast => exact ⟨hframe, by simp [hlast], by omega, .inr (.inl ⟨.inl hlast, rfl⟩)⟩
      next => exact ⟨hframe, rfl, by omega, .inl ⟨by omega, hstate⟩⟩
    · exact hclosed
  · intro hsame
    unfold afterHeader at hsame
    split at hsame
    next => exact absurd (hsame.trans hstate).symm hw.header_ne
    next => exact .inl (by omega)

theorem tracks : Tracks (Left frame header payload octets resumable) fun _ => False where
  complete := by
    rintro pending e ⟨k, hposition, -, rfl⟩ hcomplete
    rcases hposition.phase with ⟨-, hstate⟩ | ⟨-, hstate⟩ | ⟨hk, -⟩
    · rw [hstate, hw.header_open] at hcomplete
      cases hcomplete
    · rw [hstate, hw.payload_open] at hcomplete
      cases hcomplete
    · rw [hk, drop_length]
  round := by
    rintro pending buf e ⟨k, hposition, hres, rfl⟩ hopen hbuf
    obtain rfl := hposition.encoded
    rcases hposition.phase with ⟨hk, hstate⟩ | ⟨hk, hstate⟩ | ⟨-, hstate⟩
    · exact hw.header_round hposition.frame hstate hk hbuf (hres hk _)
    · have hle := hposition.le
      have heq : encodeState payload buf e = _ := hw.payload_eq hposition.frame hk
      generalize hn : min (octets.length - e.encodedBytes) buf.length = n at heq
      refine ⟨n, e.afterPayload octets.length n, ⟨by rw [hstate]; exact heq, Nat.zero_le n, by omega, ?_, ?_, ?_, ?_⟩⟩
      · rw [length_drop]
        omega
      · refine ⟨e.encodedBytes + n, ?_, fun h => absurd h (by omega), drop_drop⟩
        unfold afterPayload
        split
        next hlast => exact ⟨hposition.frame, rfl, by omega, .inr (.inr ⟨hlast, rfl⟩)⟩
        next => exact ⟨hposition.frame, rfl, by omega, .inr (.inl ⟨by omega, hstate⟩)⟩
      · rw [length_drop]
        intro _
        omega
      · unfold afterPayload
        split
        next => exact fun _ => .inr rfl
        next => exact fun hne => absurd rfl hne
    · rw [hstate] at hopen
      cases hopen

/-- One buffer with room for the frame. -/
theorem encode_eq (hlarge : ∀ room, 9 ≤ room → resumable 0 room) (hroom : octets.length ≤ buf.length)
    (e : FrameEncoder) : ∃ e' e'', setFrame frame e = .ok () e' ∧
      encode buf e' = .ok (octets ++ buf.drop octets.length, octets.length) e'' := by
  have hnine := hw.nine_le
  have hbuf : buf ≠ [] := length_pos_iff.mp (by omega)
  obtain ⟨e₀, hset, hframe, hencoded, hstate⟩ := hw.setFrame_eq e
  have hround := hw.header_round hframe hstate (by omega) hbuf (by rw [hencoded]; exact hlarge _ (by omega))
  rw [hencoded, drop_zero] at hround
  obtain ⟨n, e', heq, hwrote⟩ :=
    encode_of_round hw.tracks hbuf (by rw [hstate]; exact hw.header_open) hround
  have hn : n = octets.length := by
    have hle := hwrote.le_pending
    rcases hwrote.stopped with hfull | hdone | hfalse
    · omega
    · exact hdone
    · exact hfalse.elim
  rw [hn, take_length] at heq
  exact ⟨e₀, e', hset, heq⟩

/-- The octets of the frame come out if the header is only resumed where it may be. -/
theorem produce_eq
    {bufs : List (List UInt8)} (hbuf : buf ≠ []) (hbufs : ∀ buf ∈ bufs, buf ≠ []) (hres : resumable 0 buf.length)
    (hroom : octets.length ≤ buf.length + (bufs.map List.length).sum) (e : FrameEncoder) :
    ∃ e', produce frame (buf :: bufs) e = .ok octets e' := by
  obtain ⟨e₀, hset, hframe, hencoded, hstate⟩ := hw.setFrame_eq e
  have hround := hw.header_round hframe hstate (by omega) hbuf (by rwa [hencoded])
  rw [hencoded, drop_zero] at hround
  obtain ⟨e', heq, -⟩ := encodeAll_eq_of_round hw.tracks hbuf (by rw [hstate]; exact hw.header_open)
    hround hbufs hroom
  refine ⟨e', ?_⟩
  simp only [produce, bind_apply, hset, bind_ok, heq]

end

end Writers

/-! ### The writers of the control frames -/

/-- A part of the header in the octets of a frame. -/
theorem take_drop_octets (hn : k + n ≤ 9) : ((h.octets ++ payload).drop k).take n = (h.octets.drop k).take n := by
  rw [drop_append_of_le_length (by rw [FrameHeader.length_octets]; omega),
    take_append_of_le_length (by rw [length_drop, FrameHeader.length_octets]; omega)]

theorem encodeHeader_iterateHeader (hk : e.encodedBytes < 9) (hn : min (9 - e.encodedBytes) buf.length = n) :
    encodeHeader (iterateHeader h.payloadLength h.frameType h.flags h.streamId buf) next reset buf.length e =
      .ok (((h.octets ++ payload).drop e.encodedBytes).take n ++ buf.drop n, n) (e.afterHeader next reset n) := by
  rw [take_drop_octets (by omega)]
  exact encodeHeader_eq hk hn (iterateHeader_eq (by omega) (by omega))

/-- A payload writer that reads the octets of the frame. -/
theorem encodePayload_eq {item : Nat → Method FrameEncoder FrameEncoderErr UInt8}
    (hk : e.encodedBytes = 9 ∨ 9 < e.encodedBytes ∧ e.encodedBytes < (h.octets ++ payload).length)
    (hn : min ((h.octets ++ payload).length - e.encodedBytes) buf.length = n)
    (hiterate : ∀ n, iterate n e = fillItems item 0 n buf e)
    (hitem : ∀ i x, payload[e.encodedBytes - 9 + i]? = some x → item i e = .ok x e) :
    encodePayload payload.length iterate buf.length e = .ok (((h.octets ++ payload).drop e.encodedBytes).take n ++
      buf.drop n, n) (e.afterPayload (h.octets ++ payload).length n) := by
  have hlength : (h.octets ++ payload).length = 9 + payload.length := by
    rw [length_append, FrameHeader.length_octets]
  have hmin : min (payload.length - (e.encodedBytes - 9)) buf.length = n := by omega
  have hfill : fillItems item 0 n buf e = .ok (((h.octets ++ payload).drop e.encodedBytes).take n ++ buf.drop n) e := by
    refine fillItems_drop (by omega) (by omega) fun i x _ hx => hitem i x ?_
    rw [getElem?_append_right (by rw [FrameHeader.length_octets]; omega)] at hx
    rwa [← Nat.sub_add_comm (by omega)]
  unfold encodePayload afterPayload
  simp only [bind_apply, get_apply, bind_ok]
  rw [hmin, hiterate, hfill, hlength]
  simp only [advance, modify_apply, bind_ok]
  split_ifs <;> rfl

theorem setFrame_control (frame : Frame) (h : frame.payload.IsControl) (e : FrameEncoder) :
    ∃ e', setFrame frame e = .ok () e' ∧ e'.currentFrame = some frame ∧ e'.encodedBytes = 0 ∧
      e'.state = match frame.payload with
        | .settings _ => .encodingSettingsFrame
        | .ping _ => .encodingPingFrame
        | .goaway _ => .encodingGoawayFrame
        | .windowUpdate _ => .encodingWindowUpdateFrame
        | .rstStream _ => .encodingRstStreamFrame
        | .priority _ => .encodingPriorityFrame
        | _ => .idle := by
  obtain ⟨id, flags, payload⟩ := frame
  cases payload with
  | headers | data | pushPromise => exact h.elim
  | _ => exact ⟨_, rfl, rfl, rfl, rfl⟩

/-- The index of an item in a concatenation of lists of one length. -/
theorem getElem?_flatMap {β : Type} {f : α → List β} (hf : ∀ x, (f x).length = n) (hn : 0 < n) (xs : List α) :
    ∀ i : Nat, (xs.flatMap f)[i]? = xs[i / n]?.bind fun x => (f x)[i % n]? := by
  induction xs with
  | nil =>
    intro i
    rfl
  | cons x xs ih =>
    intro i
    rw [flatMap_cons]
    by_cases hi : i < n
    · rw [getElem?_append_left (by rwa [hf]), Nat.div_eq_of_lt hi, Nat.mod_eq_of_lt hi]
      rfl
    · have hle : n ≤ i := Nat.le_of_not_lt hi
      rw [getElem?_append_right (by rwa [hf]), hf, ih, Nat.mod_eq_sub_mod hle,
        Nat.div_eq_sub_div hn hle, getElem?_cons_succ]

theorem goawayByte_eq {goaway : Goaway} (h : (controlPayload (.goaway goaway))[i]? = some x) (e : FrameEncoder) :
    goawayByte goaway i e = .ok x e := by
  unfold goawayByte
  by_cases hi : i < 8
  · have hcases : i = 0 ∨ i = 1 ∨ i = 2 ∨ i = 3 ∨ i = 4 ∨ i = 5 ∨ i = 6 ∨ i = 7 := by omega
    rcases hcases with rfl | rfl | rfl | rfl | rfl | rfl | rfl | rfl
    all_goals
      cases h
      rfl
  · have hdebug : goaway.debugData[i - 8]? = some x := by
      rw [← h, controlPayload, getElem?_append_right (Nat.le_of_not_lt hi)]
      rfl
    rw [if_neg (by omega), if_neg (by omega), hdebug]
    rfl

theorem settingsByte_eq (h : (controlPayload (.settings settings))[i]? = some x) (e : FrameEncoder) :
    settingsByte settings i e = .ok x e := by
  rw [controlPayload, getElem?_flatMap (n := 6) (fun _ => rfl) (by decide)] at h
  obtain ⟨setting, hsetting, hx⟩ := Option.bind_eq_some_iff.mp h
  have hcases : i % 6 = 0 ∨ i % 6 = 1 ∨ i % 6 = 2 ∨ i % 6 = 3 ∨ i % 6 = 4 ∨ i % 6 = 5 := by omega
  simp only [settingsByte, hsetting]
  rcases hcases with hi | hi | hi | hi | hi | hi
  all_goals
    rw [hi] at hx ⊢
    cases hx
    rfl

theorem priorityByte_eq {priority : Priority}
    (h : (controlPayload (.priority priority))[i]? = some x) (e : FrameEncoder) :
    priorityByte priority i e = .ok x e := by
  have hi : i < 5 := (List.getElem?_eq_some_iff.mp h).1
  have hcases : i = 0 ∨ i = 1 ∨ i = 2 ∨ i = 3 ∨ i = 4 := by omega
  rcases hcases with rfl | rfl | rfl | rfl | rfl
  all_goals
    cases h
    rfl

/-- The header of a frame on stream 0, from its start or from behind the flags. -/
theorem iterateConnectionHeader_eq (hstream : h.streamId = 0) (hn : e.encodedBytes + n ≤ 9) (hbuf : n ≤ buf.length)
    (hres : e.encodedBytes = 0 ∨ 5 ≤ e.encodedBytes) :
    iterateConnectionHeader h.payloadLength h.frameType h.flags buf n e =
      .ok ((h.octets.drop e.encodedBytes).take n ++ buf.drop n) e := by
  have hzero : ∀ i x, 5 ≤ i → h.octets[i]? = some x → x = 0 := by
    intro i x hi hx
    have hlt : i < 9 := (List.getElem?_eq_some_iff.mp hx).1
    have hcases : i = 5 ∨ i = 6 ∨ i = 7 ∨ i = 8 := by omega
    rcases hcases with rfl | rfl | rfl | rfl
    all_goals
      cases hx
      rw [hstream]
      rfl
  refine fillRange_drop (by rwa [FrameHeader.length_octets]) hbuf fun i x b hi hx hb => ?_
  have hset := setIndex_eq_ok (σ := FrameEncoder) (ε := FrameEncoderErr) hb x e
  unfold setConnectionHeaderByte
  by_cases hlate : 5 ≤ e.encodedBytes + i
  · obtain rfl := hzero _ x hlate hx
    simp only [if_neg (show ¬ e.encodedBytes + i ≤ 2 by omega),
      if_neg (show ¬ e.encodedBytes + i = 3 by omega), if_neg (show ¬ e.encodedBytes + i = 4 by omega),
      if_pos (show e.encodedBytes + i ≤ 8 by omega), hset]
  · have hfirst : e.encodedBytes = 0 := by omega
    rw [hfirst] at hx hlate ⊢
    have hcases : i = 0 ∨ i = 1 ∨ i = 2 ∨ i = 3 ∨ i = 4 := by omega
    rcases hcases with rfl | rfl | rfl | rfl | rfl
    all_goals
      cases hx
      exact hset

theorem tryRetrieveCurrentFrame_bind
    (h : e.currentFrame = some frame) (next : Frame → Method FrameEncoder FrameEncoderErr α) :
    (tryRetrieveCurrentFrame >>= next) e = next frame e := by
  simp only [bind_apply, tryRetrieveCurrentFrame, h, bind_ok]

theorem length_goaway (goaway : Goaway) : goaway.encodedLen = (controlPayload (.goaway goaway)).length := by
  simp only [Goaway.encodedLen, controlPayload, octets32, length_append, length_cons, length_nil]

theorem length_settings (settings : List Setting) :
    settings.length * 6 = (controlPayload (.settings settings)).length := by
  induction settings with
  | nil => rfl
  | cons setting settings ih =>
    rw [length_cons, Nat.succ_mul, ih, controlPayload, controlPayload, flatMap_cons, length_append, add_comm]
    rfl

/-- GOAWAY frames may be resumed everywhere. -/
theorem writers_goaway (id : StreamId) (flags : FrameFlags) (goaway : Goaway) :
    Writers ⟨id, flags, .goaway goaway⟩ .encodingGoawayFrame .encodingGoawayPayload
      (controlOctets ⟨id, flags, .goaway goaway⟩) (fun _ _ => True) where
  header_ne := by decide
  header_open := rfl
  payload_open := rfl
  nine_le := nine_le_controlOctets _
  setFrame_eq := setFrame_control _ trivial
  header_eq := by
    intro e buf hframe hk _
    have hiterate : iterateGoawayHeader ⟨id, flags, .goaway goaway⟩ goaway buf =
        iterateHeader (controlPayload (.goaway goaway)).length FrameType.goaway.code flags.bits id buf := by
      rw [← length_goaway]
      rfl
    change encodeGoawayFrame buf e = _
    rw [encodeGoawayFrame, tryRetrieveCurrentFrame_bind hframe]
    simp only [hiterate]
    exact encodeHeader_iterateHeader (h := (controlFrame ⟨id, flags, .goaway goaway⟩).1) hk rfl
  payload_eq := by
    intro e buf hframe hk
    have hnine : 9 ≤ e.encodedBytes := by omega
    change encodeGoawayPayload buf e = _
    rw [encodeGoawayPayload, tryRetrieveCurrentFrame_bind hframe]
    simp only [length_goaway]
    refine encodePayload_eq hk rfl (fun _ => rfl) fun i x hx => ?_
    simp only [bind_apply, checkedSub_eq_ok hnine, bind_ok]
    exact goawayByte_eq hx e
  closed := fun _ _ _ => trivial

/-- A header on stream 0 may be resumed behind the flags. -/
theorem encodeHeader_iterateConnectionHeader (hstream : h.streamId = 0) (hk : e.encodedBytes < 9)
    (hn : min (9 - e.encodedBytes) buf.length = n) (hres : e.encodedBytes = 0 ∨ 5 ≤ e.encodedBytes) :
    encodeHeader (iterateConnectionHeader h.payloadLength h.frameType h.flags buf) next reset buf.length e =
      .ok (((h.octets ++ payload).drop e.encodedBytes).take n ++ buf.drop n, n) (e.afterHeader next reset n) := by
  rw [take_drop_octets (by omega)]
  exact encodeHeader_eq hk hn (iterateConnectionHeader_eq hstream (by omega) (by omega) hres)

theorem encodeState_settingsFrame
    (hframe : e.currentFrame = some ⟨id, flags, .settings settings⟩) (buf : List UInt8) :
    encodeState .encodingSettingsFrame buf e =
      encodeHeader (iterateConnectionHeader (controlPayload (.settings settings)).length
        FrameType.settings.code flags.bits buf) .encodingSettingsPayload false buf.length e := by
  change encodeSettingsFrame buf e = _
  rw [encodeSettingsFrame, tryRetrieveCurrentFrame_bind hframe, ← length_settings]
  rfl

theorem encodeState_pingFrame {ping : Ping}
    (hframe : e.currentFrame = some ⟨id, flags, .ping ping⟩) (buf : List UInt8) :
    encodeState .encodingPingFrame buf e = encodeHeader (iterateConnectionHeader (controlPayload (.ping ping)).length
        FrameType.ping.code flags.bits buf) .encodingPingPayload false buf.length e := by
  change encodePingFrame buf e = _
  rw [encodePingFrame, tryRetrieveCurrentFrame_bind hframe, controlPayload, ping.length_data]
  rfl

section

variable (id : StreamId) (flags : FrameFlags)

theorem writers_settings (settings : List Setting) :
    Writers ⟨id, flags, .settings settings⟩ .encodingSettingsFrame .encodingSettingsPayload
      (controlOctets ⟨id, flags, .settings settings⟩) (fun k room => k = 0 ∧ 5 ≤ room ∨ 5 ≤ k) where
  header_ne := by decide
  header_open := rfl
  payload_open := rfl
  nine_le := nine_le_controlOctets _
  setFrame_eq := setFrame_control _ trivial
  header_eq := by
    intro e buf hframe hk hres
    rw [encodeState_settingsFrame hframe]
    exact encodeHeader_iterateConnectionHeader
      (h := (controlFrame ⟨id, flags, .settings settings⟩).1) rfl hk rfl (by omega)
  payload_eq := by
    intro e buf hframe hk
    have hnine : 9 ≤ e.encodedBytes := by omega
    change encodeSettingsPayload buf e = _
    rw [encodeSettingsPayload, tryRetrieveCurrentFrame_bind hframe]
    simp only [length_settings]
    refine encodePayload_eq hk rfl (fun _ => rfl) fun i x hx => ?_
    simp only [bind_apply, checkedSub_eq_ok hnine, bind_ok]
    exact settingsByte_eq hx e
  closed := by
    intro k room hres _ _
    omega

theorem writers_ping (ping : Ping) : Writers ⟨id, flags, .ping ping⟩ .encodingPingFrame .encodingPingPayload
      (controlOctets ⟨id, flags, .ping ping⟩) (fun k room => k = 0 ∧ 5 ≤ room ∨ 5 ≤ k) where
  header_ne := by decide
  header_open := rfl
  payload_open := rfl
  nine_le := nine_le_controlOctets _
  setFrame_eq := setFrame_control _ trivial
  header_eq := by
    intro e buf hframe hk hres
    rw [encodeState_pingFrame hframe]
    exact encodeHeader_iterateConnectionHeader
      (h := (controlFrame ⟨id, flags, .ping ping⟩).1) rfl hk rfl (by omega)
  payload_eq := by
    intro e buf hframe hk
    change encodePingPayload buf e = _
    rw [encodePingPayload, tryRetrieveCurrentFrame_bind hframe]
    simp only [get_bind]
    rw [← ping.length_data]
    exact encodePayload_eq hk rfl (fun _ => rfl) fun i x hx => by simp [index, hx]
  closed := by
    intro k room hres _ _
    omega

theorem writers_priority (priority : Priority) :
    Writers ⟨id, flags, .priority priority⟩ .encodingPriorityFrame .encodingPriorityPayload
      (controlOctets ⟨id, flags, .priority priority⟩) (fun _ _ => True) where
  header_ne := by decide
  header_open := rfl
  payload_open := rfl
  nine_le := nine_le_controlOctets _
  setFrame_eq := setFrame_control _ trivial
  header_eq := by
    intro e buf hframe hk _
    change encodePriorityFrame buf e = _
    rw [encodePriorityFrame, tryRetrieveCurrentFrame_bind hframe]
    exact encodeHeader_iterateHeader (h := (controlFrame ⟨id, flags, .priority priority⟩).1) hk rfl
  payload_eq := by
    intro e buf hframe hk
    have hnine : 9 ≤ e.encodedBytes := by omega
    have hle : e.encodedBytes - 9 ≤ 5 := by
      change _ ∨ _ ∧ e.encodedBytes < 9 + 5 at hk
      omega
    have hwriter : encodePriorityPayload buf e = encodePayload 5 (fun len => fillItems (fun i =>
        priorityByte priority (e.encodedBytes - 9 + i)) 0 len buf) buf.length e := by
      rw [encodePriorityPayload, tryRetrieveCurrentFrame_bind hframe]
      simp only [bind_apply, get_apply, bind_ok, frameHeaderSize, checkedSub_eq_ok hnine, checkedSub_eq_ok hle]
      rfl
    change encodePriorityPayload buf e = _
    rw [hwriter]
    exact encodePayload_eq hk rfl (fun _ => rfl) fun i x hx => priorityByte_eq hx e
  closed := fun _ _ _ => trivial

end

theorem encodeRstStreamFrame_eq (hframe : e.currentFrame = some frame) (hk : e.encodedBytes < 9) :
    encodeRstStreamFrame buf e =
      encodeHeader (fun len => fillItems (rstStreamHeaderByte frame e.encodedBytes) 0 len buf)
        .encodingRstStreamPayload false buf.length e := by
  have hopen : ¬ frameHeaderSize ≤ e.encodedBytes := not_le.mpr hk
  unfold encodeHeader
  rw [encodeRstStreamFrame, tryRetrieveCurrentFrame_bind hframe]
  simp only [get_bind, if_neg hopen, headerBytesToWrite_eq hk]
  rfl

theorem rstStreamHeaderByte_eq {errorCode : UInt32}
    (hx : (controlFrame ⟨id, flags, .rstStream errorCode⟩).1.octets[i]? = some x)
    (e : FrameEncoder) : rstStreamHeaderByte ⟨id, flags, .rstStream errorCode⟩ 0 i e = .ok x e := by
  have hi : i < 9 := (List.getElem?_eq_some_iff.mp hx).1
  rcases lt_nine_cases hi with rfl | rfl | rfl | rfl | rfl | rfl | rfl | rfl | rfl
  all_goals
    cases hx
    rfl

/-- RST_STREAM frames may not be resumed inside the header. -/
theorem writers_rstStream (id : StreamId) (flags : FrameFlags) (errorCode : UInt32) :
    Writers ⟨id, flags, .rstStream errorCode⟩ .encodingRstStreamFrame .encodingRstStreamPayload
      (controlOctets ⟨id, flags, .rstStream errorCode⟩) (fun k room => k = 0 ∧ 9 ≤ room) where
  header_ne := by decide
  header_open := rfl
  payload_open := rfl
  nine_le := nine_le_controlOctets _
  setFrame_eq := setFrame_control _ trivial
  header_eq := by
    intro e buf hframe hk hres
    change encodeRstStreamFrame buf e = _
    rw [encodeRstStreamFrame_eq hframe hk, controlOctets, take_drop_octets (by omega)]
    refine encodeHeader_eq hk rfl (fillItems_drop ?_ (min_le_right _ _) fun i x _ hx => ?_)
    · rw [FrameHeader.length_octets]
      omega
    · rw [hres.1, zero_add] at hx
      rw [hres.1]
      exact rstStreamHeaderByte_eq hx e
  payload_eq := by
    intro e buf hframe hk
    have hlt : e.encodedBytes < 13 := by
      change _ ∨ _ ∧ e.encodedBytes < 9 + 4 at hk
      omega
    have hwriter : encodeRstStreamPayload buf e = encodePayload 4 (fun len => fillItems (fun i =>
        pure (octet32 errorCode (e.encodedBytes - 9 + i))) 0 len buf) buf.length e := by
      rw [encodeRstStreamPayload, tryRetrieveCurrentFrame_bind hframe]
      have hstarted : ¬ e.encodedBytes < frameHeaderSize := fun (h : e.encodedBytes < 9) => by omega
      have hopen : ¬ 4 ≤ e.encodedBytes - frameHeaderSize := fun (h : 4 ≤ e.encodedBytes - 9) => by omega
      simp only [get_bind, if_neg hstarted, if_neg hopen]
      rfl
    change encodeRstStreamPayload buf e = _
    rw [hwriter]
    exact encodePayload_eq hk rfl (fun _ => rfl) fun i x hx => congrArg (ok · e) (octet32_eq hx)
  closed := by
    intro k room hres hlt _
    omega

end FrameEncoder

end YlongHttp.H2
