/-
Control frames from an encoder to a decoder.

One encoder writes control frames one after the other into a buffer, and one decoder reads
the bytes. `encodeFrames_eq` says what is in the buffer and `interpret_controlFrame` what a
legal frame means to the decoder; together the frames arrive as they were
(`controlFrames_arrive`).
-/

import YlongHttp.H2.Decoder.Payload
import YlongHttp.H2.Encoder.WindowUpdate

namespace YlongHttp.H2

open Rust Codec Outcome List

/-! ### Legal frames -/

/-- The value of a setting is in the range of the protocol. -/
def Setting.InRange : Setting → Prop
  | .initialWindowSize value => value.toNat < 2 ^ 31
  | .maxFrameSize value => 2 ^ 14 ≤ value.toNat ∧ value.toNat < 2 ^ 24
  | _ => True

/-- A control frame that the protocol allows, on a connection with this largest frame size. -/
structure LegalControl (maxFrameSize : Nat) (frame : Frame) : Prop where
  stream : frame.id.toNat < 2 ^ 31
  fits : (controlPayload frame.payload).length ≤ maxFrameSize
  payload : match frame.payload with
    | .settings settings =>
      frame.id = 0 ∧ (frame.flags.isAck = true → settings = []) ∧ ∀ s ∈ settings, s.InRange
    | .ping _ => frame.id = 0
    | .goaway goaway => frame.id = 0 ∧ goaway.lastStreamId.toNat < 2 ^ 31
    | .windowUpdate increment => increment ≠ 0 ∧ increment.toNat < 2 ^ 31
    | .rstStream _ => frame.id ≠ 0
    | .priority priority => frame.id ≠ 0 ∧ priority.streamDependency.toNat < 2 ^ 31
    | _ => False

theorem LegalControl.isControl {maxFrameSize : Nat} {frame : Frame} (h : LegalControl maxFrameSize frame) :
    frame.payload.IsControl := by
  obtain ⟨id, flags, payload⟩ := frame
  cases payload with
  | headers | data | pushPromise => exact h.payload.elim
  | _ => trivial

/-! ### What is in the buffer -/

namespace FrameEncoder

/-- `set_frame` and `encode` for one frame after the other, each into the rest of the buffer. -/
def encodeFrames : List Frame → List UInt8 → Method FrameEncoder FrameEncoderErr (List UInt8)
  | [], _ => return []
  | frame :: frames, buf => do
    setFrame frame
    let (buf, bytes) ← encode buf
    let rest ← encodeFrames frames (buf.drop bytes)
    return buf.take bytes ++ rest

theorem encode_windowUpdate {id : StreamId} {flags : FrameFlags} {increment : UInt32} {buf : List UInt8}
    (hroom : 13 ≤ buf.length) (e : FrameEncoder) :
    ∃ e' e'', setFrame ⟨id, flags, .windowUpdate increment⟩ e = .ok () e' ∧
      encode buf e' = .ok (controlOctets ⟨id, flags, .windowUpdate increment⟩ ++
        buf.drop (controlOctets ⟨id, flags, .windowUpdate increment⟩).length,
        (controlOctets ⟨id, flags, .windowUpdate increment⟩).length) e'' := by
  obtain ⟨e₀, hset, hframe, hencoded, hstate⟩ :=
    setFrame_control ⟨id, flags, .windowUpdate increment⟩ trivial e
  have hbuf : buf ≠ [] := length_pos_iff.mp (by omega)
  obtain ⟨e₁, hcall, -⟩ := encode_windowUpdateHeader hframe hstate (by omega) hbuf (by omega)
  have hpiece : windowPiece 0 (buf.length - 9) = 4 := by
    rw [windowPiece, if_neg (by decide)]
    omega
  refine ⟨e₀, e₁, hset, ?_⟩
  rwa [hencoded, Nat.sub_zero, hpiece, drop_zero, drop_drop] at hcall

/-- One buffer with room for the frame. -/
theorem encode_control {frame : Frame} (h : frame.payload.IsControl) {buf : List UInt8}
    (hroom : (controlOctets frame).length ≤ buf.length) (e : FrameEncoder) : ∃ e' e'', setFrame frame e = .ok () e' ∧
      encode buf e' = .ok (controlOctets frame ++ buf.drop (controlOctets frame).length, (controlOctets frame).length)
          e'' := by
  obtain ⟨id, flags, payload⟩ := frame
  cases payload with
  | headers | data | pushPromise => exact h.elim
  | settings settings =>
    exact (writers_settings id flags settings).encode_eq (fun _ h => .inl ⟨rfl, by omega⟩) hroom e
  | ping ping => exact (writers_ping id flags ping).encode_eq (fun _ h => .inl ⟨rfl, by omega⟩) hroom e
  | rstStream errorCode =>
    exact (writers_rstStream id flags errorCode).encode_eq (fun _ h => ⟨rfl, h⟩) hroom e
  | goaway goaway => exact (writers_goaway id flags goaway).encode_eq (fun _ _ => trivial) hroom e
  | priority priority => exact (writers_priority id flags priority).encode_eq (fun _ _ => trivial) hroom e
  | windowUpdate increment => exact encode_windowUpdate hroom e

theorem encodeFrames_eq {frames : List Frame} :
    ∀ (buf : List UInt8) (e : FrameEncoder), (∀ frame ∈ frames, frame.payload.IsControl) →
      (wire (frames.map controlFrame)).length ≤ buf.length →
        ∃ e', encodeFrames frames buf e = .ok (wire (frames.map controlFrame)) e' := by
  induction frames with
  | nil =>
    intro buf e _ _
    exact ⟨e, rfl⟩
  | cons frame frames ih =>
    intro buf e hcontrol hroom
    have hwire : wire ((frame :: frames).map controlFrame) = controlOctets frame ++ wire (frames.map controlFrame) := by
      rfl
    rw [hwire, length_append] at hroom
    obtain ⟨e₁, e₂, hset, hencode⟩ :=
      encode_control (hcontrol frame mem_cons_self) (Nat.le_of_add_right_le hroom) e
    obtain ⟨e', hrest⟩ := ih (buf.drop (controlOctets frame).length) e₂
      (fun f hf => hcontrol f (mem_cons_of_mem frame hf)) (by rw [length_drop]; omega)
    refine ⟨e', ?_⟩
    simp only [encodeFrames, Method.bind_apply, hset, bind_ok, hencode, drop_left' rfl, hrest,
      take_left' rfl, Method.pure_apply, hwire]

end FrameEncoder

/-! ### What a frame means -/

section Words

variable {σ : Type}

theorem be16_octets : ∀ n < 7, be16 (octet16 n 0) (octet16 n 1) = UInt16.ofNat n := by
  decide

theorem settingPair_fst_lt (s : Setting) : (FrameEncoder.settingPair s).1 < 7 := by
  cases s <;> exact Nat.lt_of_sub_eq_succ rfl

theorem getSetting_eq {s : Setting} (h : s.InRange) :
    getSetting (UInt16.ofNat (FrameEncoder.settingPair s).1) (FrameEncoder.settingPair s).2 =
      (pure (some s) : Method σ H2Error (Option Setting)) := by
  cases s with
  | headerTableSize | maxConcurrentStreams | maxHeaderListSize => rfl
  | enablePush value => cases value <;> rfl
  | initialWindowSize value =>
    have hle : ¬ value.toNat > maxInitialWindowSize := by
      change ¬ value.toNat > 2 ^ 31 - 1
      have hlt : value.toNat < 2 ^ 31 := h
      omega
    exact if_neg hle
  | maxFrameSize value =>
    have hrange : ¬ ¬ (defaultMaxFrameSize ≤ value.toNat ∧ value.toNat ≤ maxAllowedMaxFrameSize) := by
      change ¬ ¬ (2 ^ 14 ≤ value.toNat ∧ value.toNat ≤ 2 ^ 24 - 1)
      have hrange : 2 ^ 14 ≤ value.toNat ∧ value.toNat < 2 ^ 24 := h
      omega
    exact if_neg hrange

/-- The six octets of a setting are read back. -/
theorem splitTokenToSetting_eq {s : Setting} (h : s.InRange) :
    splitTokenToSetting (settingOctets s) = (pure (some s) : Method σ H2Error (Option Setting)) := by
  have htoken : splitTokenToSetting (settingOctets s) =
      (getSetting (be16 (octet16 (FrameEncoder.settingPair s).1 0) (octet16 (FrameEncoder.settingPair s).1 1))
        (be32 (octet32 (FrameEncoder.settingPair s).2 0) (octet32 (FrameEncoder.settingPair s).2 1)
          (octet32 (FrameEncoder.settingPair s).2 2) (octet32 (FrameEncoder.settingPair s).2 3)) :
        Method σ H2Error (Option Setting)) := rfl
  rw [htoken, be16_octets _ (settingPair_fst_lt s), be32_octets, getSetting_eq h]

theorem splitSettings_eq {settings : List Setting} (h : ∀ s ∈ settings, s.InRange) :
    splitSettings (settings.flatMap settingOctets) = (pure settings : Method σ H2Error (List Setting)) := by
  induction settings with
  | nil => rfl
  | cons s settings ih =>
    have hrest := ih fun t ht => h t (mem_cons_of_mem s ht)
    change (splitTokenToSetting (settingOctets s) >>= fun setting =>
      splitSettings (settings.flatMap settingOctets) >>= fun settings =>
        pure (setting.toList ++ settings)) = _
    rw [splitTokenToSetting_eq (h s mem_cons_self), hrest]
    rfl

end Words

namespace FrameDecoder

variable {H : Type} [HpackLayer H]

/-- The bit in front of a word of 31 bits does not get lost. -/
theorem be32_reserved {x : UInt32} (h : x.toNat < 2 ^ 31) :
    be32 (octet32 x 0 &&& 0x7f) (octet32 x 1) (octet32 x 2) (octet32 x 3) = x := by
  rw [and_0x7f_of_lt _ (octet32_zero_lt h), be32_octets]

theorem exclusive_octet (exclusive : Bool) : ∀ b : UInt8,
    ((((exclusive.toUInt8 <<< 7) ||| (b &&& 0x7F)) &&& 0x80 == 0x80) = exclusive) ∧
      ((exclusive.toUInt8 <<< 7) ||| (b &&& 0x7F)) &&& 0x7f = b &&& 0x7f := by
  cases exclusive <;> exact forall_byte (by decide +kernel)

variable {maxFrameSize : Nat} {frame : Frame}

/-- A legal control frame means itself. -/
theorem interpret_controlFrame (h : LegalControl maxFrameSize frame)
    (c : Core H) : interpret (controlFrame frame).1 (controlFrame frame).2 c = .ok (.complete frame) c := by
  obtain ⟨id, flags, payload⟩ := frame
  have hlegal := h.payload
  cases payload with
  | headers | data | pushPromise => exact hlegal.elim
  | settings settings =>
    obtain ⟨hid, hack, hrange⟩ := hlegal
    have hstream : id = 0 := hid
    have hframe : FrameHeader.frame (controlFrame ⟨id, flags, .settings settings⟩).1 (.settings settings) =
        .complete ⟨id, flags, .settings settings⟩ := by
      rw [hstream]
      rfl
    have hsix : (controlPayload (.settings settings)).length % 6 = 0 := by
      rw [← FrameEncoder.length_settings]
      exact Nat.mul_mod_left _ 6
    refine (interpret_settings rfl c rfl).trans ((if_neg (not_not.mpr rfl)).trans
      ((if_neg (not_not.mpr hsix)).trans ?_))
    by_cases hflag : (controlFrame ⟨id, flags, .settings settings⟩).1.isAck = true
    · have hnil : settings = [] := hack ((beq_iff_eq.mpr (UInt8.and_comm _ _ ▸ beq_iff_eq.mp hflag)))
      subst hnil
      exact (if_pos hflag).trans ((if_neg (not_not.mpr rfl)).trans (congrArg (ok · c) hframe))
    · refine (if_neg hflag).trans ?_
      change ((splitSettings (settings.flatMap settingOctets) _).bind _).mapState core = _
      rw [splitSettings_eq hrange, ← hframe]
      rfl
  | ping ping =>
    have hid : id = 0 := hlegal
    refine (interpret_ping rfl c rfl).trans ((if_neg (not_not.mpr rfl)).trans
      ((dif_pos ping.length_data).trans ?_))
    rw [hid]
    rfl
  | rstStream errorCode =>
    have hid : (controlFrame ⟨id, flags, .rstStream errorCode⟩).1.streamId ≠ 0 := hlegal
    refine (interpret_reset rfl c rfl).trans ((if_neg hid).trans ?_)
    change ok (FrameHeader.frame _ (.rstStream (be32 _ _ _ _))) c = _
    rw [be32_octets]
    rfl
  | goaway goaway =>
    obtain ⟨hid, hlast⟩ := hlegal
    have hstream : (controlFrame ⟨id, flags, .goaway goaway⟩).1.streamId = 0 := hid
    refine (interpret_goaway rfl c rfl).trans ((if_neg (not_not.mpr hstream)).trans ?_)
    change ok (FrameHeader.frame _ (.goaway ⟨be32 _ _ _ _, be32 _ _ _ _, goaway.debugData⟩)) c = _
    rw [be32_octets, be32_reserved hlast]
    rfl
  | priority priority =>
    obtain ⟨hid, hdependency⟩ := hlegal
    have hstream : (controlFrame ⟨id, flags, .priority priority⟩).1.streamId ≠ 0 := hid
    obtain ⟨hexclusive, hoctet⟩ := exclusive_octet priority.exclusive (octet32 priority.streamDependency 0)
    refine (interpret_priority rfl c rfl).trans ((if_neg hstream).trans ?_)
    change ok (FrameHeader.frame _ (.priority ⟨_, be32 _ _ _ _, priority.weight⟩)) c = _
    rw [hexclusive, hoctet, be32_reserved hdependency]
    rfl
  | windowUpdate increment =>
    obtain ⟨hne, hsmall⟩ := hlegal
    have hvalue : be32 (0x7f &&& octet32 increment 0) (octet32 increment 1) (octet32 increment 2)
        (octet32 increment 3) = increment := by
      rw [UInt8.and_comm, be32_reserved hsmall]
    refine (interpret_windowUpdate rfl c rfl).trans ?_
    change (if be32 (0x7f &&& octet32 increment 0) _ _ _ = 0 then _ else _) = _
    rw [if_neg (by rwa [hvalue]), hvalue]
    rfl

/-! ### The round trip -/

theorem framed_controlFrame (hmax : maxFrameSize < 2 ^ 24)
    (h : LegalControl maxFrameSize frame) : Framed (controlFrame frame) where
  length := rfl
  small := Nat.lt_of_le_of_lt h.fits hmax
  stream := by
    change (controlStream frame).toNat < 2 ^ 31
    unfold controlStream
    split
    · decide
    · decide
    · exact h.stream

theorem meaning_controlFrames (hmax : maxFrameSize < 2 ^ 24) {frames : List Frame}
    {c : Core H} (hopen : c.continuations.isEndHeaders = true)
    (h : ∀ frame ∈ frames, LegalControl maxFrameSize frame) :
    meaning maxFrameSize (wire (frames.map controlFrame)) c = .ok (frames.map .complete) c := by
  induction frames with
  | nil => rfl
  | cons frame frames ih =>
    have hframe := h frame mem_cons_self
    have hrest := ih fun f hf => h f (mem_cons_of_mem frame hf)
    have hfree : ¬ c.continuations.Blocks (controlFrame frame).1 := fun hblocks => by
      have hclosed := hblocks.1
      rw [hopen] at hclosed
      cases hclosed
    rw [map_cons, meaning_wire_cons (framed_controlFrame hmax hframe),
      allow_bind hframe.fits, if_neg hfree, interpret_controlFrame hframe, bind_ok, hrest,
      bind_ok, map_cons]

/-- Legal control frames that one encoder writes into a buffer with room for them, one
after the other, come out of a decoder as they were. -/
theorem controlFrames_arrive {d : FrameDecoder H} (hbound : d.AtBoundary)
    (hopen : d.continuations.isEndHeaders = true) (hmax : d.maxFrameSize < 2 ^ 24) {frames : List Frame}
    (hlegal : ∀ frame ∈ frames, LegalControl d.maxFrameSize frame) {buf : List UInt8}
    (hroom : (wire (frames.map controlFrame)).length ≤ buf.length) (e : FrameEncoder) :
    ∃ out e' d', FrameEncoder.encodeFrames frames buf e = .ok out e' ∧
      decode out d = .ok (frames.map .complete) d' := by
  obtain ⟨e', hencode⟩ := FrameEncoder.encodeFrames_eq buf e (fun frame h => (hlegal frame h).isControl) hroom
  have hwhole : ¬ SplitPriority [] (wire (frames.map controlFrame)) :=
    fun h => absurd h.1 (Nat.not_lt_zero 9)
  obtain ⟨hfollows, -⟩ := decode_spec hbound.holds hwhole
  have hmeaning : meaning d.maxFrameSize (wire (frames.map controlFrame)) d.core =
      .ok (frames.map .complete) d.core := meaning_controlFrames hmax hopen hlegal
  rw [nil_append, hmeaning] at hfollows
  obtain ⟨d', hdecode, -⟩ := hfollows.of_eq_ok rfl
  exact ⟨wire (frames.map controlFrame), e', d', hencode, hdecode⟩

theorem atBoundary_new : FrameDecoder.new.AtBoundary := ⟨rfl, rfl, rfl⟩

/-- A SETTINGS frame, a WINDOW_UPDATE frame and a PRIORITY frame. -/
theorem controlFrames_arrive_three :
    ∃ out e' d',
      FrameEncoder.encodeFrames
          [⟨0, ⟨0⟩, .settings [.maxFrameSize 16384, .enablePush false]⟩, ⟨3, ⟨0⟩, .windowUpdate 5⟩,
            ⟨5, ⟨0⟩, .priority ⟨true, 3, 16⟩⟩]
          (List.replicate 100 0) (.new 16384 true) = .ok out e' ∧
        decode out FrameDecoder.new =
          .ok [.complete ⟨0, ⟨0⟩, .settings [.maxFrameSize 16384, .enablePush false]⟩,
            .complete ⟨3, ⟨0⟩, .windowUpdate 5⟩, .complete ⟨5, ⟨0⟩, .priority ⟨true, 3, 16⟩⟩] d' := by
  refine controlFrames_arrive atBoundary_new rfl (by decide) ?_ (by decide) _
  simp only [forall_mem_cons, not_mem_nil, false_implies, implies_true, and_true]
  refine ⟨⟨by decide, by decide, rfl, by decide, ?_⟩, ⟨by decide, by decide, by decide⟩,
    ⟨by decide, by decide, by decide⟩⟩
  simp only [forall_mem_cons, not_mem_nil, false_implies, implies_true, and_true]
  exact ⟨⟨by decide, by decide⟩, trivial⟩

/-! ### Settings without a bound -/

/-- Nothing but settings in their ranges, and more of them than fit into a frame. -/
def manySettings : Frame := ⟨0, ⟨0⟩, .settings (List.replicate 2731 (.headerTableSize 0))⟩

theorem length_manySettings : (controlPayload manySettings.payload).length = 16386 := by
  rw [manySettings, ← FrameEncoder.length_settings, length_replicate]

/-- The encoder does not bound the payload of a SETTINGS frame, and the decoder refuses
what is longer than its largest frame. -/
theorem manySettings_refused :
    (∀ s ∈ List.replicate 2731 (Setting.headerTableSize 0), s.InRange) ∧
      ∃ out e' d', FrameEncoder.encodeFrames [manySettings] (List.replicate 16395 0) (.new 16384 true) = .ok out e' ∧
        decode out FrameDecoder.new = .err (.connectionError .frameSizeError) d' := by
  have hwire : (wire ([manySettings].map controlFrame)).length = 16395 := by
    rw [map_singleton, wire_cons, wire_nil, append_nil]
    exact (length_controlOctets manySettings).trans (congrArg (9 + ·) length_manySettings)
  have hframed : Framed (controlFrame manySettings) := by
    refine ⟨rfl, ?_, by decide⟩
    change (controlPayload manySettings.payload).length < 2 ^ 24
    rw [length_manySettings]
    decide
  have hlong : FrameDecoder.new.maxFrameSize < (controlFrame manySettings).1.payloadLength := by
    change 16384 < (controlPayload manySettings.payload).length
    rw [length_manySettings]
    decide
  have hcontrol : ∀ frame ∈ [manySettings], frame.payload.IsControl :=
    fun _ h => mem_singleton.mp h ▸ trivial
  obtain ⟨e', hencode⟩ := FrameEncoder.encodeFrames_eq (replicate 16395 0) (.new 16384 true) hcontrol
    (by rw [hwire, length_replicate])
  have hwhole : ¬ SplitPriority [] (wire ([manySettings].map controlFrame)) :=
    fun h => absurd h.1 (Nat.not_lt_zero 9)
  obtain ⟨hfollows, -⟩ := decode_spec atBoundary_new.holds hwhole
  rw [nil_append, map_singleton, meaning_wire_cons hframed, allow, if_pos hlong, bind_err] at hfollows
  obtain ⟨d', hdecode, -⟩ := hfollows.of_eq_err rfl
  refine ⟨fun s hs => ?_, _, e', d', hencode, hdecode⟩
  rw [eq_of_mem_replicate hs]
  trivial

end FrameDecoder

end YlongHttp.H2
