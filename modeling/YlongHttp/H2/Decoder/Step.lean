/-
What one round of the frame decoder does.

`decodeFrameHeader_eq` and `decodeFramePayload_eq` say it for a header and for a
payload. A payload that came in parts is decoded as if it had come at once
(`payloadDecoder_spec`): what it means, `interpret`, depends only on the header, the
whole payload and the `Core` of the decoder. The exception is a PRIORITY payload that
came in parts, which is refused (`payloadDecoder_split`).
-/

import YlongHttp.H2.Decoder.Parametric

namespace YlongHttp.H2

open Rust Codec Method Outcome

/-! ### Headers -/

/-- The header in the first nine bytes. -/
def parseHeader : List UInt8 → FrameHeader
  | l₀ :: l₁ :: l₂ :: frameType :: flags :: s₀ :: s₁ :: s₂ :: s₃ :: _ =>
    ⟨be32 (s₀ &&& 0x7f) s₁ s₂ s₃, flags, frameType, be24 l₀ l₁ l₂⟩
  | _ => .new

variable {bytes : List UInt8}

/-- A list of at least nine bytes, taken apart. -/
theorem exists_nine (h : 9 ≤ bytes.length) : ∃ l₀ l₁ l₂ t f s₀ s₁ s₂ s₃ rest,
      bytes = l₀ :: l₁ :: l₂ :: t :: f :: s₀ :: s₁ :: s₂ :: s₃ :: rest := by
  match bytes, h with
  | l₀ :: l₁ :: l₂ :: t :: f :: s₀ :: s₁ :: s₂ :: s₃ :: rest, _ =>
    exact ⟨l₀, l₁, l₂, t, f, s₀, s₁, s₂, s₃, rest, rfl⟩

theorem parseHeader_append (h : 9 ≤ bytes.length) (more : List UInt8) :
    parseHeader (bytes ++ more) = parseHeader bytes := by
  obtain ⟨l₀, l₁, l₂, t, f, s₀, s₁, s₂, s₃, rest, rfl⟩ := exists_nine h
  rfl

theorem parseHeader_take (h : 9 ≤ bytes.length) : parseHeader (bytes.take 9) = parseHeader bytes := by
  obtain ⟨l₀, l₁, l₂, t, f, s₀, s₁, s₂, s₃, rest, rfl⟩ := exists_nine h
  rfl

/-- While a header block is open only its next CONTINUATION frame is let through. -/
def Continuations.Blocks (c : Continuations) (header : FrameHeader) : Prop :=
  c.isEndHeaders = false ∧ (header.streamId ≠ c.streamId ∨ header.frameType ≠ 9)

instance (c : Continuations) (header : FrameHeader) : Decidable (c.Blocks header) :=
  inferInstanceAs (Decidable (_ ∧ _))

namespace FrameDecoder

variable {H : Type} [HpackLayer H]

/-- The decoder after it kept bytes for later. -/
def kept (d : FrameDecoder H) (buf : List UInt8) : FrameDecoder H :=
  { d with offset := d.offset + buf.length, buffer := d.buffer ++ buf }

/-- The decoder with nothing kept. -/
def cleared (d : FrameDecoder H) : FrameDecoder H :=
  if d.offset ≠ 0 then { d with offset := 0, buffer := [] } else d

omit [HpackLayer H] in
theorem readHeader_eq (h : 9 ≤ bytes.length) (maxFrameSize : Nat) (d : FrameDecoder H) :
    readHeader maxFrameSize bytes d = if maxFrameSize < (parseHeader bytes).payloadLength then
        .err (.connectionError .frameSizeError) d else .ok (parseHeader bytes) d := by
  obtain ⟨l₀, l₁, l₂, t, f, s₀, s₁, s₂, s₃, rest, rfl⟩ := exists_nine h
  by_cases hsize : maxFrameSize < be24 l₀ l₁ l₂
  · simp [readHeader, index, hsize, parseHeader]
  · simp [readHeader, index, hsize, parseHeader, slice, getStreamId]

/-- The bytes a header is read from. -/
def headerBuffer (d : FrameDecoder H) (buf : List UInt8) : List UInt8 :=
  if d.offset = 0 then buf else d.buffer ++ buf.take (9 - d.offset)

/-- The decoder after the header is complete, before it is read. -/
def headerMerged (d : FrameDecoder H) (buf : List UInt8) : FrameDecoder H :=
  if d.offset = 0 then d else { d with buffer := d.headerBuffer buf }

variable {d : FrameDecoder H} {buf : List UInt8}

omit [HpackLayer H] in
theorem mergeHeader_eq (h : 9 - d.offset ≤ buf.length) :
    mergeHeader buf (9 - d.offset) d = .ok (d.headerBuffer buf) (d.headerMerged buf) := by
  by_cases hzero : d.offset = 0
  · simp only [mergeHeader, headerBuffer, headerMerged, if_pos hzero]
  · simp only [mergeHeader, headerBuffer, headerMerged, if_neg hzero, bind_apply,
      sliceTo_eq_ok h, bind_ok, modify_apply, pure_apply]

omit [HpackLayer H] in
theorem nine_le_headerBuffer (hbuffer : d.offset ≤ d.buffer.length) (h : 9 - d.offset ≤ buf.length) :
    9 ≤ (d.headerBuffer buf).length := by
  unfold headerBuffer
  split
  · omega
  · rw [List.length_append, List.length_take_of_le h]
    omega

omit [HpackLayer H] in
theorem cleared_headerMerged (d : FrameDecoder H) (buf : List UInt8) : (d.headerMerged buf).cleared = d.cleared := by
  unfold headerMerged
  split
  next => rfl
  next hne => simp only [cleared, hne, ne_eq, not_false_eq_true, if_true]

omit [HpackLayer H] in
theorem decodeFrameHeader_eq (hoffset : d.offset < 9) (hbuffer : d.offset ≤ d.buffer.length) (buf : List UInt8) :
    decodeFrameHeader buf d = if buf.length < 9 - d.offset then .ok none (d.kept buf)
      else if d.maxFrameSize < (parseHeader (d.headerBuffer buf)).payloadLength then
        .err (.connectionError .frameSizeError) (d.headerMerged buf) else .ok (some (buf.drop (9 - d.offset)))
          { d.cleared with header := parseHeader (d.headerBuffer buf) } := by
  have hsub : (checkedSub frameHeaderLength d.offset : Method (FrameDecoder H) H2Error Nat) d =
      .ok (9 - d.offset) d := checkedSub_eq_ok (Nat.le_of_lt hoffset) d
  simp only [decodeFrameHeader, bind_apply, get_apply, bind_ok, hsub, Method.ite_apply]
  split
  next => rfl
  next hmore =>
    have hle : 9 - d.offset ≤ buf.length := Nat.le_of_not_lt hmore
    rw [mergeHeader_eq hle, bind_ok, readHeader_eq (nine_le_headerBuffer hbuffer hle)]
    split
    next => rw [bind_err]
    next =>
      simp only [bind_ok, clearBuffer, modify_apply, sliceFrom_eq_ok hle, pure_apply]
      rw [← cleared_headerMerged d buf]
      rfl

/-! ### Payloads -/

/-- The bytes of the payload that are still missing. -/
def missing (d : FrameDecoder H) : Nat := d.header.payloadLength - d.offset

/-- The decoder after a payload was decoded. -/
def finished (d : FrameDecoder H) : FrameDecoder H := cleared { d with header := .new }

theorem decodeFramePayload_eq (hoffset : d.offset ≤ d.header.payloadLength) (buf : List UInt8) :
    decodeFramePayload buf d = if d.continuations.Blocks d.header then .err (.connectionError .protocolError) d
      else if buf.length < d.missing then .ok none (d.kept buf) else
        (payloadDecoder d.header.frameType (buf.take d.missing) d).bind fun frame d' =>
          .ok (some (buf.drop d.missing, frame)) d'.finished := by
  have hblocked : (!d.continuations.isEndHeaders) = true ∧
      (d.header.streamId ≠ d.continuations.streamId ∨ d.header.frameType ≠ 9) ↔ d.continuations.Blocks d.header := by
    rw [Continuations.Blocks, Bool.not_eq_true']
  have hsub : (checkedSub d.header.payloadLength d.offset : Method (FrameDecoder H) H2Error Nat) d =
      .ok d.missing d := checkedSub_eq_ok hoffset d
  simp only [decodeFramePayload, bind_apply, get_apply, bind_ok, Method.ite_apply, hblocked]
  split
  next => rfl
  next =>
    rw [hsub, bind_ok]
    split
    next => rfl
    next hmore =>
      have hle : d.missing ≤ buf.length := Nat.le_of_not_lt hmore
      rw [sliceTo_eq_ok hle, bind_ok]
      cases payloadDecoder d.header.frameType (buf.take d.missing) d with
      | ok frame d' =>
        simp only [bind_ok, clearBuffer, modify_apply, pure_apply]
        rw [sliceFrom_eq_ok hle]
        rfl
      | err | panic => rfl

/-! ### The meaning of a payload -/

/-- What a decoder keeps from frame to frame. -/
structure Core (H : Type) where
  hpack : H
  continuations : Continuations

def core (d : FrameDecoder H) : Core H := ⟨d.hpack, d.continuations⟩

/-- A decoder that has read a header and holds nothing of the payload. -/
def atPayload (header : FrameHeader) (c : Core H) : FrameDecoder H :=
  ⟨[], 0, 0, .payload, header, c.hpack, c.continuations⟩

/-- What a whole payload means. -/
def interpret (header : FrameHeader) (payload : List UInt8) : Method (Core H) H2Error FrameKind :=
  fun c => (payloadDecoder header.frameType payload (atPayload header c)).mapState core

/-- What decoding a payload leaves of a decoder: the header, the stage and the limit,
and the buffered bytes with or without the last part. -/
structure Kept (d : FrameDecoder H) (buf : List UInt8) (d' : FrameDecoder H) : Prop where
  header : d'.header = d.header
  stage : d'.stage = d.stage
  maxFrameSize : d'.maxFrameSize = d.maxFrameSize
  buffered : d'.buffer = d.buffer ∧ d'.offset = d.offset ∨
    d.offset ≠ 0 ∧ d'.buffer = d.buffer ++ buf ∧ d'.offset = d.offset + buf.length

/-- A decoder that came from `d₀` and one that has nothing buffered look alike. -/
structure Alike (d₀ : FrameDecoder H) (buf : List UInt8) (d e : FrameDecoder H) : Prop where
  header : d.header = e.header
  core : d.core = e.core
  kept : Kept d₀ buf d

omit [HpackLayer H] in
theorem alike_hpack {d₀ e : FrameDecoder H} {α : Type} (m : Method H H2Error α) (h : Alike d₀ buf d e) :
    Outcome.Related (Alike d₀ buf) (onField (·.hpack) (fun h d => { d with hpack := h }) m d)
      (onField (·.hpack) (fun h d => { d with hpack := h }) m e) := by
  have hhpack : d.hpack = e.hpack := congrArg Core.hpack h.core
  have hcont : d.continuations = e.continuations := congrArg Core.continuations h.core
  have hkept : ∀ s, Alike d₀ buf { d with hpack := s } { e with hpack := s } := fun s =>
    ⟨h.header, congrArg (Core.mk s) hcont, ⟨h.kept.header, h.kept.stage, h.kept.maxFrameSize, h.kept.buffered⟩⟩
  simp only [onField, hhpack]
  cases m e.hpack with
  | ok a s => exact .ok a (hkept s)
  | err err s => exact .err err (hkept s)
  | panic => exact .panic

theorem blind_alike (d₀ : FrameDecoder H) (buf : List UInt8) : Blind (Alike d₀ buf) where
  header h := h.header
  continuations h := congrArg Core.continuations h.core
  setContinuations c _ _ h :=
    .ok () ⟨h.header, congrArg (Core.mk · c) (congrArg Core.hpack h.core),
      ⟨h.kept.header, h.kept.stage, h.kept.maxFrameSize, h.kept.buffered⟩⟩
  hpackDecode frag _ _ h := alike_hpack (HpackLayer.hpackDecode frag) h
  hpackFinish _ _ h := alike_hpack HpackLayer.hpackFinish h

/-- A payload that came in parts is decoded as the whole one. -/
theorem payloadDecoder_spec (buf : List UInt8)
    (hbuffer : d.buffer.length = d.offset) (hwhole : d.header.frameType = 2 → d.offset = 0) :
    Outcome.Related (fun d' c => d'.core = c ∧ Kept d buf d')
      (payloadDecoder d.header.frameType buf d) (interpret d.header (d.buffer ++ buf) d.core) := by
  have hmerge : Sim (fun d₁ e => d = d₁ ∧ e = atPayload d.header d.core) (Alike d buf)
      (mergeBuffer buf) (mergeBuffer (d.buffer ++ buf)) := by
    rintro _ _ ⟨rfl, rfl⟩
    unfold mergeBuffer
    by_cases hzero : d.offset = 0
    · have hnil : d.buffer = [] := List.length_eq_zero_iff.mp (hbuffer.trans hzero)
      simp only [hzero, hnil, atPayload]
      exact .ok _ ⟨rfl, rfl, ⟨rfl, rfl, rfl, .inl ⟨rfl, rfl⟩⟩⟩
    · rw [if_pos hzero]
      exact .ok _ ⟨rfl, rfl, ⟨rfl, rfl, rfl, .inr ⟨hzero, rfl, rfl⟩⟩⟩
  have hlen : d.header.frameType = 2 → buf.length = (d.buffer ++ buf).length := by
    intro htype
    rw [List.length_append, hbuffer, hwhole htype, Nat.zero_add]
  have hsim := sim_payloadDecoder (blind_alike d buf)
    (fun {d₁ e} h => by
      obtain ⟨rfl, rfl⟩ := h
      exact ⟨rfl, rfl, ⟨rfl, rfl, rfl, .inl ⟨rfl, rfl⟩⟩⟩)
    hmerge hlen d (atPayload d.header d.core) ⟨rfl, rfl⟩
  exact hsim.mapState_right fun h => ⟨h.core, h.kept⟩

/-- A PRIORITY payload that came in parts is refused. -/
theorem payloadDecoder_split (buf : List UInt8) (htype : d.header.frameType = 2) (hsplit : d.offset ≠ 0)
    (hlen : d.offset + buf.length = d.header.payloadLength) :
    ∃ e, payloadDecoder d.header.frameType buf d = .err e d := by
  have hshort : d.header.payloadLength ≠ 5 ∨ buf.length ≠ 5 := by omega
  rw [htype]
  by_cases hzero : isConnectionFrame d.header.streamId = true
  · exact ⟨.connectionError .protocolError, by
      simp [payloadDecoder, decodePriorityPayload, getHeader, hzero]⟩
  · exact ⟨.streamError d.header.streamId .frameSizeError, by
      simp [payloadDecoder, decodePriorityPayload, getHeader, hzero, hshort]⟩

end FrameDecoder

end YlongHttp.H2
