/-
The frame decoder as a reader of a stream of frames.

`meaning` is what the decoder is for, in terms of the stream alone: the stream is
split into frames, each is allowed and interpreted, and the header of an incomplete
frame at the end has to be allowed as well. `decodeLoop_spec` says that a call of `decode`
gives the meaning of the bytes that were kept followed by the new ones, as long as it
does not complete a PRIORITY frame whose payload came in parts.
-/

import YlongHttp.Codec.Framing
import YlongHttp.H2.Decoder.Round

namespace YlongHttp.H2

open Rust Codec Outcome List

def framing : Framing UInt8 where
  headerLength := 9
  headerLength_pos := Nat.succ_pos 8
  payloadLength header := (parseHeader header).payloadLength

namespace FrameDecoder

variable {H : Type} [HpackLayer H]

/-! ### The meaning of a stream -/

def allow (maxFrameSize : Nat) (header : FrameHeader) : Method (Core H) H2Error Unit := fun c =>
  if maxFrameSize < header.payloadLength then .err (.connectionError .frameSizeError) c
  else if c.continuations.Blocks header then .err (.connectionError .protocolError) c
  else .ok () c

def follow (maxFrameSize : Nat) :
    List (List UInt8 × List UInt8) → List UInt8 → Method (Core H) H2Error (List FrameKind)
  | [], rest =>
    if 9 ≤ rest.length then do
      allow maxFrameSize (parseHeader rest)
      return []
    else return []
  | (header, payload) :: frames, rest => do
    allow maxFrameSize (parseHeader header)
    let frame ← interpret (parseHeader header) payload
    let frames ← follow maxFrameSize frames rest
    return frame :: frames

def meaning (maxFrameSize : Nat) (bytes : List UInt8) : Method (Core H) H2Error (List FrameKind) :=
  follow maxFrameSize (framing.split bytes).1 (framing.split bytes).2

variable {maxFrameSize fuel : Nat} {bytes buf : List UInt8} {d : FrameDecoder H} {frames : List FrameKind}

theorem meaning_short (h : bytes.length < 9) :
    meaning maxFrameSize bytes = (pure [] : Method (Core H) H2Error (List FrameKind)) := by
  have hnot : ¬ framing.Complete bytes := fun hc => absurd hc.1 (not_le.mpr h)
  rw [meaning, Framing.split_of_not_complete hnot, follow, if_neg (not_le.mpr h)]

theorem meaning_long (h : 9 ≤ bytes.length) (c : Core H) : meaning maxFrameSize bytes c =
      (allow maxFrameSize (parseHeader bytes) c).bind fun _ c => if framing.Complete bytes then
          (interpret (parseHeader bytes) (framing.payload bytes) c).bind fun frame c =>
            (meaning maxFrameSize (framing.rest bytes) c).bind fun frames c => .ok (frame :: frames) c
        else .ok [] c := by
  by_cases hc : framing.Complete bytes
  · simp only [if_pos hc]
    rw [meaning, Framing.split_of_complete hc, follow, show parseHeader (framing.header bytes) = _ from parseHeader_take h]
    rfl
  · simp only [if_neg hc]
    rw [meaning, Framing.split_of_not_complete hc, follow, if_pos h]
    rfl

/-! ### What the decoder holds -/

/-- The decoder holds the bytes of an unfinished frame. -/
inductive Holds (d : FrameDecoder H) : List UInt8 → Prop where
  | header (stage : d.stage = .header) (buffered : d.buffer.length = d.offset)
      (short : d.offset < 9) : Holds d d.buffer
  | payload {bytes : List UInt8} (stage : d.stage = .payload) (nine : bytes.length = 9)
      (header : d.header = parseHeader bytes) (admitted : d.header.payloadLength ≤ d.maxFrameSize)
      (buffered : d.buffer.length = d.offset) (short : d.offset ≤ d.header.payloadLength) :
      Holds d (bytes ++ d.buffer)

/-- The decoder is between two frames. -/
structure AtBoundary (d : FrameDecoder H) : Prop where
  stage : d.stage = .header
  buffer : d.buffer = []
  offset : d.offset = 0

omit [HpackLayer H] in
theorem AtBoundary.holds (h : d.AtBoundary) : Holds d [] := by
  have hholds := Holds.header h.stage (by rw [h.buffer, h.offset]; rfl) (by rw [h.offset]; decide)
  rwa [h.buffer] at hholds

/-- The new bytes complete a PRIORITY frame of whose payload a part is held. -/
def SplitPriority (pending buf : List UInt8) : Prop :=
  9 < pending.length ∧ (parseHeader pending).frameType = 2 ∧ framing.Complete (pending ++ buf)

instance (pending buf : List UInt8) : Decidable (SplitPriority pending buf) :=
  inferInstanceAs (Decidable (_ ∧ _))

/-! ### One call -/

/-- What a round has to show: the outcome is the meaning of the stream, and after a
success the decoder holds the rest of the stream. -/
def Follows (d : FrameDecoder H) (bytes : List UInt8) (frames : List FrameKind)
    (x : Outcome (FrameDecoder H) H2Error (List FrameKind)) : Prop :=
  Outcome.Related (fun d' c => d'.core = c) x
      ((meaning d.maxFrameSize bytes d.core).bind fun more c => .ok (frames ++ more) c) ∧
    ∀ {out d'}, x = .ok out d' → Holds d' (framing.split bytes).2 ∧ d'.maxFrameSize = d.maxFrameSize

omit [HpackLayer H] in
/-- The header of a stream of which the decoder holds a part. -/
theorem parseHeader_headerBuffer (hbuffer : d.buffer.length = d.offset) (h : 9 - d.offset ≤ buf.length) :
    parseHeader (d.headerBuffer buf) = parseHeader (d.buffer ++ buf) := by
  unfold headerBuffer
  split
  next hzero =>
    have hnil : d.buffer = [] := length_eq_zero_iff.mp (hbuffer.trans hzero)
    rw [hnil, nil_append]
  next hne =>
    have hnine : 9 ≤ (d.buffer ++ buf.take (9 - d.offset)).length := by
      rw [length_append, length_take_of_le h]
      omega
    rw [← parseHeader_append hnine (buf.drop (9 - d.offset)), append_assoc, take_append_drop]

theorem Follows.congr {d₁ : FrameDecoder H}
    {x : Outcome (FrameDecoder H) H2Error (List FrameKind)} (h : Follows d₁ bytes frames x)
    (hmax : d₁.maxFrameSize = d.maxFrameSize) (hcore : d₁.core = d.core) : Follows d bytes frames x := by
  unfold Follows at h ⊢
  rw [← hmax, ← hcore]
  exact h

/-- The header round. -/
theorem follows_header (stage : d.stage = .header) (buffered : d.buffer.length = d.offset) (short : d.offset < 9)
    (ih : ∀ {d : FrameDecoder H} {pending buf : List UInt8} {frames : List FrameKind},
      Holds d pending → d.rounds buf ≤ fuel → ¬ SplitPriority pending buf →
      Follows d (pending ++ buf) frames (decodeLoop fuel buf frames d)) (hfuel : d.rounds buf ≤ fuel + 1) :
    Follows d (d.buffer ++ buf) frames (decodeLoop (fuel + 1) buf frames d) := by
  rw [decodeLoop_header stage, decodeFrameHeader_eq short (le_of_eq buffered.symm)]
  have hlength : (d.buffer ++ buf).length = d.offset + buf.length := by
    rw [length_append, buffered]
  by_cases hmore : buf.length < 9 - d.offset
  · have hshort : (d.buffer ++ buf).length < 9 := by omega
    have hnot : ¬ framing.Complete (d.buffer ++ buf) := fun hc => absurd hc.1 (not_le.mpr hshort)
    rw [if_pos hmore]
    refine ⟨?_, ?_⟩
    · rw [meaning_short hshort]
      simp only [bind_ok, Method.pure_apply, append_nil]
      exact .ok _ rfl
    · rintro out d' ⟨⟩
      rw [Framing.split_of_not_complete hnot]
      exact ⟨.header stage (by rw [kept, hlength]) (by simp only [kept]; omega), rfl⟩
  · have hle : 9 - d.offset ≤ buf.length := Nat.le_of_not_lt hmore
    have hlong : 9 ≤ (d.buffer ++ buf).length := by omega
    rw [if_neg hmore, parseHeader_headerBuffer buffered hle]
    by_cases hsize : d.maxFrameSize < (parseHeader (d.buffer ++ buf)).payloadLength
    · rw [if_pos hsize]
      refine ⟨?_, fun h => by cases h⟩
      rw [meaning_long hlong, allow, if_pos hsize]
      exact .err _ (core_headerMerged d buf)
    · -- The header is complete: the payload round goes on with it as what is held.
      have htake : (d.buffer ++ buf).take 9 = d.buffer ++ buf.take (9 - d.offset) := by
        rw [take_append, buffered, take_of_length_le (by omega)]
      have hbytes : (d.buffer ++ buf).take 9 ++ buf.drop (9 - d.offset) = d.buffer ++ buf := by
        rw [htake, append_assoc, take_append_drop]
      have hnine : ((d.buffer ++ buf).take 9).length = 9 := length_take_of_le hlong
      rw [if_neg hsize, cleared_eq buffered, ← hbytes]
      refine Follows.congr (ih ?_ ?_ ?_) rfl rfl
      · have hholds := Holds.payload (d := { d with
            stage := .payload, offset := 0, buffer := [], header := parseHeader (d.buffer ++ buf) })
          rfl hnine (parseHeader_take hlong).symm (Nat.le_of_not_lt hsize) rfl (Nat.zero_le _)
        rw [append_nil] at hholds
        rw [hbytes]
        exact hholds
      · simp only [rounds, stage, length_drop] at hfuel ⊢
        omega
      · exact fun h => absurd h.1 (by omega)

variable {header : FrameHeader}

omit [HpackLayer H] in
/-- A header that fits is let through unless it is blocked. -/
theorem allow_bind (h : header.payloadLength ≤ maxFrameSize)
    (c : Core H) {α : Type} (next : Unit → Core H → Outcome (Core H) H2Error α) :
    (allow maxFrameSize header c).bind next =
      if c.continuations.Blocks header then .err (.connectionError .protocolError) c else next () c := by
  rw [allow, if_neg (not_lt.mpr h)]
  split
  · rw [bind_err]
  · rw [bind_ok]

/-- The parts of a stream of which the decoder holds a header and a part of the payload. -/
theorem framing_payload {buffer : List UInt8} (buf : List UInt8)
    (nine : bytes.length = 9) (hheader : header = parseHeader bytes) (short : buffer.length ≤ header.payloadLength) :
    framing.frameLength (bytes ++ buffer ++ buf) = 9 + header.payloadLength ∧
      framing.payload (bytes ++ buffer ++ buf) = buffer ++ buf.take (header.payloadLength - buffer.length) ∧
      framing.rest (bytes ++ buffer ++ buf) = buf.drop (header.payloadLength - buffer.length) := by
  have hhead : framing.header (bytes ++ buffer ++ buf) = bytes := by
    rw [append_assoc, Framing.header, show framing.headerLength = bytes.length from nine.symm, take_left]
  have hlength : framing.payloadLength (framing.header (bytes ++ buffer ++ buf)) = header.payloadLength := by
    rw [hhead, hheader]
    rfl
  have hdrop : (bytes ++ buffer ++ buf).drop framing.headerLength = buffer ++ buf := by
    rw [append_assoc, show framing.headerLength = bytes.length from nine.symm, drop_left]
  refine ⟨?_, ?_, ?_⟩
  · rw [Framing.frameLength, hlength]
    rfl
  · rw [Framing.payload, hlength, hdrop, take_append, take_of_length_le short]
  · rw [Framing.rest, Framing.frameLength, hlength, ← drop_drop, hdrop, drop_append,
      drop_of_length_le short, nil_append]

/-- The payload round. -/
theorem follows_payload (stage : d.stage = .payload) (nine : bytes.length = 9)
    (header : d.header = parseHeader bytes) (admitted : d.header.payloadLength ≤ d.maxFrameSize)
    (buffered : d.buffer.length = d.offset) (short : d.offset ≤ d.header.payloadLength)
    (ih : ∀ {d : FrameDecoder H} {pending buf : List UInt8} {frames : List FrameKind},
      Holds d pending → d.rounds buf ≤ fuel → ¬ SplitPriority pending buf →
      Follows d (pending ++ buf) frames (decodeLoop fuel buf frames d))
    (hfuel : d.rounds buf ≤ fuel + 1) (hwhole : ¬ SplitPriority (bytes ++ d.buffer) buf) :
    Follows d (bytes ++ d.buffer ++ buf) frames (decodeLoop (fuel + 1) buf frames d) := by
  have hlong : 9 ≤ (bytes ++ d.buffer ++ buf).length := by
    simp only [length_append, nine]
    omega
  have hparse : parseHeader (bytes ++ d.buffer ++ buf) = d.header := by
    rw [append_assoc, parseHeader_append (le_of_eq nine.symm), header]
  obtain ⟨hframe, hpayload, hrest⟩ :=
    framing_payload buf nine header (le_trans (le_of_eq buffered) short)
  have hcomplete : framing.Complete (bytes ++ d.buffer ++ buf) ↔ d.missing ≤ buf.length := by
    rw [Framing.Complete, hframe, missing]
    simp only [length_append, nine, buffered, framing]
    omega
  rw [decodeLoop_payload stage, decodeFramePayload_eq short]
  unfold Follows
  rw [meaning_long hlong, hparse, allow_bind admitted]
  by_cases hblocks : d.continuations.Blocks d.header
  · rw [if_pos hblocks, if_pos (show d.core.continuations.Blocks d.header from hblocks)]
    exact ⟨.err _ rfl, fun h => by cases h⟩
  · rw [if_neg hblocks, if_neg (show ¬ d.core.continuations.Blocks d.header from hblocks)]
    by_cases hmore : buf.length < d.missing
    · have hnot := mt hcomplete.mp (not_le.mpr hmore)
      rw [if_pos hmore, if_neg hnot, Framing.split_of_not_complete hnot]
      simp only [bind_ok, append_nil]
      refine ⟨.ok _ rfl, ?_⟩
      rintro _ _ ⟨⟩
      unfold missing at hmore
      rw [append_assoc]
      exact ⟨.payload stage nine header admitted (by simp [kept, buffered]) (by simp only [kept]; omega), rfl⟩
    · have hle : d.missing ≤ buf.length := Nat.le_of_not_lt hmore
      have hc := hcomplete.mpr hle
      -- A PRIORITY payload is here as a whole.
      have hpriority : d.header.frameType = 2 → d.offset = 0 := by
        intro htype
        by_contra hne
        refine hwhole ⟨?_, ?_, hc⟩
        · rw [length_append, buffered]
          omega
        · rw [parseHeader_append (le_of_eq nine.symm), ← header, htype]
      have hspec := payloadDecoder_spec (buf.take d.missing) buffered hpriority
      rw [if_neg hmore, if_pos hc, hpayload, buffered, Framing.split_of_complete hc, hrest, buffered]
      change Outcome.Related _ _ (((interpret d.header (d.buffer ++ buf.take d.missing) d.core).bind
        _).bind _) ∧ _
      generalize payloadDecoder d.header.frameType (buf.take d.missing) d = x at hspec ⊢
      generalize interpret d.header (d.buffer ++ buf.take d.missing) d.core = y at hspec ⊢
      cases hspec with
      | panic => exact ⟨.panic, fun h => by cases h⟩
      | err e h => exact ⟨.err e h.1, fun h => by cases h⟩
      | @ok frame d' c h =>
        obtain ⟨rfl, hkept⟩ := h
        simp only [bind_ok, finished_eq buffered hkept]
        have hnext : Follows { d' with stage := .header, header := .new, offset := 0, buffer := [] }
            ([] ++ buf.drop d.missing) (frames ++ [frame]) _ :=
          ih (.header rfl rfl (Nat.succ_pos 8))
            (by
              simp only [rounds, stage, length_drop] at hfuel ⊢
              omega)
            (fun h => absurd h.1 (Nat.not_lt_zero 9))
        have hshift : ∀ y : Outcome (Core H) H2Error (List FrameKind),
            (y.bind fun more c => .ok (frame :: more) c).bind (fun more c => .ok (frames ++ more) c) =
              y.bind fun more c => .ok (frames ++ [frame] ++ more) c := by
          intro y
          cases y <;> simp
        rw [hshift, ← hkept.maxFrameSize]
        exact hnext

/-- A call gives the meaning of the stream, unless it completes a PRIORITY frame of
which a part is held. -/
theorem decodeLoop_spec : ∀ {d : FrameDecoder H} {pending buf : List UInt8}
    {frames : List FrameKind}, Holds d pending → d.rounds buf ≤ fuel → ¬ SplitPriority pending buf →
      Follows d (pending ++ buf) frames (decodeLoop fuel buf frames d) := by
  induction fuel with
  | zero =>
    intro d pending buf frames _ hfuel
    unfold rounds at hfuel
    split at hfuel <;> omega
  | succ fuel ih =>
    intro d pending buf frames hholds hfuel hwhole
    cases hholds with
    | header stage buffered short => exact follows_header stage buffered short ih hfuel
    | payload stage nine header admitted buffered short =>
      exact follows_payload stage nine header admitted buffered short ih hfuel hwhole

variable {pending : List UInt8}

theorem decode_spec (hholds : Holds d pending)
    (hwhole : ¬ SplitPriority pending buf) : Follows d (pending ++ buf) [] (decode buf d) := by
  refine decodeLoop_spec hholds ?_ hwhole
  unfold rounds
  split <;> omega

/-- A call that completes a PRIORITY frame of which a part is held fails. -/
theorem decode_split (hholds : Holds d pending)
    (hsplit : SplitPriority pending buf) : ∃ e d', decode buf d = .err e d' := by
  obtain ⟨hlong, htype, hcomplete⟩ := hsplit
  cases hholds with
  | header stage buffered short => omega
  | @payload bytes stage nine header admitted buffered short =>
    obtain ⟨hframe, -, -⟩ :=
      framing_payload buf nine header (le_trans (le_of_eq buffered) short)
    have hle : d.missing ≤ buf.length := by
      have hlength := hcomplete.2
      simp only [length_append, nine] at hlength
      unfold missing
      omega
    rw [parseHeader_append (le_of_eq nine.symm), ← header] at htype
    rw [length_append] at hlong
    rw [decode, decodeLoop_payload stage, decodeFramePayload_eq short]
    split
    · exact ⟨_, _, rfl⟩
    · obtain ⟨e, he⟩ := payloadDecoder_split (buf.take d.missing) htype (by omega)
        (by rw [length_take_of_le hle, missing]; omega)
      rw [if_neg (not_lt.mpr hle), he]
      exact ⟨_, _, rfl⟩

end FrameDecoder

end YlongHttp.H2
