/-
HEADERS frames.

The header block of a HEADERS frame is compressed in pieces of 16384 bytes. The first piece
goes into the HEADERS frame and every other one into a CONTINUATION frame (`blockFrames`).
The encoder holds one piece in its buffer and the rest in the HPACK encoder (`Loaded`), and
`BlockLeft` says what is left to write in every state. A buffer that ends inside a frame is
resumed; before a CONTINUATION frame the encoder waits for a buffer with room for the header.
-/

import YlongHttp.H2.Encoder.Control

namespace YlongHttp.H2

open Rust Codec H2.Hpack Method Outcome List

/-- The frames are a HEADERS frame and CONTINUATION frames that carry a header block, and the
last one of them ends it. -/
structure CarriesBlock (maxFrameSize : Nat) (id : StreamId) (block : List UInt8)
    (frames : List (FrameHeader × List UInt8)) : Prop where
  shape : ∃ first rest, frames = first :: rest ∧ first.1.frameType = FrameType.headers.code ∧
    ∀ f ∈ rest, f.1.frameType = FrameType.continuation.code
  stream : ∀ f ∈ frames, f.1.streamId = id
  length : ∀ f ∈ frames, f.1.payloadLength = f.2.length ∧ f.2.length ≤ maxFrameSize
  block : frames.flatMap (fun f => f.2) = block
  last : ∀ i f, frames[i]? = some f → ((FrameFlags.mk f.1.flags).isEndHeaders = true ↔ i + 1 = frames.length)

namespace FrameEncoder

/-! ### What goes out -/

/-- The part of a block that goes into the next frame. -/
def piece (block : List UInt8) : List UInt8 := block.take headerPayloadBufferSize

/-- The part of a block behind the next frame. -/
def behind (block : List UInt8) : List UInt8 := block.drop headerPayloadBufferSize

theorem length_behind_lt {block : List UInt8} (h : block ≠ []) : (behind block).length < block.length := by
  have hpos : 0 < block.length := length_pos_iff.mpr h
  rw [behind, length_drop, headerPayloadBufferSize]
  omega

/-- The flags of a frame of a block: END_HEADERS only if nothing is behind it. -/
def blockFlags (flags : UInt8) (block : List UInt8) : UInt8 :=
  if behind block = [] then flags else flags &&& 0xFB

/-- The CONTINUATION frames for the rest of a block. -/
def continuationFrames (id : StreamId) (block : List UInt8) : List (FrameHeader × List UInt8) :=
  if block = [] then []
  else
    (⟨id, blockFlags endHeadersMask block, FrameType.continuation.code, (piece block).length⟩, piece block) ::
      continuationFrames id (behind block)
termination_by block.length
decreasing_by exact length_behind_lt ‹_›

theorem continuationFrames_nil (id : StreamId) : continuationFrames id [] = [] := by
  rw [continuationFrames, if_pos rfl]

theorem continuationFrames_cons (id : StreamId) {block : List UInt8} (h : block ≠ []) : continuationFrames id block =
      (⟨id, blockFlags endHeadersMask block, FrameType.continuation.code, (piece block).length⟩,
        piece block) :: continuationFrames id (behind block) := by
  rw [continuationFrames, if_neg h]

/-- The header of the HEADERS frame. -/
def headersHeader (id : StreamId) (flags : FrameFlags) (block : List UInt8) : FrameHeader :=
  ⟨id, blockFlags flags.bits block, FrameType.headers.code, (piece block).length⟩

def blockFrames (id : StreamId) (flags : FrameFlags) (block : List UInt8) : List (FrameHeader × List UInt8) :=
  (headersHeader id flags block, piece block) :: continuationFrames id (behind block)

/-! ### The piece in the buffer -/

/-- The next piece of `block` is in the buffer and the HPACK encoder has the rest. -/
structure Loaded (block : List UInt8) (e : FrameEncoder) : Prop where
  pending : e.hpackEncoder.pending = behind block
  finished : e.hpackEncoder.isFinished = true ↔ behind block = []
  remaining : e.remainingHeaderPayload = (piece block).length
  buffer : e.headerPayloadBuffer.bytes.take e.remainingHeaderPayload = piece block

theorem length_piece (block : List UInt8) : (piece block).length = min block.length headerPayloadBufferSize := by
  rw [piece, length_take, Nat.min_comm]

variable {e : FrameEncoder}

section Blocks

variable {id : StreamId} {flags : FrameFlags} {block : List UInt8}

theorem readRestPayload_eq (h : e.hpackEncoder.pending = block) : ∃ hpackEncoder headerPayloadBuffer,
      readRestPayload e = .ok () { e with
        headerPayloadIndex := 0, hpackEncoder, headerPayloadBuffer, remainingHeaderPayload := (piece block).length } ∧
      Loaded block { e with
        headerPayloadIndex := 0, hpackEncoder, headerPayloadBuffer, remainingHeaderPayload := (piece block).length } := by
  obtain ⟨hpackEncoder, hencode, hpending, -, -, hfinished⟩ :=
    e.hpackEncoder.encode_spec (show 0 < headerPayloadBufferSize by decide)
  rw [h] at hencode hpending hfinished
  rw [← length_piece] at hencode
  change _ = ok ((piece block).length, piece block) _ at hencode
  have hfits : (piece block).length ≤ headerPayloadBufferSize := by
    rw [length_piece]
    exact min_le_right _ _
  refine ⟨hpackEncoder, e.headerPayloadBuffer.overwrite (piece block) hfits, ?_, ?_⟩
  · simp only [readRestPayload, bind_apply, modify_apply, bind_ok, hpackEncode, hencode]
    rw [dif_pos hfits]
    rfl
  · refine ⟨hpending, hfinished.trans drop_eq_nil_iff.symm, rfl, ?_⟩
    exact take_left' rfl

theorem Loaded.length_le (h : Loaded block e) : e.remainingHeaderPayload ≤ headerPayloadBufferSize := by
  rw [h.remaining, length_piece]
  exact min_le_right _ _

theorem writePayload_eq {block buf : List UInt8} {n : Nat} (h : Loaded block e)
    (hindex : e.headerPayloadIndex ≤ e.remainingHeaderPayload)
    (hn : min buf.length (e.remainingHeaderPayload - e.headerPayloadIndex) = n) :
    writePayload buf e.remainingHeaderPayload e =
      .ok (((piece block).drop e.headerPayloadIndex).take n ++ buf.drop n, n)
        { e with headerPayloadIndex := e.headerPayloadIndex + n } := by
  have hle := h.length_le
  have hslice : (e.headerPayloadBuffer.bytes.take (e.headerPayloadIndex + n)).drop e.headerPayloadIndex =
      ((piece block).drop e.headerPayloadIndex).take n := by
    rw [← h.buffer, drop_take, drop_take, take_take, Nat.add_sub_cancel_left, min_eq_left (by omega)]
  have hlength : (((piece block).drop e.headerPayloadIndex).take n).length = n := by
    apply length_take_drop
    rw [← h.remaining]
    omega
  have hbounds : e.headerPayloadIndex + n ≤ e.headerPayloadBuffer.bytes.length := by
    rw [e.headerPayloadBuffer.length_bytes]
    omega
  unfold writePayload
  simp only [bind_apply, get_apply, bind_ok, checkedSub_eq_ok hindex, hn,
    slice_eq_ok (Nat.le_add_right _ n) hbounds, hslice]
  rw [copyFromSlice_eq_ok (by rw [hlength]; omega), hlength]
  rfl

/-! ### What is left -/

/-- The encoder of a HEADERS frame with a piece of its block in the buffer. -/
structure Working (id : StreamId) (flags : FrameFlags) (block : List UInt8) (e : FrameEncoder) : Prop where
  frame : ∃ parts, e.currentFrame = some ⟨id, flags, .headers parts⟩
  size : headerPayloadBufferSize ≤ e.maxFrameSize
  ends : e.isEndHeaders = true
  loaded : Loaded block e

theorem Working.moved (h : Working id flags block e) (state : FrameEncoderState) (index encoded : Nat) :
    Working id flags block { e with state := state, headerPayloadIndex := index, encodedBytes := encoded } :=
  ⟨h.frame, h.size, h.ends, ⟨h.loaded.pending, h.loaded.finished, h.loaded.remaining, h.loaded.buffer⟩⟩

/-- The bytes that an encoder of a HEADERS frame has left to write. -/
inductive BlockLeft (id : StreamId) (flags : FrameFlags) (left : List UInt8) (e : FrameEncoder) : Prop where
  | header (block : List UInt8) (working : Working id flags block e)
      (state : e.state = .encodingHeadersFrame) (encoded : e.encodedBytes < 9)
      (index : e.headerPayloadIndex = 0)
      (left_eq : left = (wire (blockFrames id flags block)).drop e.encodedBytes)
  | payload (block : List UInt8) (working : Working id flags block e)
      (state : e.state = .encodingHeadersPayload)
      (index : e.headerPayloadIndex < e.remainingHeaderPayload)
      (left_eq : left = (piece block).drop e.headerPayloadIndex ++ wire (continuationFrames id (behind block)))
  | continuation (block : List UInt8) (working : Working id flags block e)
      (state : e.state = .encodingContinuationFrames) (index : e.headerPayloadIndex = 0)
      (more : block ≠ []) (left_eq : left = wire (continuationFrames id block))
  | complete (state : e.state = .headersComplete) (left_eq : left = [])

/-- The next thing to write is the header of a CONTINUATION frame. -/
abbrev Continues (e : FrameEncoder) : Prop := e.state = .encodingContinuationFrames

section Rounds

variable {buf : List UInt8}

/-- What comes after some bytes of the payload: more of it, another piece, or the end. -/
theorem headersHeaderStatus_eq (h : Working id flags block e)
    (hindex : e.headerPayloadIndex ≤ e.remainingHeaderPayload) : ∃ e', headersHeaderStatus e = .ok () e' ∧
      BlockLeft id flags ((piece block).drop e.headerPayloadIndex ++ wire (continuationFrames id (behind block))) e' ∧
      (e'.state = .encodingHeadersPayload ∧ e.headerPayloadIndex < e.remainingHeaderPayload ∨
        e'.state = .headersComplete ∨ e'.state = .encodingContinuationFrames) := by
  unfold headersHeaderStatus
  simp only [get_bind]
  split
  next hmore => exact ⟨_, rfl, .payload block (h.moved _ _ _) rfl hmore rfl, .inl ⟨rfl, hmore⟩⟩
  next hmore =>
    have hall : (piece block).drop e.headerPayloadIndex = [] := by
      apply drop_eq_nil_of_le
      rw [← h.loaded.remaining]
      omega
    rw [hall, nil_append]
    split
    next hfinished =>
      rw [h.loaded.finished.mp hfinished]
      refine ⟨_, rfl, .complete rfl ?_, .inr (.inl rfl)⟩
      rw [continuationFrames_nil, wire_nil]
    next hfinished =>
      have hne : behind block ≠ [] := fun hnil => hfinished (h.loaded.finished.mpr hnil)
      obtain ⟨hpackEncoder, headerPayloadBuffer, hread, hloaded⟩ := readRestPayload_eq h.loaded.pending
      simp only [bind_apply, hread, bind_ok]
      refine ⟨_, rfl, .continuation (behind block) ⟨h.frame, h.size, h.ends, ?_⟩ rfl rfl hne rfl, .inr (.inr rfl)⟩
      exact ⟨hloaded.pending, hloaded.finished, hloaded.remaining, hloaded.buffer⟩

/-- The payload is written as far as there is room for it, whatever is counted as encoded. -/
theorem writes_piece (h : Working id flags block e) (buf : List UInt8)
    (hindex : e.headerPayloadIndex ≤ e.remainingHeaderPayload) (encoded : Nat) :
    ∃ n e', n = min buf.length ((piece block).drop e.headerPayloadIndex).length ∧
      writePayload buf e.remainingHeaderPayload e =
        .ok (((piece block).drop e.headerPayloadIndex).take n ++ buf.drop n, n)
          { e with headerPayloadIndex := e.headerPayloadIndex + n } ∧ headersHeaderStatus
        { e with headerPayloadIndex := e.headerPayloadIndex + n, encodedBytes := encoded + n } = .ok () e' ∧
      BlockLeft id flags (((piece block).drop e.headerPayloadIndex ++
        wire (continuationFrames id (behind block))).drop n) e' ∧
      (e'.state = .encodingHeadersPayload ∧ e.headerPayloadIndex + n < e.remainingHeaderPayload ∨
        e'.state = .headersComplete ∨ e'.state = .encodingContinuationFrames) := by
  have hlength : ((piece block).drop e.headerPayloadIndex).length =
      e.remainingHeaderPayload - e.headerPayloadIndex := by
    rw [length_drop, h.loaded.remaining]
  rw [hlength]
  generalize hn : min buf.length (e.remainingHeaderPayload - e.headerPayloadIndex) = n
  obtain ⟨e', hstatus⟩ := headersHeaderStatus_eq (h.moved e.state (e.headerPayloadIndex + n) (encoded + n))
    (show e.headerPayloadIndex + n ≤ e.remainingHeaderPayload by omega)
  refine ⟨n, e', rfl, writePayload_eq h.loaded hindex hn, ?_⟩
  rw [drop_append_of_le_length (by omega), drop_drop]
  exact hstatus

theorem payloadRound (hbuf : buf ≠ []) (h : Working id flags block e) (hstate : e.state = .encodingHeadersPayload)
    (hindex : e.headerPayloadIndex < e.remainingHeaderPayload) : ∃ n e', Round (BlockLeft id flags) Continues 1
      ((piece block).drop e.headerPayloadIndex ++ wire (continuationFrames id (behind block))) buf e n e' := by
  have hpos : 0 < buf.length := length_pos_iff.mpr hbuf
  have hremaining := h.loaded.remaining
  obtain ⟨parts, hframe⟩ := h.frame
  obtain ⟨n, e', hn, hwrite, hstatus, hleft, hcase⟩ := writes_piece h buf (le_of_lt hindex) e.encodedBytes
  have hfits : n ≤ ((piece block).drop e.headerPayloadIndex).length := hn ▸ min_le_right _ _
  rw [length_drop] at hn
  refine ⟨n, e', ⟨?_, by omega, by omega, ?_, hleft, ?_, fun _ => .inl (by omega)⟩⟩
  · have hopen : ¬ buf.isEmpty = true := by
      rw [List.isEmpty_iff]
      exact hbuf
    rw [hstate, take_append_of_le_length hfits]
    change encodeHeadersPayload buf e = _
    rw [encodeHeadersPayload, tryRetrieveCurrentFrame_bind hframe]
    simp only [bind_apply, get_apply, bind_ok, Method.ite_apply, if_neg hopen, hwrite,
      advance, modify_apply, hstatus, pure_apply]
  · rw [length_append]
    exact Nat.le_add_right_of_le hfits
  · intro hsame
    rw [hstate] at hsame
    rcases hcase with ⟨-, hmore⟩ | hcomplete | hcontinuation
    · exact .inl (by omega)
    · rw [hsame] at hcomplete
      cases hcomplete
    · exact .inr (.inr hcontinuation)

variable {octets left : List UInt8} {a n : Nat}

/-- A round that writes octets of a header and the payload as far as there is room for it. -/
theorem frameRound {e' : FrameEncoder} (ha : octets.length = a)
    (hpos : 0 < a) (hroom : a ≤ buf.length) (hn : n = min (buf.drop a).length (piece block).length)
    (heq : encodeState e.state buf e = .ok (octets ++ ((piece block).take n ++ (buf.drop a).drop n), a + n) e')
    (hleft : BlockLeft id flags ((piece block ++ wire (continuationFrames id (behind block))).drop n) e')
    (hstopped : e'.state = e.state → e'.state = .encodingContinuationFrames) : Round (BlockLeft id flags) Continues 1
      (octets ++ (piece block ++ wire (continuationFrames id (behind block)))) buf e (a + n) e' where
  eq := by
    rw [heq, ← ha, take_length_add_append, take_append_of_le_length (by omega), append_assoc, drop_drop]
  least_le := by omega
  fits := by
    rw [length_drop] at hn
    omega
  le_pending := by
    rw [length_append, length_append]
    omega
  next := by
    rw [← drop_drop, drop_left' ha]
    exact hleft
  stopped := fun hsame => .inr (.inr (hstopped hsame))
  moved := fun _ => .inl (by omega)

/-- The rest of a buffer behind the octets that have been written to it. -/
theorem sliceFrom_octets {rest : List UInt8} (ha : octets.length = a) (e : FrameEncoder) :
    (sliceFrom (octets ++ rest) a : Method FrameEncoder FrameEncoderErr _) e = .ok rest e := by
  have hle : a ≤ (octets ++ rest).length := by
    rw [length_append, ha]
    exact Nat.le_add_right _ _
  rw [sliceFrom_eq_ok hle, drop_left' ha]

theorem writeContinuationHeader_eq (hbuf : 9 ≤ buf.length) (id : StreamId) (len : Nat)
    (flags : FrameFlags) (e : FrameEncoder) : writeContinuationHeader id len flags buf e =
      .ok ((⟨id, flags.bits, FrameType.continuation.code, len⟩ : FrameHeader).octets ++ buf.drop 9) e := by
  obtain ⟨b₀, b₁, b₂, b₃, b₄, b₅, b₆, b₇, b₈, rest, rfl⟩ := exists_nine hbuf
  simp [writeContinuationHeader, fillItems, fillRange, setIndex, FrameHeader.octets, octets24, octets32]

/-- END_HEADERS goes on the frame if nothing is behind it. -/
theorem continuationFlags_eq (h : Working id flags block e) :
    (if e.remainingHeaderPayload ≤ e.maxFrameSize ∧ e.hpackEncoder.isFinished = true ∧ e.isEndHeaders = true
      then FrameFlags.empty.setEndHeaders true else FrameFlags.empty).bits = blockFlags endHeadersMask block := by
  have hle : e.remainingHeaderPayload ≤ e.maxFrameSize := le_trans h.loaded.length_le h.size
  unfold blockFlags
  by_cases hnil : behind block = []
  · rw [if_pos ⟨hle, h.loaded.finished.mpr hnil, h.ends⟩, if_pos hnil]
    rfl
  · rw [if_neg fun hall => hnil (h.loaded.finished.mp hall.2.1), if_neg hnil]
    rfl

theorem continuationRound (hbuf : 9 ≤ buf.length)
    (h : Working id flags block e) (hstate : e.state = .encodingContinuationFrames)
    (hindex : e.headerPayloadIndex = 0) (hblock : block ≠ []) : ∃ n e', Round (BlockLeft id flags) Continues 1
      (wire (continuationFrames id block)) buf e n e' := by
  obtain ⟨parts, hframe⟩ := h.frame
  rw [continuationFrames_cons id hblock, wire_cons]
  generalize hheader : (⟨id, blockFlags endHeadersMask block, FrameType.continuation.code,
    (piece block).length⟩ : FrameHeader) = header
  obtain ⟨n, e', hn, hwrite, hstatus, hleft, -⟩ :=
    writes_piece h (buf.drop 9) (hindex.trans_le (Nat.zero_le _)) e.encodedBytes
  rw [hindex] at hwrite hleft hstatus hn
  refine ⟨9 + n, e', frameRound header.length_octets (Nat.succ_pos 8) hbuf hn ?_ hleft fun hsame => hsame.trans hstate⟩
  have hroom : ¬ buf.length < frameHeaderSize := not_lt.mpr hbuf
  have hlen : min e.remainingHeaderPayload e.maxFrameSize = e.remainingHeaderPayload :=
    min_eq_left (le_trans h.loaded.length_le h.size)
  have hoctets : header.octets.length = frameHeaderSize := header.length_octets
  rw [← h.loaded.remaining] at hheader
  rw [hstate]
  change encodeContinuationFrames buf e = _
  rw [encodeContinuationFrames, tryRetrieveCurrentFrame_bind hframe]
  simp only [bind_apply, get_apply, bind_ok, Method.ite_apply, if_neg hroom, hlen,
    writeContinuationHeader_eq hbuf, continuationFlags_eq h, hheader, sliceFrom_octets hoctets,
    take_left' hoctets, hwrite, advance, modify_apply, hstatus, pure_apply]
  rfl

theorem iterateHeadersHeader_eq {parts : Parts}
    (h : Working id flags block e) (hn : e.encodedBytes + n ≤ 9) (hbuf : n ≤ buf.length) :
    iterateHeadersHeader ⟨id, flags, .headers parts⟩ buf n e =
      .ok (((headersHeader id flags block).octets.drop e.encodedBytes).take n ++ buf.drop n) e := by
  have hflags : (if e.hpackEncoder.isFinished = true then flags.bits else flags.bits &&& 0xFB) =
      (headersHeader id flags block).flags := by
    simp only [headersHeader, blockFlags, h.loaded.finished]
  rw [← iterateHeader_eq hn hbuf]
  simp only [iterateHeadersHeader, get_bind, hflags, h.loaded.remaining]
  rfl

theorem headerRound (hbuf : buf ≠ []) (h : Working id flags block e)
    (hstate : e.state = .encodingHeadersFrame) (hk : e.encodedBytes < 9) (hindex : e.headerPayloadIndex = 0) :
    ∃ n e', Round (BlockLeft id flags) Continues 1
      ((wire (blockFrames id flags block)).drop e.encodedBytes) buf e n e' := by
  have hpos : 0 < buf.length := length_pos_iff.mpr hbuf
  obtain ⟨parts, hframe⟩ := h.frame
  have hwire : (wire (blockFrames id flags block)).drop e.encodedBytes =
      (headersHeader id flags block).octets.drop e.encodedBytes ++
        (piece block ++ wire (continuationFrames id (behind block))) := by
    rw [blockFrames, wire_cons, append_assoc, drop_append_of_le_length (by rw [FrameHeader.length_octets]; omega)]
  have hoctets : ((headersHeader id flags block).octets.drop e.encodedBytes).length = 9 - e.encodedBytes := by
    rw [length_drop, FrameHeader.length_octets]
  by_cases hshort : buf.length < 9 - e.encodedBytes
  · -- The buffer ends inside the header.
    have hiterate : iterateHeadersHeader ⟨id, flags, .headers parts⟩ buf buf.length e = _ :=
      iterateHeadersHeader_eq h (by omega) (le_refl _)
    refine ⟨buf.length, { e with encodedBytes := e.encodedBytes + buf.length },
      ⟨?_, hpos, le_refl _, ?_, ?_, fun _ => .inl rfl, fun hmoved => absurd rfl hmoved⟩⟩
    · have hopen : ¬ frameHeaderSize ≤ e.encodedBytes + buf.length := by
        change ¬ 9 ≤ _
        omega
      rw [hstate, hwire, take_append_of_le_length (by omega)]
      change encodeHeadersFrame buf e = _
      rw [encodeHeadersFrame, tryRetrieveCurrentFrame_bind hframe]
      simp only [bind_apply, get_apply, bind_ok, headerBytesToWrite_eq hk,
        min_eq_right (le_of_lt hshort), hiterate, advance, modify_apply, if_neg hopen,
        pure_apply, hstate]
    · rw [hwire, length_append]
      omega
    · exact .header block (h.moved _ _ _) hstate (show e.encodedBytes + buf.length < 9 by omega) hindex
        drop_drop
  · -- The header is out and the payload follows it.
    have hle := Nat.le_of_not_lt hshort
    have hiterate : iterateHeadersHeader ⟨id, flags, .headers parts⟩ buf (9 - e.encodedBytes) e = _ :=
      iterateHeadersHeader_eq h (by omega) hle
    rw [take_of_length_le (le_of_eq hoctets)] at hiterate
    have hdone : frameHeaderSize ≤ e.encodedBytes + (9 - e.encodedBytes) := by
      change 9 ≤ _
      omega
    obtain ⟨n, e', hn, hwrite, hstatus, hleft, hcase⟩ :=
      writes_piece (h.moved e.state e.headerPayloadIndex (e.encodedBytes + (9 - e.encodedBytes)))
        (buf.drop (9 - e.encodedBytes)) (hindex.trans_le (Nat.zero_le _)) (e.encodedBytes + (9 - e.encodedBytes))
    simp only [hindex, drop_zero] at hwrite hleft hstatus hn
    rw [hwire]
    refine ⟨9 - e.encodedBytes + n, e', frameRound hoctets (by omega) hle hn ?_ hleft ?_⟩
    · rw [hstate]
      change encodeHeadersFrame buf e = _
      rw [encodeHeadersFrame, tryRetrieveCurrentFrame_bind hframe]
      simp only [bind_apply, get_apply, bind_ok, headerBytesToWrite_eq hk,
        min_eq_left hle, hiterate, advance, modify_apply, if_pos hdone, sliceFrom_octets hoctets,
        take_left' hoctets, hindex, hwrite, hstatus, pure_apply]
    · intro hsame
      rw [hstate] at hsame
      rcases hcase with ⟨hpayload, -⟩ | hcomplete | hcontinuation
      · rw [hsame] at hpayload
        cases hpayload
      · rw [hsame] at hcomplete
        cases hcomplete
      · exact hcontinuation

theorem tracks_headers : Tracks (BlockLeft id flags) Continues where
  complete := by
    intro left e h hcomplete
    cases h with
    | header _ _ state | payload _ _ state | continuation _ _ state =>
      rw [state] at hcomplete
      cases hcomplete
    | complete _ left_eq => exact left_eq
  round := by
    intro left buf e h hopen hbuf
    cases h with
    | header block working state encoded index left_eq =>
      rw [left_eq]
      obtain ⟨n, e', hround⟩ := headerRound hbuf working state encoded index
      exact ⟨n, e', hround.weaken⟩
    | payload block working state index left_eq =>
      rw [left_eq]
      obtain ⟨n, e', hround⟩ := payloadRound hbuf working state index
      exact ⟨n, e', hround.weaken⟩
    | continuation block working state index more left_eq =>
      by_cases hroom : 9 ≤ buf.length
      · rw [left_eq]
        obtain ⟨n, e', hround⟩ := continuationRound hroom working state index more
        exact ⟨n, e', hround.weaken⟩
      · -- The encoder waits for a buffer with room for the header.
        obtain ⟨parts, hframe⟩ := working.frame
        have hshort : buf.length < frameHeaderSize := Nat.lt_of_not_le hroom
        refine ⟨0, e, ⟨?_, Nat.le_refl 0, Nat.zero_le _, Nat.zero_le _, ?_, fun _ => .inr (.inr state),
          fun hmoved => absurd rfl hmoved⟩⟩
        · rw [state]
          change encodeContinuationFrames buf e = _
          rw [encodeContinuationFrames, tryRetrieveCurrentFrame_bind hframe]
          simp only [Method.ite_apply, if_pos hshort, pure_apply, take_zero, nil_append, drop_zero]
        · exact .continuation block working state index more left_eq
    | complete state =>
      rw [state] at hopen
      cases hopen

/-- What is left and the state of the encoder agree on the end. -/
theorem BlockLeft.complete_iff (h : BlockLeft id flags left e) : e.state = .headersComplete ↔ left = [] := by
  constructor
  · intro hstate
    exact tracks_headers.complete h (by rw [hstate]; rfl)
  · intro hleft
    cases h with
    | header block working state encoded index left_eq =>
      rw [hleft, eq_comm, drop_eq_nil_iff, blockFrames, wire_cons, length_append,
        length_append, FrameHeader.length_octets] at left_eq
      omega
    | payload block working state index left_eq =>
      have hpiece := (append_eq_nil_iff.mp (left_eq.symm.trans hleft)).1
      rw [drop_eq_nil_iff, ← working.loaded.remaining] at hpiece
      exact absurd index (not_lt.mpr hpiece)
    | continuation block working state index more left_eq =>
      rw [hleft, continuationFrames_cons id more] at left_eq
      cases left_eq
    | complete state => exact state

theorem blockLeft_progress (h : BlockLeft id flags left e)
    (hleft : left ≠ []) (hbuf : 9 ≤ buf.length) : e.state.isComplete = false ∧ buf ≠ [] ∧
      ∃ n e', Round (BlockLeft id flags) Continues 1 left buf e n e' := by
  have hne : buf ≠ [] := length_pos_iff.mp (by omega)
  cases h with
  | header block working state encoded index left_eq =>
    rw [left_eq]
    exact ⟨by rw [state]; rfl, hne, headerRound hne working state encoded index⟩
  | payload block working state index left_eq =>
    rw [left_eq]
    exact ⟨by rw [state]; rfl, hne, payloadRound hne working state index⟩
  | continuation block working state index more left_eq =>
    rw [left_eq]
    exact ⟨by rw [state]; rfl, hne, continuationRound hbuf working state index more⟩
  | complete _ left_eq => exact absurd left_eq hleft

end Rounds

/-! ### The frames of a block -/

/-- Exactly the last one of the frames has END_HEADERS. -/
def EndsLast (frames : List (FrameHeader × List UInt8)) : Prop :=
  ∀ i f, frames[i]? = some f → ((FrameFlags.mk f.1.flags).isEndHeaders = true ↔ i + 1 = frames.length)

theorem endsLast_cons {f : FrameHeader × List UInt8} {rest : List (FrameHeader × List UInt8)}
    (hf : (FrameFlags.mk f.1.flags).isEndHeaders = true ↔ rest = []) (hrest : EndsLast rest) :
    EndsLast (f :: rest) := by
  intro i g hg
  rw [length_cons, Nat.add_right_cancel_iff]
  cases i with
  | zero =>
    cases hg
    rw [hf, ← length_eq_zero_iff]
    exact eq_comm
  | succ i => exact hrest i g hg

theorem isEndHeaders_and : ∀ flags : UInt8, (FrameFlags.mk (flags &&& 0xFB)).isEndHeaders = false :=
  forall_byte (by decide +kernel)

theorem isEndHeaders_blockFlags {flags : UInt8} (h : (FrameFlags.mk flags).isEndHeaders = true) (block : List UInt8) :
    (FrameFlags.mk (blockFlags flags block)).isEndHeaders = true ↔ behind block = [] := by
  unfold blockFlags
  split_ifs with hnil
  · exact iff_of_true h hnil
  · rw [isEndHeaders_and]
    exact iff_of_false Bool.false_ne_true hnil

theorem continuationFrames_eq_nil : continuationFrames id block = [] ↔ block = [] := by
  constructor
  · intro h
    by_contra hne
    rw [continuationFrames_cons id hne] at h
    cases h
  · rintro rfl
    exact continuationFrames_nil id

theorem endsLast_continuationFrames (block : List UInt8) : EndsLast (continuationFrames id block) := by
  fun_induction continuationFrames id block with
  | case1 => exact fun i f h => absurd h (by simp)
  | case2 block hne ih =>
    refine endsLast_cons ?_ ih
    rw [continuationFrames_eq_nil]
    exact isEndHeaders_blockFlags (by decide) block

theorem flatMap_continuationFrames (block : List UInt8) :
    (continuationFrames id block).flatMap (fun f => f.2) = block := by
  fun_induction continuationFrames id block with
  | case1 => rfl
  | case2 block hne ih =>
    rw [flatMap_cons, ih]
    exact take_append_drop _ block

/-- What all frames of a block have in common. -/
theorem continuationFrames_spec (block : List UInt8) : ∀ f ∈ continuationFrames id block, f.1.streamId = id ∧
      f.1.frameType = FrameType.continuation.code ∧ f.1.payloadLength = f.2.length ∧
      f.2.length ≤ headerPayloadBufferSize := by
  fun_induction continuationFrames id block with
  | case1 => exact fun f h => absurd h not_mem_nil
  | case2 block hne ih =>
    intro f hf
    rcases mem_cons.mp hf with rfl | hf
    · refine ⟨rfl, rfl, rfl, ?_⟩
      rw [length_piece]
      exact min_le_right _ _
    · exact ih f hf

theorem blockFrames_spec (id : StreamId) (flags : FrameFlags) (block : List UInt8) :
    ∀ f ∈ blockFrames id flags block, f.1.streamId = id ∧ f.1.payloadLength = f.2.length ∧
      f.2.length ≤ headerPayloadBufferSize := by
  intro f hf
  rcases mem_cons.mp hf with rfl | hf
  · refine ⟨rfl, rfl, ?_⟩
    rw [length_piece]
    exact min_le_right _ _
  · obtain ⟨hstream, -, hlength⟩ := continuationFrames_spec _ f hf
    exact ⟨hstream, hlength⟩

theorem carriesBlock_blockFrames {maxFrameSize : Nat} (hsize : headerPayloadBufferSize ≤ maxFrameSize)
    (hends : flags.isEndHeaders = true) (block : List UInt8) :
    CarriesBlock maxFrameSize id block (blockFrames id flags block) where
  shape := ⟨_, _, rfl, rfl, fun f hf => (continuationFrames_spec _ f hf).2.1⟩
  stream := fun f hf => (blockFrames_spec id flags block f hf).1
  length := by
    intro f hf
    obtain ⟨-, hlength, hle⟩ := blockFrames_spec id flags block f hf
    exact ⟨hlength, le_trans hle hsize⟩
  block := by
    rw [blockFrames, flatMap_cons, flatMap_continuationFrames]
    exact take_append_drop _ block
  last := by
    refine endsLast_cons ?_ (endsLast_continuationFrames _)
    rw [continuationFrames_eq_nil]
    exact isEndHeaders_blockFlags hends block

end Blocks

/-! ### Whole runs -/

theorem pending_of_isFinished {e : HpackEncoder} (h : e.isFinished = true) (parts : Parts) :
    (e.setParts parts).pending = (block e.useHuffman e.table parts.fields).1 := by
  have heq := (HpackEncoder.eq_of_isFinished h).1
  generalize e.lastTable = table, e.useHuffman = useHuffman at heq
  subst heq
  exact (HpackEncoder.pending_setParts table useHuffman parts).1

/-- The encoder after a HEADERS frame is set. -/
theorem setFrame_headers (hsize : headerPayloadBufferSize ≤ e.maxFrameSize)
    (hidle : e.hpackEncoder.isFinished = true) (id : StreamId) {flags : FrameFlags}
    (hends : flags.isEndHeaders = true) (parts : Parts) : ∃ e', setFrame ⟨id, flags, .headers parts⟩ e = .ok () e' ∧
      BlockLeft id flags (wire (blockFrames id flags
        (block e.hpackEncoder.useHuffman e.hpackEncoder.table parts.fields).1)) e' := by
  obtain ⟨hpackEncoder, headerPayloadBuffer, hread, hloaded⟩ := readRestPayload_eq
    (e := { e with
      isEndStream := flags.isEndStream
      isEndHeaders := flags.isEndHeaders
      currentFrame := some ⟨id, flags, .headers parts⟩
      encodedBytes := 0
      hpackEncoder := e.hpackEncoder.setParts parts }) (pending_of_isFinished hidle parts)
  refine ⟨{ e with
    isEndStream := flags.isEndStream
    isEndHeaders := flags.isEndHeaders
    currentFrame := some ⟨id, flags, .headers parts⟩
    encodedBytes := 0
    headerPayloadIndex := 0
    hpackEncoder := hpackEncoder
    headerPayloadBuffer := headerPayloadBuffer
    remainingHeaderPayload := _
    state := .encodingHeadersFrame }, ?_, .header _ ⟨⟨parts, rfl⟩, hsize, hends, ⟨hloaded.pending,
      hloaded.finished, rfl, hloaded.buffer⟩⟩ rfl (Nat.zero_lt_succ 8) rfl rfl⟩
  have hnot : ¬ (!flags.isEndHeaders) = true := by
    rw [hends]
    exact Bool.false_ne_true
  simp only [setFrame, bind_apply, modify_apply, get_apply, bind_ok, if_neg hnot, hread]
  rfl

/-- The frames of the block of any HEADERS frame that ends it, through any buffers with room
for a header: the calls write the frames from the front, are complete exactly when all of
them are out, and get there. -/
theorem sends_headers {e : FrameEncoder} (hsize : 16384 ≤ e.maxFrameSize)
    (hidle : e.hpackEncoder.isFinished = true) {id : StreamId} (hid : id.toNat < 2 ^ 31)
    {flags : FrameFlags} (hends : flags.isEndHeaders = true) (parts : Parts) :
    ∃ frames, CarriesBlock e.maxFrameSize id
        (block e.hpackEncoder.useHuffman e.hpackEncoder.table parts.fields).1 frames ∧
      parseFrames (wire frames) = some frames ∧
      ∀ bufs : List (List UInt8), (∀ buf ∈ bufs, 9 ≤ buf.length) →
        ∃ out e', produce ⟨id, flags, .headers parts⟩ bufs e = .ok out e' ∧ out <+: wire frames ∧
          (e'.state = .headersComplete ↔ out = wire frames) ∧
          ((wire frames).length ≤ bufs.length → e'.state = .headersComplete) := by
  obtain ⟨e₀, hset, hleft⟩ := setFrame_headers hsize hidle id hends parts
  generalize (block e.hpackEncoder.useHuffman e.hpackEncoder.table parts.fields).1 = block at hleft ⊢
  refine ⟨blockFrames id flags block, carriesBlock_blockFrames hsize hends block, ?_, ?_⟩
  · refine parseFrames_wire fun f hf => ?_
    obtain ⟨hstream, hlength, hle⟩ := blockFrames_spec id flags block f hf
    have hsmall : headerPayloadBufferSize < 2 ^ 24 := by decide
    exact ⟨hlength.symm, by omega, by rwa [hstream]⟩
  · intro bufs hbufs
    have hne : ∀ buf ∈ bufs, buf ≠ [] := by
      intro buf hbuf
      exact length_pos_iff.mp (lt_of_lt_of_le (by decide) (hbufs buf hbuf))
    have hproduce : produce ⟨id, flags, .headers parts⟩ bufs e = encodeAll bufs e₀ := by
      simp only [produce, bind_apply, hset, bind_ok]
    rw [hproduce]
    obtain ⟨n, e', heq, hn, hnext, -⟩ := encodeAll_spec tracks_headers hleft hne
    refine ⟨_, e', heq, take_prefix _ _, ?_, ?_⟩
    · rw [hnext.complete_iff, drop_eq_nil_iff]
      exact (take_eq_self_iff _).symm
    · intro henough
      obtain ⟨e'', hall, hdone⟩ := encodeAll_of_progress tracks_headers blockLeft_progress hleft
        (fun buf hbuf => ⟨hne buf hbuf, hbufs buf hbuf⟩) henough
      rw [heq] at hall
      obtain ⟨-, rfl⟩ := ok.inj hall
      exact hdone.complete_iff.mpr rfl

/-- A HEADERS frame with the method GET. -/
theorem sends_headers_methodGet :
    ∃ frames, CarriesBlock 16384 1 (block true (.withMaxSize 4096)
        (Parts.mk { PseudoHeaders.new with method := some [71, 69, 84] } ∅).fields).1 frames ∧
      parseFrames (wire frames) = some frames ∧
      ∀ bufs : List (List UInt8), (∀ buf ∈ bufs, 9 ≤ buf.length) →
        ∃ out e', produce ⟨1, ⟨0x5⟩, .headers ⟨{ PseudoHeaders.new with method := some [71, 69, 84] }, ∅⟩⟩
            bufs (.new 16384 true) = .ok out e' ∧ out <+: wire frames ∧
          (e'.state = .headersComplete ↔ out = wire frames) ∧
          ((wire frames).length ≤ bufs.length → e'.state = .headersComplete) :=
  sends_headers (e := .new 16384 true) (by decide) rfl (by decide) (by decide) _

/-- A HEADERS frame without END_HEADERS is refused. -/
theorem headersNotEnd_refused :
    ¬ ∃ out e', produce ⟨1, ⟨0⟩, .headers .new⟩ [List.replicate 9 0] (.new 16384 true) = .ok out e' := by
  rintro ⟨out, e', h⟩
  cases h

end FrameEncoder

end YlongHttp.H2
