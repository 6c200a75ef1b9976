/-
Header blocks and CONTINUATION frames.

`Reach` are the states of a decoder between rounds, with the header block that is open
according to the frames accepted so far. The continuation record of the decoder agrees
with it (`Records`), except that a HEADERS frame that the HPACK layer refused leaves the
decoder stuck behind it. `Respected` is what a payload round has to do about
CONTINUATION frames, and `respected_iff_not_orphan` says that it does so except for a
CONTINUATION frame that comes while no block is open.
-/

import YlongHttp.H2.Decoder.Payload
import YlongHttp.H2.Decoder.Round
import YlongHttp.H2.Hpack.Safety
import YlongHttp.Rust.Triple

namespace YlongHttp.H2.FrameDecoder

open Rust Codec H2.Hpack Method

variable {H : Type} [HpackLayer H]

/-! ### Open blocks -/

/-- An open header block: its stream, and whether a PUSH_PROMISE frame opened it. -/
structure Block where
  streamId : StreamId
  promised : Bool
deriving DecidableEq

/-- The open block after a frame was accepted. -/
def openAfter (block : Option Block) (h : FrameHeader) : Option Block :=
  match h.frameType with
  | 1 => if h.isEndHeaders then none else some ⟨h.streamId, false⟩
  | 5 => if h.isEndHeaders then none else some ⟨h.streamId, true⟩
  | 9 => if h.isEndHeaders then none else block
  | _ => block

/-- The states of a decoder between rounds, on any bytes and also after failed calls,
with the open block. -/
inductive Reach (d₀ : FrameDecoder H) : FrameDecoder H → Option Block → Prop where
  | start : Reach d₀ d₀ none
  | header {d d' : FrameDecoder H} {block : Option Block} {buf remain : List UInt8}
      (before : Reach d₀ d block) (stage : d.stage = .header)
      (round : decodeFrameHeader buf d = .ok (some remain) d') :
      Reach d₀ { d' with stage := .payload } block
  | headerMore {d d' : FrameDecoder H} {block : Option Block} {buf : List UInt8}
      (before : Reach d₀ d block) (stage : d.stage = .header)
      (round : decodeFrameHeader buf d = .ok none d') : Reach d₀ d' block
  | headerFailed {d d' : FrameDecoder H} {block : Option Block} {buf : List UInt8} {e : H2Error}
      (before : Reach d₀ d block) (stage : d.stage = .header)
      (round : decodeFrameHeader buf d = .err e d') : Reach d₀ d' block
  | payload {d d' : FrameDecoder H} {block : Option Block} {buf remain : List UInt8}
      {frame : FrameKind} (before : Reach d₀ d block) (stage : d.stage = .payload)
      (round : decodeFramePayload buf d = .ok (some (remain, frame)) d') :
      Reach d₀ { d' with stage := .header } (openAfter block d.header)
  | payloadMore {d d' : FrameDecoder H} {block : Option Block} {buf : List UInt8}
      (before : Reach d₀ d block) (stage : d.stage = .payload)
      (round : decodeFramePayload buf d = .ok none d') : Reach d₀ d' block
  | payloadFailed {d d' : FrameDecoder H} {block : Option Block} {buf : List UInt8} {e : H2Error}
      (before : Reach d₀ d block) (stage : d.stage = .payload)
      (round : decodeFramePayload buf d = .err e d') : Reach d₀ d' block

variable {d : FrameDecoder H} {block : Option Block} {k : Continuations} {h : FrameHeader} {p buf : List UInt8}
  {frame : FrameKind}

theorem Reach.sound {d₀ : FrameDecoder H} (hs : d₀.Sound) (h : Reach d₀ d block) : d.Sound := by
  induction h with
  | start => exact hs
  | @header d d' block buf remain _ stage round ih =>
    have hround := ih.headerRound stage buf
    rw [round] at hround
    exact hround.1
  | @headerMore d d' block buf _ stage round ih | @headerFailed d d' block buf e _ stage round ih =>
    have hround := ih.headerRound stage buf
    rwa [round] at hround
  | @payload d d' block buf remain frame _ stage round ih =>
    have hround := ih.payloadRound stage buf
    rw [round] at hround
    exact hround.1
  | @payloadMore d d' block buf _ stage round ih | @payloadFailed d d' block buf e _ stage round ih =>
    have hround := ih.payloadRound stage buf
    rwa [round] at hround

/-! ### What frames do to the continuation record -/

/-- The record of the block that a HEADERS frame opens. -/
def headersOpened (k : Continuations) (h : FrameHeader) : Continuations :=
  { k with flags := h.flags, isEndStream := h.isEndStream, isEndHeaders := false
           streamId := h.streamId }

/-- The record of the block that a PUSH_PROMISE frame opens. -/
def pushPromiseOpened (k : Continuations) (h : FrameHeader) (promised : StreamId) : Continuations :=
  { k with flags := h.flags, isEndHeaders := false, streamId := h.streamId
           promisedStreamId := promised }

variable {E : H2Error → Core H → Prop}

theorem hpackDecode_keeps (fragment : List UInt8) (hfail : ∀ e (c : Core H), c.continuations = k → E e c) :
    Triple (fun c : Core H => c.continuations = k) (Core.hpackDecode fragment) (fun _ c => c.continuations = k) E :=
  .onField (fun _ _ h => h) hfail

theorem hpackFinish_keeps (hfail : ∀ e (c : Core H), c.continuations = k → E e c) :
    Triple (fun c : Core H => c.continuations = k) Core.hpackFinish (fun _ c => c.continuations = k) E :=
  .onField (fun _ _ h => h) hfail

/-- A HEADERS frame that is refused by the HPACK layer has opened a block already. -/
theorem interpretHeaders_triple (h : FrameHeader) (p : List UInt8) (k : Continuations) :
    Triple (fun c : Core H => c.continuations = k) (interpretHeaders h p) (fun frame c => h.streamId ≠ 0 ∧
        (h.isEndHeaders = true ∧ c.continuations = k ∧ (∃ parts, frame = h.frame (.headers parts)) ∨
          h.isEndHeaders = false ∧ c.continuations = headersOpened k h ∧ frame = .partial_))
      (fun _ c => c.continuations = k ∨ c.continuations = headersOpened k h) := by
  refine .ite (fun _ => .throw fun _ hc => .inl hc) fun hid => ?_
  refine .ite (fun _ => .panicked) fun _ => ?_
  split
  · exact .throw fun _ hc => .inl hc
  · refine .ite (fun hend => ?_) fun hend => ?_
    · refine (hpackDecode_keeps _ fun _ _ hc => .inl hc).bind fun _ => ?_
      refine (hpackFinish_keeps fun _ _ hc => .inl hc).bind fun parts => ?_
      exact .pure fun c hc => ⟨hid, .inl ⟨hend, hc, parts, rfl⟩⟩
    · rintro c rfl
      refine (hpackDecode_keeps _ fun _ _ hc => .inr hc).bind (fun _ => .pure ?_) _ rfl
      exact fun c hc => ⟨hid, .inr ⟨Bool.eq_false_iff.mpr hend, hc, rfl⟩⟩

theorem interpretPushPromise_triple (h : FrameHeader) (p : List UInt8) (k : Continuations) :
    Triple (fun c : Core H => c.continuations = k) (interpretPushPromise h p) (fun frame c => h.streamId ≠ 0 ∧
        (h.isEndHeaders = true ∧ c.continuations = k ∧ ¬ frame.IsHeaders ∨
          h.isEndHeaders = false ∧ (∃ promised, promised ≠ 0 ∧
            c.continuations = pushPromiseOpened k h promised) ∧ ¬ frame.IsHeaders))
      (fun _ c => c.continuations = k) := by
  refine .ite (fun _ => .throw fun _ hc => hc) fun hid => ?_
  refine .ite (fun _ => .panicked) fun _ => ?_
  refine .ite (fun _ => .throw fun _ hc => hc) fun _ => ?_
  refine (hpackDecode_keeps _ fun _ _ hc => hc).bind fun _ => ?_
  refine .ite (fun _ => .throw fun _ hc => hc) fun hpromised => ?_
  refine .ite (fun hend => ?_) fun hend => ?_
  · refine (hpackFinish_keeps fun _ _ hc => hc).bind fun parts => ?_
    exact .pure fun c hc => ⟨hid, .inl ⟨hend, hc, id⟩⟩
  · rintro c rfl
    exact .ok ⟨hid, .inr ⟨Bool.eq_false_iff.mpr hend, ⟨_, hpromised, rfl⟩, id⟩⟩

theorem interpretContinuation_triple (h : FrameHeader) (p : List UInt8) (k : Continuations) :
    Triple (fun c : Core H => c.continuations = k) (interpretContinuation h p) (fun frame c => h.streamId ≠ 0 ∧
        (h.isEndHeaders = true ∧ c.continuations = .new ∧ (∃ parts, frame = closingFrame k parts) ∨
          h.isEndHeaders = false ∧ c.continuations = k ∧ frame = .partial_)) (fun _ c => c.continuations = k) := by
  refine .ite (fun _ => .throw fun _ hc => hc) fun hid => ?_
  refine .ite (fun hend => ?_) fun hend => ?_
  · refine (hpackDecode_keeps _ fun _ _ hc => hc).bind fun _ => ?_
    refine (hpackFinish_keeps fun _ _ hc => hc).bind fun parts => ?_
    rintro c rfl
    exact .ok ⟨hid, .inl ⟨hend, rfl, parts, rfl⟩⟩
  · refine (hpackDecode_keeps _ fun _ _ hc => hc).bind fun _ => ?_
    exact .pure fun c hc => ⟨hid, .inr ⟨Bool.eq_false_iff.mpr hend, hc, rfl⟩⟩

/-! ### The record agrees with the open block -/

/-- The continuation record of an open block, or of none. -/
inductive Records (k : Continuations) : Option Block → Prop where
  | closed (fresh : k = .new) : Records k none
  | opened {block : Block} (unfinished : k.isEndHeaders = false) (stream : k.streamId = block.streamId)
      (nonzero : block.streamId ≠ 0) (promised : k.promisedStreamId ≠ 0 ↔ block.promised = true) :
      Records k (some block)

/-- Frames other than CONTINUATION frames get through only if no block is open. -/
theorem Records.eq_none (hr : Records k block) (free : ¬ k.Blocks h) (htype : h.frameType ≠ 9) :
    block = none ∧ k = .new := by
  cases hr with
  | closed fresh => exact ⟨rfl, fresh⟩
  | opened unfinished => exact absurd ⟨unfinished, .inr htype⟩ free

/-- CONTINUATION frames get through only on the stream of the open block. -/
theorem Records.stream_eq {block : Block}
    (hr : Records k (some block)) (free : ¬ k.Blocks h) : block.streamId = h.streamId := by
  cases hr with
  | opened unfinished stream =>
    exact stream.symm.trans (by_contra fun hne => free ⟨unfinished, .inl (Ne.symm hne)⟩)

theorem openAfter_of_ne (hheaders : h.frameType ≠ 1) (hpush : h.frameType ≠ 5)
    (hcont : h.frameType ≠ 9) (block : Option Block) : openAfter block h = block := by
  unfold openAfter
  split
  next htype => exact absurd htype hheaders
  next htype => exact absurd htype hpush
  next htype => exact absurd htype hcont
  next => rfl

/-- The record follows the frames that are accepted, and a frame that is refused leaves it
as it is, unless it is a HEADERS frame that then blocks the decoder. -/
theorem Records.interpret {c : Core H} (hlen : p.length = h.payloadLength) (hr : Records c.continuations block)
    (free : ¬ c.continuations.Blocks h) :
    (FrameDecoder.interpret h p c).Ends (fun _ c' => Records c'.continuations (openAfter block h))
      (fun _ c' => Records c'.continuations block ∨ h.frameType ≠ 9 ∧ c'.continuations.isEndHeaders = false) := by
  by_cases hheaders : h.frameType = 1
  · obtain ⟨rfl, hnew⟩ := hr.eq_none free (by simp [hheaders])
    rw [interpret_headers hheaders hlen]
    refine (interpretHeaders_triple h p c.continuations c rfl).mono ?_ ?_
    · rintro _ _ ⟨hid, ⟨hend, hc, -⟩ | ⟨hend, hc, -⟩⟩
      all_goals simp only [openAfter, hheaders]
      · rw [hend, hc]
        exact hr
      · rw [hend, hc]
        exact .opened rfl rfl hid (by simp [headersOpened, hnew, Continuations.new])
    · rintro _ _ (hc | hc)
      · rw [hc]
        exact .inl hr
      · rw [hc]
        exact .inr ⟨by simp [hheaders], rfl⟩
  by_cases hpush : h.frameType = 5
  · obtain ⟨rfl, hnew⟩ := hr.eq_none free (by simp [hpush])
    rw [interpret_pushPromise hpush hlen]
    refine (interpretPushPromise_triple h p c.continuations c rfl).mono ?_ fun _ _ herr => .inl (herr ▸ hr)
    rintro _ _ ⟨hid, ⟨hend, hc, -⟩ | ⟨hend, ⟨promised, hne, hc⟩, -⟩⟩
    all_goals simp only [openAfter, hpush]
    · rw [hend, hc]
      exact hr
    · rw [hend, hc]
      exact .opened rfl rfl hid (by simp [pushPromiseOpened, hne])
  by_cases hcont : h.frameType = 9
  · rw [interpret_continuation hcont]
    refine (interpretContinuation_triple h p c.continuations c rfl).mono ?_ fun _ _ herr => .inl (herr ▸ hr)
    rintro _ _ ⟨hid, ⟨hend, hc, -⟩ | ⟨hend, hc, -⟩⟩
    all_goals simp only [openAfter, hcont]
    · rw [hend, hc]
      exact .closed rfl
    · rw [hend, hc]
      exact hr
  rw [openAfter_of_ne hheaders hpush hcont]
  rcases interpret_cases hlen hheaders hpush hcont c with ⟨frame, heq, -⟩ | ⟨e, heq⟩
  · rw [heq]
    exact .ok hr
  · rw [heq]
    exact .err (.inl hr)

/-- A decoder behind a HEADERS frame that the HPACK layer refused: it refuses everything
from then on. -/
def Stuck (d : FrameDecoder H) : Prop :=
  d.stage = .payload ∧ d.header.frameType ≠ 9 ∧ d.continuations.isEndHeaders = false

def Agrees (d : FrameDecoder H) (block : Option Block) : Prop :=
  Records d.continuations block ∨ d.Stuck

omit [HpackLayer H] in
theorem Agrees.of_header (ha : d.Agrees block) (hstage : d.stage = .header) : Records d.continuations block := by
  rcases ha with hr | ⟨hpayload, -, -⟩
  · exact hr
  · exact absurd (hstage.symm.trans hpayload) (by decide)

omit [HpackLayer H] in
theorem decodeFrameHeader_continuations (hs : d.Sound) (hstage : d.stage = .header) (buf : List UInt8) :
    (decodeFrameHeader buf d).Ends (fun _ d' => d'.continuations = d.continuations)
      (fun _ d' => d'.continuations = d.continuations) := by
  obtain ⟨short, buffered, -⟩ := hs.of_header hstage
  have hround := headerRound short buffered buf
  generalize decodeFrameHeader buf d = x at hround
  cases hround with
  | more => exact .ok rfl
  | tooLarge => exact .err (congrArg Core.continuations (core_headerMerged d buf))
  | complete =>
    refine .ok ?_
    unfold cleared
    split <;> rfl

theorem Agrees.payloadRound (ha : d.Agrees block)
    (hs : d.Sound) (hstage : d.stage = .payload) (buf : List UInt8) :
    (decodeFramePayload buf d).Ends
      (fun result d' =>
        match result with
        | none => Agrees d' block
        | some _ => Records d'.continuations (openAfter block d.header))
      (fun _ d' => Agrees d' block) := by
  obtain ⟨buffered, short⟩ := hs.of_payload hstage
  rcases ha with hr | ⟨-, htype, hopen⟩
  · have hround := FrameDecoder.payloadRound buffered short buf
    have hmeaning : d.missing ≤ buf.length → ¬ d.continuations.Blocks d.header → _ :=
      fun long free => Records.interpret (c := d.core) (length_whole buffered short long) hr free
    generalize decodeFramePayload buf d = x at hround
    cases hround with
    | blocked | splitPriority => exact .err (.inl hr)
    | more => exact .ok (.inl hr)
    | complete free long hkept meaning =>
      refine .ok ?_
      rw [finished_eq buffered hkept]
      exact (hmeaning long free).of_ok meaning
    | refused free long hkept meaning =>
      rcases (hmeaning long free).of_err meaning with hr' | ⟨htype, hopen⟩
      · exact .err (.inl hr')
      · exact .err (.inr ⟨hkept.stage.trans hstage, hkept.header ▸ htype, hopen⟩)
    | panicked => exact .panic
  · rw [decodeFramePayload_eq short, if_pos ⟨hopen, .inr htype⟩]
    exact .err (.inr ⟨hstage, htype, hopen⟩)

theorem Reach.agrees {d₀ : FrameDecoder H} (hs : d₀.Sound)
    (hfresh : d₀.continuations = .new) (h : Reach d₀ d block) : d.Agrees block := by
  induction h with
  | start => exact .inl (.closed hfresh)
  | @header d d' block buf remain before stage round ih | @headerMore d d' block buf before stage round ih =>
    have hsame := (decodeFrameHeader_continuations (before.sound hs) stage buf).of_ok round
    exact .inl (hsame ▸ ih.of_header stage)
  | @headerFailed d d' block buf e before stage round ih =>
    have hsame := (decodeFrameHeader_continuations (before.sound hs) stage buf).of_err round
    exact .inl (hsame ▸ ih.of_header stage)
  | @payload d d' block buf remain frame before stage round ih =>
    exact .inl ((ih.payloadRound (before.sound hs) stage buf).of_ok round)
  | @payloadMore d d' block buf before stage round ih =>
    exact (ih.payloadRound (before.sound hs) stage buf).of_ok round
  | @payloadFailed d d' block buf e before stage round ih =>
    exact (ih.payloadRound (before.sound hs) stage buf).of_err round

/-! ### CONTINUATION frames -/

/-- What a payload round has to do about CONTINUATION frames while `block` is open. -/
structure Respected (d : FrameDecoder H) (block : Option Block) (buf : List UInt8) : Prop where
  accepted : d.header.frameType = 9 → ∀ {remain frame d'},
    decodeFramePayload buf d = .ok (some (remain, frame)) d' → ∃ b, block = some b ∧ b.streamId = d.header.streamId
  refused : d.header.frameType = 9 → d.missing ≤ buf.length →
    (¬ ∃ b, block = some b ∧ b.streamId = d.header.streamId) →
      ∃ code d', decodeFramePayload buf d = .err (.connectionError code) d'
  headers : ∀ {remain id flags parts d'},
    decodeFramePayload buf d = .ok (some (remain, .complete ⟨id, flags, .headers parts⟩)) d' →
      id ≠ 0 ∧ (d.header.frameType = 1 ∧ id = d.header.streamId ∨ block = some ⟨id, false⟩)

/-- The HPACK decoder fails on the fragment of a CONTINUATION frame. -/
def HpackRefuses (hpack : HpackDecoder) (h : FrameHeader) (fragment : List UInt8) : Prop :=
  ∃ e hpack', (do
    HpackDecoder.decode fragment
    if h.isEndHeaders then
      let _ ← HpackDecoder.finish : Method HpackDecoder H2Error Unit) hpack = .err e hpack'

/-- A complete CONTINUATION frame that the HPACK decoder does not refuse, while no header
block is recorded as open. -/
def Orphan (d : FrameDecoder HpackDecoder) (buf : List UInt8) : Prop :=
  d.header.frameType = 9 ∧ d.missing ≤ buf.length ∧ d.continuations.isEndHeaders = true ∧
    d.header.streamId ≠ 0 ∧ ¬ HpackRefuses d.hpack d.header (d.whole buf)

/-- A CONTINUATION frame fails with the HPACK decoder, and on stream 0. -/
theorem interpretContinuation_err_iff (h : FrameHeader) (p : List UInt8) (c : Core HpackDecoder) :
    (∃ e c', interpretContinuation h p c = .err e c') ↔ h.streamId = 0 ∨ HpackRefuses c.hpack h p := by
  unfold interpretContinuation HpackRefuses Core.hpackDecode Core.hpackFinish
  by_cases hid : h.streamId = 0
  · simp [hid]
  · by_cases hend : h.isEndHeaders = true
    · simp only [hid, hend, if_true, if_false, false_or, bind_apply, onField,
        HpackLayer.hpackDecode, HpackLayer.hpackFinish]
      cases c.hpack.decode p with
      | ok u s => cases hfinish : HpackDecoder.finish s <;> simp [hfinish, Core.setContinuations]
      | err | panic => simp
    · simp only [hid, hend, if_false, false_or, bind_apply, HpackLayer.hpackDecode]
      cases hdecode : c.hpack.decode p <;> simp [onField, hdecode]

theorem interpretContinuation_error {c c' : Core HpackDecoder}
    {e : H2Error} (herr : interpretContinuation h p c = .err e c') : e.IsConnectionError := by
  have htriple : Triple (fun _ => True) (interpretContinuation h p)
      (fun _ (_ : Core HpackDecoder) => True) (fun e _ => e.IsConnectionError) := by
    have hlayer : ∀ {α : Type} {m : Method HpackDecoder H2Error α},
        (∀ {s e s'}, m s = .err e s' → e.IsConnectionError) →
        Triple (fun _ => True) (onField (·.hpack) (fun h c => { c with hpack := h }) m)
          (fun _ (_ : Core HpackDecoder) => True) (fun e _ => e.IsConnectionError) := by
      intro α m hm c _
      simp only [onField]
      cases hcall : m c.hpack with
      | ok => exact .ok trivial
      | err => exact .err (hm hcall)
      | panic => exact .panic
    refine .ite (fun _ => .throw fun _ _ => ⟨_, rfl⟩) fun _ => ?_
    refine .ite (fun _ => (hlayer decodeLoop_error).bind fun _ => (hlayer finish_error).bind fun _ => ?_)
      fun _ => (hlayer decodeLoop_error).bind fun _ => .pure fun _ _ => trivial
    exact fun _ _ => .ok trivial
  exact (htriple c trivial).of_err herr

/-- A payload round on a complete frame that is not blocked. -/
theorem decodeFramePayload_ok {d' : FrameDecoder H} (hs : d.Sound) (hstage : d.stage = .payload) {remain : List UInt8}
    (h : decodeFramePayload buf d = .ok (some (remain, frame)) d') :
    ¬ d.continuations.Blocks d.header ∧ d.missing ≤ buf.length ∧
      ∃ c', interpret d.header (d.whole buf) d.core = .ok frame c' := by
  obtain ⟨buffered, short⟩ := hs.of_payload hstage
  have hround := payloadRound buffered short buf
  rw [h] at hround
  cases hround with
  | complete free long _ meaning => exact ⟨free, long, _, meaning⟩

/-- Which frames are complete HEADERS frames. -/
theorem interpret_isHeaders {c c' : Core H}
    (hlen : p.length = h.payloadLength) (hmeaning : interpret h p c = .ok frame c') (hframe : frame.IsHeaders) :
    h.streamId ≠ 0 ∧ (h.frameType = 1 ∧ (∃ parts, frame = h.frame (.headers parts)) ∨
        h.frameType = 9 ∧ ∃ parts, frame = closingFrame c.continuations parts) := by
  by_cases hheaders : h.frameType = 1
  · rw [interpret_headers hheaders hlen] at hmeaning
    rcases (interpretHeaders_triple h p c.continuations c rfl).of_ok hmeaning with ⟨hid, ⟨-, -, hparts⟩ | ⟨-, -, rfl⟩⟩
    · exact ⟨hid, .inl ⟨hheaders, hparts⟩⟩
    · exact hframe.elim
  by_cases hpush : h.frameType = 5
  · rw [interpret_pushPromise hpush hlen] at hmeaning
    rcases (interpretPushPromise_triple h p c.continuations c rfl).of_ok hmeaning with ⟨-, ⟨-, -, hnot⟩ | ⟨-, -, hnot⟩⟩
    all_goals exact absurd hframe hnot
  by_cases hcont : h.frameType = 9
  · rw [interpret_continuation hcont] at hmeaning
    rcases (interpretContinuation_triple h p c.continuations c rfl).of_ok hmeaning with ⟨hid, ⟨-, -, hparts⟩ | ⟨-, -, rfl⟩⟩
    · exact ⟨hid, .inr ⟨hcont, hparts⟩⟩
    · exact hframe.elim
  rcases interpret_cases hlen hheaders hpush hcont c with ⟨frame', heq, hnot⟩ | ⟨e, heq⟩
  · rw [heq] at hmeaning
    cases hmeaning
    exact absurd hframe hnot
  · rw [heq] at hmeaning
    cases hmeaning

theorem Orphan.not_refused {d : FrameDecoder HpackDecoder} (hs : d.Sound)
    (hstage : d.stage = .payload) (h : d.Orphan buf) (code : ErrorCode) (d' : FrameDecoder HpackDecoder) :
    decodeFramePayload buf d ≠ .err (.connectionError code) d' := by
  obtain ⟨htype, long, hclosed, hid, hnot⟩ := h
  obtain ⟨buffered, short⟩ := hs.of_payload hstage
  have hround := payloadRound buffered short buf
  generalize decodeFramePayload buf d = x at hround
  rintro rfl
  cases hround with
  | blocked blocks => exact absurd (hclosed.symm.trans blocks.1) (by decide)
  | splitPriority _ _ priority => exact absurd (htype.symm.trans priority) (by decide)
  | refused free _ _ meaning =>
    rw [interpret_continuation htype] at meaning
    rcases (interpretContinuation_err_iff _ _ _).mp ⟨_, _, meaning⟩ with hzero | hrefuses
    · exact hid hzero
    · exact hnot hrefuses

/-- A CONTINUATION frame that does not belong to the open block, and does not fail, is an
orphan. -/
theorem orphan_of_not_err {d : FrameDecoder HpackDecoder}
    (hr : Records d.continuations block) (free : ¬ d.continuations.Blocks d.header)
    (long : d.missing ≤ buf.length) (htype : d.header.frameType = 9)
    (hnone : ¬ ∃ b, block = some b ∧ b.streamId = d.header.streamId)
    (hmeaning : ∀ e c', interpret d.header (d.whole buf) d.core ≠ .err e c') : d.Orphan buf := by
  cases block with
  | some b => exact absurd ⟨b, rfl, hr.stream_eq free⟩ hnone
  | none =>
    have hclosed : d.continuations.isEndHeaders = true := by
      cases hr with
      | closed fresh => rw [fresh]; rfl
    rw [interpret_continuation htype] at hmeaning
    have hrefused := mt (interpretContinuation_err_iff d.header (d.whole buf) d.core).mpr
      fun ⟨e, c', herr⟩ => hmeaning e c' herr
    rw [not_or] at hrefused
    exact ⟨htype, long, hclosed, hrefused⟩

/-- Without orphans a CONTINUATION frame is accepted only on the stream of the open
block. -/
theorem block_of_accepted {d d' : FrameDecoder HpackDecoder}
    {remain : List UInt8} (hs : d.Sound) (hstage : d.stage = .payload)
    (hr : Records d.continuations block) (hno : ¬ d.Orphan buf) (htype : d.header.frameType = 9)
    (h : decodeFramePayload buf d = .ok (some (remain, frame)) d') :
    ∃ b, block = some b ∧ b.streamId = d.header.streamId := by
  obtain ⟨free, long, c', meaning⟩ := decodeFramePayload_ok hs hstage h
  by_contra hnone
  refine hno (orphan_of_not_err hr free long htype hnone fun e c'' herr => ?_)
  rw [meaning] at herr
  cases herr

theorem closingFrame_headers {id : StreamId} {flags : FrameFlags}
    {parts parts' : Parts} (h : .complete ⟨id, flags, .headers parts⟩ = closingFrame k parts') :
    k.streamId = id ∧ k.promisedStreamId = 0 := by
  unfold closingFrame at h
  split at h
  next => cases h
  next hpromised =>
    cases h
    exact ⟨rfl, not_ne_iff.mp hpromised⟩

/-- In every reachable state a CONTINUATION frame is treated as it should be, unless it is
one that comes while no block is open and the HPACK decoder takes it. -/
theorem respected_iff_not_orphan {maxFrameSize : UInt32} {maxHeaderListSize : Nat}
    {d₀ d : FrameDecoder HpackDecoder} {block : Option Block}
    (hfresh : configured maxFrameSize maxHeaderListSize = .ok () d₀) (hreach : Reach d₀ d block)
    (hstage : d.stage = .payload) (buf : List UInt8) : d.Respected block buf ↔ ¬ d.Orphan buf := by
  have hs : d.Sound := hreach.sound (sound_configured hfresh)
  obtain ⟨buffered, short⟩ := hs.of_payload hstage
  constructor
  · intro hrespected horphan
    obtain ⟨htype, long, hclosed, hid, hnot⟩ := id horphan
    have hagrees := hreach.agrees (sound_configured hfresh) (by rw [configured_eq hfresh]; rfl)
    have hnone : ¬ ∃ b, block = some b ∧ b.streamId = d.header.streamId := by
      rintro ⟨b, rfl, -⟩
      rcases hagrees with hr | ⟨-, hne, -⟩
      · cases hr with
        | opened unfinished => exact absurd (hclosed.symm.trans unfinished) (by decide)
      · exact hne htype
    obtain ⟨code, d', herr⟩ := hrespected.refused htype long hnone
    exact horphan.not_refused hs hstage code d' herr
  · intro hno
    have hround := payloadRound buffered short buf
    rcases hreach.agrees (sound_configured hfresh) (by rw [configured_eq hfresh]; rfl) with
      hr | ⟨-, hne, hopen⟩
    · refine ⟨fun htype => block_of_accepted hs hstage hr hno htype, ?_, ?_⟩
      · intro htype long hnone
        generalize hx : decodeFramePayload buf d = x at hround
        cases hround with
        | blocked => exact ⟨_, _, rfl⟩
        | more _ hmore => exact absurd long (Nat.not_le.mpr hmore)
        | splitPriority _ _ priority => exact absurd (htype.symm.trans priority) (by decide)
        | complete => exact absurd (block_of_accepted hs hstage hr hno htype hx) hnone
        | refused _ _ _ meaning =>
          rw [interpret_continuation htype] at meaning
          obtain ⟨code, rfl⟩ := interpretContinuation_error meaning
          exact ⟨code, _, rfl⟩
        | panicked free _ meaning =>
          refine absurd (orphan_of_not_err hr free long htype hnone fun e c' herr => ?_) hno
          rw [meaning] at herr
          cases herr
      · intro remain id flags parts d' hok
        obtain ⟨free, long, c', meaning⟩ := decodeFramePayload_ok hs hstage hok
        rcases interpret_isHeaders (length_whole buffered short long) meaning trivial with
          ⟨hid, ⟨htype, parts', heq⟩ | ⟨htype, parts', heq⟩⟩
        · cases heq
          exact ⟨hid, .inl ⟨htype, rfl⟩⟩
        · obtain ⟨⟨stream, promised⟩, rfl, -⟩ := block_of_accepted hs hstage hr hno htype hok
          obtain ⟨hstream, hzero⟩ := closingFrame_headers heq
          cases hr with
          | opened _ hrecord hnonzero hpromised =>
            obtain rfl : stream = id := hrecord.symm.trans hstream
            obtain rfl : promised = false :=
              Bool.eq_false_iff.mpr fun hp => hpromised.mpr hp hzero
            exact ⟨hnonzero, .inr rfl⟩
    · refine ⟨fun htype => absurd htype hne, fun htype => absurd htype hne, ?_⟩
      intro remain id flags parts d' hok
      obtain ⟨free, -, -⟩ := decodeFramePayload_ok hs hstage hok
      exact absurd ⟨hopen, .inr hne⟩ free

/-- A HEADERS frame of one byte, on a fresh decoder that has read its header. -/
theorem respected_iff_oneByteHeaders : ∃ d₀ d, configured 16384 16384 = .ok () d₀ ∧
    Reach d₀ d none ∧ d.stage = .payload ∧ (d.Respected none [0x82] ↔ ¬ d.Orphan [0x82]) := by
  have hround : decodeFrameHeader [0, 0, 1, 1, 4, 0, 0, 0, 1] { new with
      hpack := HpackDecoder.withMaxSize defaultHeaderTableSize 16384 } = .ok (some []) _ := rfl
  have hreach := Reach.start.header rfl hround
  refine ⟨_, _, ?fresh, hreach, rfl, respected_iff_not_orphan ?fresh hreach rfl _⟩
  rfl

/-- A CONTINUATION frame as the first frame of a connection is accepted, and is reported
as a HEADERS frame on stream 0. -/
theorem not_respected_firstContinuation : ∃ d₀ d d' flags parts,
    configured 16384 16384 = .ok () d₀ ∧ Reach d₀ d none ∧ d.header.frameType = 9 ∧
      decode [0, 0, 0, 9, 4, 0, 0, 0, 1] d₀ = .ok [.complete ⟨0, flags, .headers parts⟩] d' ∧
        ¬ d.Respected none [] := by
  have hround : decodeFrameHeader [0, 0, 0, 9, 4, 0, 0, 0, 1] { new with
      hpack := HpackDecoder.withMaxSize defaultHeaderTableSize 16384 } = .ok (some []) _ := rfl
  have hreach := Reach.start.header rfl hround
  refine ⟨_, _, _, _, _, rfl, hreach, rfl, rfl, fun hrespected => ?_⟩
  obtain ⟨b, hb, -⟩ := hrespected.accepted rfl rfl
  cases hb

end YlongHttp.H2.FrameDecoder
