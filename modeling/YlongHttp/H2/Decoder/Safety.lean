/-
When the frame decoder panics.

A sound decoder panics in no header round. It panics in a payload round exactly if the
payload is `Harmful`: the payload of a HEADERS or PUSH_PROMISE frame is announced as
padded but is empty, or the bytes that go to the HPACK decoder bring it to a harmful
field.
-/

import YlongHttp.H2.Decoder.Payload
import YlongHttp.H2.Decoder.Round
import YlongHttp.H2.Hpack.Safety

namespace YlongHttp.H2.FrameDecoder

open Rust Codec H2.Hpack Outcome

/-- A payload that makes the decoder panic. -/
def Harmful (h : FrameHeader) (p : List UInt8) (hpack : HpackDecoder) : Prop :=
  h.streamId ≠ 0 ∧ match h.frameType with
    | 1 => MissingPadLength h p ∨
        ∃ fragment, fragment? h (if h.isHeadersPriority then 5 else 0) p = some fragment ∧ ¬ hpack.Safe fragment
    | 5 => MissingPadLength h p ∨ (fragment? h 4 p ≠ none ∧ ¬ hpack.Safe p)
    | 9 => ¬ hpack.Safe p
    | _ => False

theorem core_hpackDecode_eq_panic (fragment : List UInt8) (c : Core HpackDecoder) :
    Core.hpackDecode fragment c = .panic ↔ ¬ c.hpack.Safe fragment := by
  rw [← decode_eq_panic, Core.hpackDecode, Method.onField, mapState_eq_panic]
  rfl

variable (h : FrameHeader) (p : List UInt8) (c : Core HpackDecoder)

theorem core_hpackFinish_ne_panic : Core.hpackFinish c ≠ .panic := by
  rw [Core.hpackFinish, Method.onField, Ne, mapState_eq_panic]
  exact finish_ne_panic c.hpack

/-- What follows the bytes that go to the HPACK decoder does not panic. -/
theorem hpackDecode_bind_eq_panic {fragment : List UInt8} {c : Core HpackDecoder}
    {next : Method (Core HpackDecoder) H2Error FrameKind} (hnext : ∀ c, next c ≠ .panic) :
    (Core.hpackDecode fragment >>= fun _ => next) c = .panic ↔ ¬ c.hpack.Safe fragment := by
  rw [Method.bind_apply, bind_eq_panic, core_hpackDecode_eq_panic]
  refine ⟨?_, .inl⟩
  rintro (h | ⟨_, c', -, h⟩)
  · exact h
  · exact absurd h (hnext c')

theorem finish_bind_ne_panic {f : Parts → Method (Core HpackDecoder) H2Error FrameKind}
    (hf : ∀ parts c, f parts c ≠ .panic) (c : Core HpackDecoder) : (Core.hpackFinish >>= f) c ≠ .panic := by
  rw [Method.bind_apply, Ne, bind_eq_panic]
  rintro (h | ⟨parts, c', -, h⟩)
  · exact core_hpackFinish_ne_panic c h
  · exact hf parts c' h

theorem interpretHeaders_eq_panic : interpretHeaders h p c = .panic ↔ h.streamId ≠ 0 ∧ (MissingPadLength h p ∨
        ∃ fragment, fragment? h (if h.isHeadersPriority then 5 else 0) p = some fragment ∧
          ¬ c.hpack.Safe fragment) := by
  unfold interpretHeaders
  by_cases hid : h.streamId = 0
  · simp [hid]
  · by_cases hmissing : MissingPadLength h p
    · simp [hid, hmissing]
    · rw [if_neg hid, if_neg hmissing]
      cases hfragment : fragment? h (if h.isHeadersPriority then 5 else 0) p with
      | none => simp [hmissing]
      | some fragment =>
        simp only [ne_eq, hid, not_false_eq_true, hmissing, Option.some.injEq, exists_eq_left', false_or, true_and]
        split
        · exact hpackDecode_bind_eq_panic fun c => finish_bind_ne_panic (fun _ _ h => by cases h) c
        · exact hpackDecode_bind_eq_panic fun _ h => by cases h

theorem framePushPromise_ne_panic (id : StreamId) (c : Core HpackDecoder) : framePushPromise h id c ≠ .panic := by
  unfold framePushPromise
  split
  · exact finish_bind_ne_panic (fun _ _ h => by cases h) c
  · exact fun h => by cases h

theorem interpretPushPromise_eq_panic : interpretPushPromise h p c = .panic ↔
      h.streamId ≠ 0 ∧ (MissingPadLength h p ∨ (fragment? h 4 p ≠ none ∧ ¬ c.hpack.Safe p)) := by
  unfold interpretPushPromise
  by_cases hid : h.streamId = 0
  · simp [hid]
  · by_cases hmissing : MissingPadLength h p
    · simp [hid, hmissing]
    · by_cases hfragment : fragment? h 4 p = none
      · simp [hid, hmissing, hfragment]
      · rw [if_neg hid, if_neg hmissing, if_neg hfragment, hpackDecode_bind_eq_panic]
        · simp [hid, hmissing, hfragment]
        · intro c
          split
          · exact fun h => by cases h
          · exact framePushPromise_ne_panic h _ c

theorem interpretContinuation_eq_panic :
    interpretContinuation h p c = .panic ↔ h.streamId ≠ 0 ∧ ¬ c.hpack.Safe p := by
  unfold interpretContinuation
  by_cases hid : h.streamId = 0
  · simp [hid]
  · simp only [ne_eq, hid, not_false_eq_true, true_and, if_false]
    split
    · rw [hpackDecode_bind_eq_panic]
      exact fun c => finish_bind_ne_panic (fun _ _ h => by cases h) c
    · exact hpackDecode_bind_eq_panic fun _ h => by cases h

theorem interpret_eq_panic {h : FrameHeader} {p : List UInt8} (hlen : p.length = h.payloadLength)
    (c : Core HpackDecoder) : interpret h p c = .panic ↔ Harmful h p c.hpack := by
  unfold Harmful
  split
  next htype => rw [interpret_headers htype hlen, interpretHeaders_eq_panic]
  next htype => rw [interpret_pushPromise htype hlen, interpretPushPromise_eq_panic]
  next htype => rw [interpret_continuation htype, interpretContinuation_eq_panic]
  next hheaders hpush hcont =>
    rcases interpret_cases hlen hheaders hpush hcont c with ⟨frame, heq, -⟩ | ⟨e, heq⟩
    · simp [heq]
    · simp [heq]

/-! ### Calls -/

/-- A payload round that comes to a harmful payload. -/
def HarmfulRound (d : FrameDecoder HpackDecoder) (buf : List UInt8) : Prop :=
  ¬ d.continuations.Blocks d.header ∧ d.missing ≤ buf.length ∧ Harmful d.header (d.whole buf) d.hpack

theorem decodeFramePayload_eq_panic {d : FrameDecoder HpackDecoder} (hs : d.Sound)
    (hstage : d.stage = .payload) (buf : List UInt8) : decodeFramePayload buf d = .panic ↔ HarmfulRound d buf := by
  obtain ⟨buffered, short⟩ := hs.of_payload hstage
  have hround := payloadRound buffered short buf
  have hmeaning : d.missing ≤ buf.length →
      (interpret d.header (d.whole buf) d.core = .panic ↔ Harmful d.header (d.whole buf) d.hpack) :=
    fun long => interpret_eq_panic (length_whole buffered short long) d.core
  unfold HarmfulRound
  generalize decodeFramePayload buf d = x at hround ⊢
  cases hround with
  | blocked blocks => simp [blocks]
  | more free hmore => simp [Nat.not_le.mpr hmore]
  | splitPriority free long priority e => simp [Harmful, priority]
  | complete free long hkept meaning | refused free long hkept meaning => simp [← hmeaning long, meaning]
  | panicked free long meaning => simp [free, long, ← hmeaning long, meaning]

/-- No round of a call comes to a harmful payload. -/
def SafeRounds : Nat → FrameDecoder HpackDecoder → List UInt8 → Prop
  | 0, _, _ => True
  | fuel + 1, d, buf =>
    match d.stage with
    | .header =>
      ∀ remain d', decodeFrameHeader buf d = .ok (some remain) d' → SafeRounds fuel { d' with stage := .payload } remain
    | .payload =>
      ¬ HarmfulRound d buf ∧
        ∀ remain frame d', decodeFramePayload buf d = .ok (some (remain, frame)) d' →
          SafeRounds fuel { d' with stage := .header } remain

def Safe (d : FrameDecoder HpackDecoder) (buf : List UInt8) : Prop :=
  SafeRounds (2 * buf.length + 2) d buf

theorem decodeLoop_eq_panic {fuel : Nat} :
    ∀ {d : FrameDecoder HpackDecoder} {buf : List UInt8} {frames : List FrameKind}, d.Sound → d.rounds buf ≤ fuel →
      (decodeLoop fuel buf frames d = .panic ↔ ¬ SafeRounds fuel d buf) := by
  induction fuel with
  | zero =>
    intro d buf frames _ hfuel
    unfold rounds at hfuel
    split at hfuel <;> omega
  | succ fuel ih =>
    intro d buf frames hs hfuel
    rw [SafeRounds]
    cases hstage : d.stage with
    | header =>
      rw [decodeLoop_header hstage]
      have hsound := hs.headerRound hstage buf
      cases hround : decodeFrameHeader buf d with
      | panic => simp [hround] at hsound
      | err e d' => simp
      | ok remain d' =>
        rw [hround] at hsound
        cases remain with
        | none => simp
        | some remain =>
          have hfuel' : rounds { d' with stage := .payload } remain ≤ fuel := by
            simp only [rounds, hstage] at hfuel ⊢
            omega
          simpa using ih hsound.1 hfuel'
    | payload =>
      rw [decodeLoop_payload hstage]
      have hsound := hs.payloadRound hstage buf
      have hpanic := decodeFramePayload_eq_panic hs hstage buf
      cases hround : decodeFramePayload buf d with
      | panic | err => simp [← hpanic, hround]
      | ok result d' =>
        rw [hround] at hsound
        cases result with
        | none => simp [← hpanic, hround]
        | some result =>
          obtain ⟨remain, frame⟩ := result
          have hfuel' : rounds { d' with stage := .header } remain ≤ fuel := by
            simp only [rounds, hstage] at hfuel ⊢
            omega
          simpa [← hpanic, hround] using ih hsound.1 hfuel'

/-! ### Runs -/

/-- The decoder that a call leaves. -/
def step (d : FrameDecoder HpackDecoder) (segment : List UInt8) : Option (FrameDecoder HpackDecoder) :=
  (decode segment d).state?

/-- Calls of `decode` on a fresh decoder, also after calls that failed, do not panic
exactly if no round of them comes to a harmful payload. -/
theorem decode_run_isSome_iff {maxFrameSize : UInt32} {maxHeaderListSize : Nat}
    {d : FrameDecoder HpackDecoder} (hfresh : configured maxFrameSize maxHeaderListSize = .ok () d)
    (segments : List (List UInt8)) :
    (run step segments d).isSome ↔ Along step Safe segments d :=
  run_isSome_iff (I := Sound) (fun hs h => hs.decode h)
    (fun hs => state?_eq_none.trans (decodeLoop_eq_panic hs (by unfold rounds; split <;> omega))) (sound_configured hfresh)

/-- The run of a PING frame in two segments. -/
theorem decode_run_isSome_ping : ∃ d, configured 16384 16384 = .ok () d ∧
    ((run step [[0, 0, 8, 6, 0, 0, 0, 0, 0], [1, 2, 3, 4, 5, 6, 7, 8]] d).isSome ↔
      Along step Safe [[0, 0, 8, 6, 0, 0, 0, 0, 0], [1, 2, 3, 4, 5, 6, 7, 8]] d) := by
  refine ⟨?decoder, ?fresh, decode_run_isSome_iff ?fresh _⟩
  case fresh => rfl

/-- An empty HEADERS frame with the PADDED flag panics: there is no pad length. -/
theorem emptyPaddedHeaders_panics : ∃ d, configured 16384 16384 = .ok () d ∧
    run step [[0, 0, 0, 1, 0xc, 0, 0, 0, 1]] d = none :=
  ⟨_, rfl, rfl⟩

end YlongHttp.H2.FrameDecoder
