/-
PUSH_PROMISE frames and the HPACK layer.

A promised header block comes in a PUSH_PROMISE frame and any CONTINUATION frames. Its
headers should be those of the fragments alone (`Delivered`). They never are: the whole
payload of the PUSH_PROMISE frame goes to the HPACK layer, the promised stream id and the
padding included (`reached_eq`).
-/

import YlongHttp.H2.Decoder.Logged
import YlongHttp.H2.Decoder.Payload
import YlongHttp.H2.Wire
import YlongHttp.Rust.Triple

namespace YlongHttp.H2.FrameDecoder

open Rust Codec H2.Hpack Outcome List

/-- A promised header block in fragments. -/
structure PromisedBlock where
  streamId : StreamId
  promisedStreamId : StreamId
  padding : Option (List UInt8)
  fragment : List UInt8
  continuations : List (List UInt8)

namespace PromisedBlock

/-- The payload of the PUSH_PROMISE frame. -/
def payload (p : PromisedBlock) : List UInt8 :=
  (match p.padding with
    | some padding => [UInt8.ofNat padding.length]
    | none => []) ++
  octets32 p.promisedStreamId ++ p.fragment ++ p.padding.getD []

def flags (p : PromisedBlock) : UInt8 :=
  (if p.padding.isSome then paddedMask else 0) |||
    (if p.continuations = [] then endHeadersMask else 0)

def continuationFrames (streamId : StreamId) : List (List UInt8) → List (FrameHeader × List UInt8)
  | [] => []
  | fragment :: fragments =>
    (⟨streamId, if fragments = [] then endHeadersMask else 0, 9, fragment.length⟩, fragment) ::
      continuationFrames streamId fragments

def frames (p : PromisedBlock) : List (FrameHeader × List UInt8) :=
  (⟨p.streamId, p.flags, 5, p.payload.length⟩, p.payload) :: continuationFrames p.streamId p.continuations

/-- The block that the fragments make up. -/
def block (p : PromisedBlock) : List UInt8 := p.fragment ++ p.continuations.flatten

structure Legal (p : PromisedBlock) (maxFrameSize : Nat) : Prop where
  stream : p.streamId ≠ 0 ∧ p.streamId.toNat < 2 ^ 31
  promised : p.promisedStreamId ≠ 0 ∧ p.promisedStreamId.toNat < 2 ^ 31
  padding : ∀ padding ∈ p.padding, padding.length < 2 ^ 8
  payload : p.payload.length ≤ maxFrameSize
  continuations : ∀ fragment ∈ p.continuations, fragment.length ≤ maxFrameSize

theorem framed_continuationFrames {streamId : StreamId} {maxFrameSize : Nat}
    (hid : streamId.toNat < 2 ^ 31) (hmax : maxFrameSize < 2 ^ 24) {fragments : List (List UInt8)}
    (h : ∀ fragment ∈ fragments, fragment.length ≤ maxFrameSize) :
    ∀ f ∈ continuationFrames streamId fragments, Framed f ∧ f.1.frameType = 9 := by
  induction fragments with
  | nil =>
    rintro f ⟨⟩
  | cons fragment fragments ih =>
    intro f hf
    rcases mem_cons.mp hf with rfl | hf
    · exact ⟨⟨rfl, lt_of_le_of_lt (h fragment mem_cons_self) hmax, hid⟩, rfl⟩
    · exact ih (fun g hg => h g (mem_cons_of_mem fragment hg)) f hf

theorem payloads_continuationFrames (streamId : StreamId) (fragments : List (List UInt8)) :
    (continuationFrames streamId fragments).map (·.2) = fragments := by
  induction fragments with
  | nil => rfl
  | cons fragment fragments ih => rw [continuationFrames, map_cons, ih]

theorem length_fragment_lt (p : PromisedBlock) : p.fragment.length < p.payload.length := by
  simp only [payload, octets32, length_append, length_cons, length_nil]
  omega

end PromisedBlock

/-! ### The log -/

section Log

variable {H : Type} [HpackLayer H]

theorem hpackDecode_log (fragment log : List UInt8) :
    Triple (fun c : Core (Logged H) => c.hpack.log = log) (Core.hpackDecode fragment)
      (fun _ c => c.hpack.log = log ++ fragment) (fun _ _ => True) := by
  rintro c rfl
  simp only [Core.hpackDecode, Method.onField, HpackLayer.hpackDecode]
  cases HpackLayer.hpackDecode fragment c.hpack.hpack with
  | ok u s => exact .ok rfl
  | err e s => exact .err trivial
  | panic => exact .panic

variable (h : FrameHeader) (p log : List UInt8)

theorem hpackFinish_log : Triple (fun c : Core (Logged H) => c.hpack.log = log) Core.hpackFinish
      (fun _ c => c.hpack.log = log) (fun _ _ => True) := by
  rintro c rfl
  simp only [Core.hpackFinish, Method.onField, HpackLayer.hpackFinish]
  cases HpackLayer.hpackFinish c.hpack.hpack with
  | ok parts s => exact .ok rfl
  | err e s => exact .err trivial
  | panic => exact .panic

/-- The HPACK layer gets the whole payload. -/
theorem interpretPushPromise_log : Triple (fun c : Core (Logged H) => c.hpack.log = log) (interpretPushPromise h p)
      (fun _ c => c.hpack.log = log ++ p) (fun _ _ => True) := by
  refine .ite (fun _ => .throw fun _ _ => trivial) fun _ => ?_
  refine .ite (fun _ => .panicked) fun _ => ?_
  refine .ite (fun _ => .throw fun _ _ => trivial) fun _ => ?_
  refine (hpackDecode_log p log).bind fun _ => ?_
  refine .ite (fun _ => .throw fun _ _ => trivial) fun _ => ?_
  refine .ite (fun _ => ?_) fun _ => ?_
  · exact (hpackFinish_log _).bind fun parts => .pure fun _ hc => hc
  · rintro c hc
    exact .ok hc

theorem interpretContinuation_log : Triple (fun c : Core (Logged H) => c.hpack.log = log) (interpretContinuation h p)
      (fun _ c => c.hpack.log = log ++ p) (fun _ _ => True) := by
  refine .ite (fun _ => .throw fun _ _ => trivial) fun _ => ?_
  refine .ite (fun _ => ?_) fun _ => ?_
  · refine (hpackDecode_log p log).bind fun _ => ?_
    refine (hpackFinish_log _).bind fun parts => ?_
    rintro c hc
    exact .ok hc
  · exact (hpackDecode_log p log).bind fun _ => .pure fun _ hc => hc

/-- Frames of header blocks give their payloads to the HPACK layer. -/
theorem meaning_log {maxFrameSize : Nat} {frames : List (FrameHeader × List UInt8)}
    (h : ∀ f ∈ frames, Framed f ∧ (f.1.frameType = 5 ∨ f.1.frameType = 9)) :
    ∀ {c c' : Core (Logged H)} {out : List FrameKind}, meaning maxFrameSize (wire frames) c = .ok out c' →
        c'.hpack.log = c.hpack.log ++ (frames.map (·.2)).flatten := by
  induction frames with
  | nil =>
    rintro c c' out ⟨⟩
    rw [map_nil, flatten_nil, append_nil]
  | cons f frames ih =>
    intro c c' out hmeaning
    obtain ⟨hframed, htype⟩ := h f mem_cons_self
    rw [meaning_wire_cons hframed, bind_eq_ok] at hmeaning
    obtain ⟨_, c₀, hallow, hmeaning⟩ := hmeaning
    obtain rfl : c₀ = c := by
      unfold allow at hallow
      split at hallow
      · cases hallow
      · split at hallow
        · cases hallow
        · cases hallow
          rfl
    obtain ⟨frame, c₁, hframe, hmeaning⟩ := bind_eq_ok.mp hmeaning
    obtain ⟨more, c₂, hmore, hout⟩ := bind_eq_ok.mp hmeaning
    cases hout
    have hlog : c₁.hpack.log = c₀.hpack.log ++ f.2 := by
      rcases htype with htype | htype
      · rw [interpret_pushPromise htype hframed.length] at hframe
        exact (interpretPushPromise_log f.1 f.2 c₀.hpack.log c₀ rfl).of_ok hframe
      · rw [interpret_continuation htype] at hframe
        exact (interpretContinuation_log f.1 f.2 c₀.hpack.log c₀ rfl).of_ok hframe
    rw [ih (fun g hg => h g (mem_cons_of_mem f hg)) hmore, hlog, append_assoc]
    rfl

end Log

/-! ### Promised blocks -/

/-- At a frame boundary the bytes that reach the HPACK decoder are the whole payloads. -/
theorem reached_eq {d d' : FrameDecoder HpackDecoder} (hboundary : d.AtBoundary)
    (hmax : d.maxFrameSize < 2 ^ 24) {p : PromisedBlock} (hlegal : p.Legal d.maxFrameSize)
    {out : List FrameKind} (hdecode : decode (wire p.frames) d = .ok out d') :
    reached (wire p.frames) d = p.payload ++ p.continuations.flatten := by
  have hlogged : d.logged.AtBoundary := ⟨hboundary.stage, hboundary.buffer, hboundary.offset⟩
  have hframes : ∀ f ∈ p.frames, Framed f ∧ (f.1.frameType = 5 ∨ f.1.frameType = 9) := by
    intro f hf
    rcases mem_cons.mp hf with rfl | hf
    · exact ⟨⟨rfl, lt_of_le_of_lt hlegal.payload hmax, hlegal.stream.2⟩, .inl rfl⟩
    · obtain ⟨hframed, htype⟩ := PromisedBlock.framed_continuationFrames hlegal.stream.2 hmax
        hlegal.continuations f hf
      exact ⟨hframed, .inr htype⟩
  have hpayloads : (p.frames.map (·.2)).flatten = p.payload ++ p.continuations.flatten := by
    rw [PromisedBlock.frames, map_cons, PromisedBlock.payloads_continuationFrames, flatten_cons]
  have hwhole : ¬ SplitPriority [] (wire p.frames) := fun h => absurd h.1 (Nat.not_lt_zero 9)
  obtain ⟨hfollows, -⟩ := decode_spec hlogged.holds hwhole
  rw [← decode_erase] at hdecode
  unfold reached
  cases hrun : decode (wire p.frames) d.logged with
  | err | panic =>
    rw [hrun] at hdecode
    cases hdecode
  | ok frames s =>
    obtain ⟨c, hmeaning, rfl⟩ := hfollows.eq_ok hrun
    obtain ⟨more, c', hmeaning, hok⟩ := bind_eq_ok.mp hmeaning
    cases hok
    have hlog := meaning_log hframes hmeaning
    rwa [hpayloads] at hlog

/-- What a promised block should bring: a push promise with the headers that the HPACK
decoder yields from the fragments, if it yields any, and nothing else reaches the HPACK
decoder. -/
def Delivered (d : FrameDecoder HpackDecoder) (p : PromisedBlock) : Prop :=
  ∀ parts hpack, (do
      HpackDecoder.decode p.block
      HpackDecoder.finish : Method HpackDecoder H2Error Parts) d.hpack = .ok parts hpack →
    (∃ out flags d', decode (wire p.frames) d =
      .ok (out ++ [.complete ⟨p.streamId, flags, .pushPromise p.promisedStreamId parts⟩]) d') ∧
    reached (wire p.frames) d = p.block

/-- The promised stream id always reaches the HPACK decoder. -/
theorem not_delivered {d : FrameDecoder HpackDecoder} (hboundary : d.AtBoundary)
    (hmax : d.maxFrameSize < 2 ^ 24) {p : PromisedBlock} (hlegal : p.Legal d.maxFrameSize)
    (hyields : ∃ parts hpack, (do
      HpackDecoder.decode p.block
      HpackDecoder.finish : Method HpackDecoder H2Error Parts) d.hpack = .ok parts hpack) :
    ¬ Delivered d p := by
  intro hdelivered
  obtain ⟨parts, hpack, hparts⟩ := hyields
  obtain ⟨⟨out, flags, d', hdecode⟩, hreached⟩ := hdelivered parts hpack hparts
  rw [reached_eq hboundary hmax hlegal hdecode, PromisedBlock.block, append_cancel_right_eq] at hreached
  exact absurd (congrArg length hreached) (ne_of_gt p.length_fragment_lt)

/-- A promise of stream 2 with the one field `:method: GET`. -/
theorem not_delivered_methodGet :
    (∃ parts hpack, (do
      HpackDecoder.decode [0x82]
      HpackDecoder.finish : Method HpackDecoder H2Error Parts) new.hpack = .ok parts hpack) ∧
    ¬ Delivered new ⟨1, 2, some [0, 0], [0x82], []⟩ := by
  have hlegal : PromisedBlock.Legal ⟨1, 2, some [0, 0], [0x82], []⟩ new.maxFrameSize := {
    stream := by decide
    promised := by decide
    padding := by decide
    payload := by decide
    continuations := by decide }
  exact ⟨⟨_, _, rfl⟩, not_delivered ⟨rfl, rfl, rfl⟩ (by decide) hlegal ⟨_, _, rfl⟩⟩

/-- The promise fails although the HPACK decoder takes the fragment. -/
theorem promise_methodGet_refused :
    (∃ parts hpack, (do
      HpackDecoder.decode [0x82]
      HpackDecoder.finish : Method HpackDecoder H2Error Parts) new.hpack = .ok parts hpack) ∧
    (∃ e d', decode (wire (PromisedBlock.frames ⟨1, 2, none, [0x82], []⟩)) new = .err e d') ∧
    ¬ Delivered new ⟨1, 2, none, [0x82], []⟩ := by
  have herror : (decode (wire (PromisedBlock.frames ⟨1, 2, none, [0x82], []⟩)) new).error?.isSome := by decide +kernel
  obtain ⟨e, he⟩ := Option.isSome_iff_exists.mp herror
  obtain ⟨d'', herr⟩ := error?_eq_some.mp he
  refine ⟨⟨_, _, rfl⟩, ⟨e, d'', herr⟩, fun hdelivered => ?_⟩
  obtain ⟨⟨out, flags, d', hdecode⟩, -⟩ := hdelivered _ _ rfl
  rw [hdecode] at herr
  cases herr

end YlongHttp.H2.FrameDecoder
