/-
The payload decoders see their decoder only through its header, its continuation
record and its HPACK layer.

`Blind S` says that a relation between decoders cannot be told apart through these,
and then every payload decoder is in simulation with itself. How a relation between
two decoders gets from `R`, before the buffered part of a payload is merged, to `S` is
left open, so that one proof for each frame type serves buffered and whole payloads,
what a decoder keeps, and decoders over different HPACK layers.
-/

import YlongHttp.H2.Decoder
import YlongHttp.Rust.Simulation

namespace YlongHttp.H2.FrameDecoder

open Rust

variable {H K : Type} [HpackLayer H] [HpackLayer K]

structure Blind (S : FrameDecoder H → FrameDecoder K → Prop) : Prop where
  header : ∀ {d e}, S d e → d.header = e.header
  continuations : ∀ {d e}, S d e → d.continuations = e.continuations
  setContinuations : ∀ c, Sim S S (setContinuations c) (setContinuations c)
  hpackDecode : ∀ buf, Sim S S (hpackDecode buf) (hpackDecode buf)
  hpackFinish : Sim S S hpackFinish hpackFinish

section Words

variable {σ τ : Type} {S : σ → τ → Prop}

variable (token : List UInt8)

theorem sim_getStreamId : Sim S S (getStreamId token) (getStreamId token) := by
  refine (Sim.index id token 0).bind id fun a => ?_
  refine (Sim.index id token 1).bind id fun b => ?_
  refine (Sim.index id token 2).bind id fun c => ?_
  exact (Sim.index id token 3).bind_pure _

theorem sim_getCodeValue : Sim S S (getCodeValue token) (getCodeValue token) := by
  refine (Sim.index id token 0).bind id fun a => ?_
  refine (Sim.index id token 1).bind id fun b => ?_
  refine (Sim.index id token 2).bind id fun c => ?_
  exact (Sim.index id token 3).bind_pure _

theorem sim_getSetting (id' : UInt16) (value : UInt32) : Sim S S (getSetting id' value) (getSetting id' value) := by
  unfold getSetting
  split
  case h_2 => split <;> first | exact .pure id _ | exact .throw id _
  case h_4 => exact .ite (.throw id _) (.pure id _)
  case h_5 => exact .ite (.throw id _) (.pure id _)
  all_goals exact .pure id _

theorem sim_splitTokenToSetting : Sim S S (splitTokenToSetting token) (splitTokenToSetting token) := by
  refine (Sim.index id token 0).bind id fun a => ?_
  refine (Sim.index id token 1).bind id fun b => ?_
  refine (Sim.slice id token 2 6).bind id fun rest => ?_
  refine (sim_getCodeValue rest).bind id fun value => ?_
  exact sim_getSetting _ value

theorem sim_splitSettings (buf : List UInt8) : Sim S S (splitSettings buf) (splitSettings buf) := by
  induction buf using splitSettings.induct with
  | case1 => exact .pure id _
  | case2 a b c d e f rest ih =>
    refine (sim_splitTokenToSetting _).bind id fun setting => ?_
    exact ih.bind_pure _
  | case3 chunk hnil hcons =>
    rw [splitSettings.eq_3 chunk hnil hcons, splitSettings.eq_3 chunk hnil hcons]
    exact (sim_splitTokenToSetting chunk).bind_pure _

end Words

variable {R S : FrameDecoder H → FrameDecoder K → Prop} {buf buf' : List UInt8}

theorem sim_getHeader (hS : Blind S) (hsub : ∀ {d e}, R d e → S d e) : Sim R R getHeader getHeader := by
  intro d e h
  rw [getHeader, hS.header (hsub h)]
  exact .ok _ h

theorem sim_getContinuations (hS : Blind S) : Sim S S getContinuations getContinuations := by
  intro d e h
  rw [getContinuations, hS.continuations h]
  exact .ok _ h

omit [HpackLayer H] [HpackLayer K] in
theorem sim_fragmentBounds (header : FrameHeader) (buf : List UInt8) (start : Nat) :
    Sim S S (fragmentBounds header buf start) (fragmentBounds header buf start) := by
  refine .ite ?_ (.pure id _)
  refine (Sim.index id buf 0).bind id fun paddedLength => ?_
  refine Sim.check id ?_
  exact (Sim.checkedSub id _ _).bind_pure _

theorem sim_pushPromiseFraming (hS : Blind S) (endHeaders : Bool) (promisedStreamId : StreamId) :
    Sim S S (pushPromiseFraming endHeaders promisedStreamId) (pushPromiseFraming endHeaders promisedStreamId) := by
  refine (sim_getHeader hS id).bind id fun header => ?_
  refine .ite ?_ ?_
  · exact hS.hpackFinish.bind_pure _
  · refine (sim_getContinuations hS).bind id fun c => ?_
    exact (hS.setContinuations _).bind_pure _

section Payloads

variable (hS : Blind S) (hsub : ∀ {d e}, R d e → S d e) (hmerge : Sim R S (mergeBuffer buf) (mergeBuffer buf'))

include hS hsub hmerge

theorem sim_decodePingPayload : Sim R S (decodePingPayload buf) (decodePingPayload buf') := by
  refine (sim_getHeader hS hsub).bind hsub fun header => ?_
  refine Sim.check hsub ?_
  refine hmerge.bind id fun buf => ?_
  split
  · exact .pure id _
  · exact .throw id _

theorem sim_decodeGoawayPayload : Sim R S (decodeGoawayPayload buf) (decodeGoawayPayload buf') := by
  refine (sim_getHeader hS hsub).bind hsub fun header => ?_
  refine Sim.check hsub ?_
  refine hmerge.bind id fun buf => ?_
  refine Sim.check id ?_
  refine (Sim.sliceTo id buf 4).bind id fun token => ?_
  refine (sim_getStreamId token).bind id fun lastStreamId => ?_
  refine (Sim.slice id buf 4 8).bind id fun token => ?_
  refine (sim_getCodeValue token).bind id fun errorCode => ?_
  exact (Sim.sliceFrom id buf 8).bind_pure _

theorem sim_decodeWindowUpdatePayload : Sim R S (decodeWindowUpdatePayload buf) (decodeWindowUpdatePayload buf') := by
  refine (sim_getHeader hS hsub).bind hsub fun header => ?_
  refine hmerge.bind id fun buf => ?_
  refine Sim.check id ?_
  refine (Sim.index id buf 0).bind id fun a => ?_
  refine (Sim.index id buf 1).bind id fun b => ?_
  refine (Sim.index id buf 2).bind id fun c => ?_
  refine (Sim.index id buf 3).bind id fun d => ?_
  exact Sim.check id (.pure id _)

theorem sim_decodeResetPayload : Sim R S (decodeResetPayload buf) (decodeResetPayload buf') := by
  refine (sim_getHeader hS hsub).bind hsub fun header => ?_
  refine Sim.check hsub ?_
  refine hmerge.bind id fun buf => ?_
  refine Sim.check id ?_
  refine (Sim.sliceTo id buf 4).bind id fun token => ?_
  exact (sim_getCodeValue token).bind_pure _

theorem sim_decodeSettingsPayload : Sim R S (decodeSettingsPayload buf) (decodeSettingsPayload buf') := by
  refine (sim_getHeader hS hsub).bind hsub fun header => ?_
  refine Sim.check hsub ?_
  refine hmerge.bind id fun buf => ?_
  refine Sim.check id ?_
  refine .ite (Sim.check id (.pure id _)) ?_
  exact (sim_splitSettings buf).bind_pure _

theorem sim_decodeDataPayload : Sim R S (decodeDataPayload buf) (decodeDataPayload buf') := by
  refine (sim_getHeader hS hsub).bind hsub fun header => ?_
  refine Sim.check hsub ?_
  refine hmerge.bind id fun buf => ?_
  refine .ite (.pure id _) (.ite ?_ ?_)
  · refine (Sim.index id buf 0).bind id fun paddedLength => ?_
    refine Sim.check id ?_
    refine (Sim.checkedSub id _ _).bind id fun dataEndIndex => ?_
    exact (Sim.slice id buf 1 dataEndIndex).bind_pure _
  · exact (Sim.sliceTo id buf header.payloadLength).bind_pure _

theorem sim_decodeContinuationPayload : Sim R S (decodeContinuationPayload buf) (decodeContinuationPayload buf') := by
  refine (sim_getHeader hS hsub).bind hsub fun header => ?_
  refine Sim.check hsub ?_
  refine hmerge.bind id fun buf => ?_
  refine .ite ?_ ?_
  · refine (hS.hpackDecode buf).bind id fun _ => ?_
    refine hS.hpackFinish.bind id fun parts => ?_
    refine (sim_getContinuations hS).bind id fun c => ?_
    exact (hS.setContinuations .new).bind_pure _
  · exact (hS.hpackDecode buf).bind_pure _

theorem sim_decodeHeadersPayload : Sim R S (decodeHeadersPayload buf) (decodeHeadersPayload buf') := by
  refine (sim_getHeader hS hsub).bind hsub fun header => ?_
  refine Sim.check hsub ?_
  refine hmerge.bind id fun buf => ?_
  refine (sim_fragmentBounds header buf 0).bind id fun bounds => ?_
  refine Sim.check id (.ite ?_ ?_)
  · refine (Sim.slice id buf _ _).bind id fun fragment => ?_
    refine (hS.hpackDecode fragment).bind id fun _ => ?_
    exact hS.hpackFinish.bind_pure _
  · refine (sim_getContinuations hS).bind id fun c => ?_
    refine (hS.setContinuations _).bind id fun _ => ?_
    refine (Sim.slice id buf _ _).bind id fun fragment => ?_
    exact (hS.hpackDecode fragment).bind_pure _

theorem sim_decodePushPromisePayload : Sim R S (decodePushPromisePayload buf) (decodePushPromisePayload buf') := by
  refine (sim_getHeader hS hsub).bind hsub fun header => ?_
  refine Sim.check hsub ?_
  refine hmerge.bind id fun buf => ?_
  refine (sim_fragmentBounds header buf 4).bind id fun bounds => ?_
  refine Sim.check id ?_
  refine (hS.hpackDecode buf).bind id fun _ => ?_
  refine .ite ?_ ?_
  · refine (Sim.slice id buf 1 5).bind id fun token => ?_
    refine (sim_getStreamId token).bind id fun promisedStreamId => ?_
    exact Sim.check id (sim_pushPromiseFraming hS _ _)
  · refine (Sim.sliceTo id buf 4).bind id fun token => ?_
    refine (sim_getStreamId token).bind id fun promisedStreamId => ?_
    exact Sim.check id (sim_pushPromiseFraming hS _ _)

/-- The length of a PRIORITY payload is checked on the last part alone. -/
theorem sim_decodePriorityPayload (hlen : buf.length = buf'.length) :
    Sim R S (decodePriorityPayload buf) (decodePriorityPayload buf') := by
  refine (sim_getHeader hS hsub).bind hsub fun header => ?_
  refine Sim.check hsub ?_
  rw [hlen]
  refine Sim.check hsub ?_
  refine hmerge.bind id fun buf => ?_
  refine (Sim.index id buf 0).bind id fun a => ?_
  refine (Sim.sliceTo id buf 4).bind id fun token => ?_
  refine (sim_getStreamId token).bind id fun streamDependency => ?_
  exact (Sim.index id buf 4).bind_pure _

/-- Payloads are decoded alike, except that the last parts of a PRIORITY payload must
be of the same length. -/
theorem sim_payloadDecoder {frameType : UInt8} (hlen : frameType = 2 → buf.length = buf'.length) :
    Sim R S (payloadDecoder frameType buf) (payloadDecoder frameType buf') := by
  unfold payloadDecoder
  split
  · exact sim_decodeDataPayload hS hsub hmerge
  · exact sim_decodeHeadersPayload hS hsub hmerge
  · exact sim_decodePriorityPayload hS hsub hmerge (hlen rfl)
  · exact sim_decodeResetPayload hS hsub hmerge
  · exact sim_decodeSettingsPayload hS hsub hmerge
  · exact sim_decodePushPromisePayload hS hsub hmerge
  · exact sim_decodePingPayload hS hsub hmerge
  · exact sim_decodeGoawayPayload hS hsub hmerge
  · exact sim_decodeWindowUpdatePayload hS hsub hmerge
  · exact sim_decodeContinuationPayload hS hsub hmerge
  · exact .throw hsub _

end Payloads

end YlongHttp.H2.FrameDecoder
