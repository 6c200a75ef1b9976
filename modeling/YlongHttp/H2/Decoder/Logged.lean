/-
What reaches the HPACK layer.

`Logged` is an HPACK layer that keeps a log of the bytes it is given. The log is only
watched: a frame decoder over it does what the decoder over the plain layer does
(`decode_erase`). `reached` are the bytes that a call gives to the HPACK layer.
-/

import YlongHttp.H2.Decoder.Parametric

namespace YlongHttp.H2

open Rust

structure Logged (H : Type) where
  hpack : H
  log : List UInt8

namespace Logged

variable {H : Type} [HpackLayer H]

instance : HpackLayer (Logged H) where
  hpackDecode buf := fun s =>
    (HpackLayer.hpackDecode buf s.hpack).mapState fun hpack => ⟨hpack, s.log ++ buf⟩
  hpackFinish := Method.onField (·.hpack) (fun hpack s => { s with hpack := hpack })
    HpackLayer.hpackFinish

end Logged

namespace FrameDecoder

section Erase

variable {H : Type}

/-- The decoder with an empty log. -/
def logged (d : FrameDecoder H) : FrameDecoder (Logged H) :=
  ⟨d.buffer, d.offset, d.maxFrameSize, d.stage, d.header, ⟨d.hpack, []⟩, d.continuations⟩

/-- The decoder without the log. -/
def erase (d : FrameDecoder (Logged H)) : FrameDecoder H :=
  ⟨d.buffer, d.offset, d.maxFrameSize, d.stage, d.header, d.hpack.hpack, d.continuations⟩

def Erases (d : FrameDecoder (Logged H)) (e : FrameDecoder H) : Prop := d.erase = e

theorem erases_modify {f : FrameDecoder (Logged H) → FrameDecoder (Logged H)}
    {g : FrameDecoder H → FrameDecoder H} (h : ∀ d, (f d).erase = g d.erase) :
    Sim (ε := H2Error) (Erases (H := H)) Erases (modify f) (modify g) := by
  rintro d _ rfl
  exact .ok _ (h d)

theorem erases_clearBuffer : Sim (Erases (H := H)) Erases clearBuffer clearBuffer := by
  refine erases_modify fun d => ?_
  simp only [apply_ite erase]
  rfl

variable (buf : List UInt8)

theorem erases_mergeBuffer : Sim (Erases (H := H)) Erases (mergeBuffer buf) (mergeBuffer buf) := by
  rintro d _ rfl
  unfold mergeBuffer
  rw [show d.erase.offset = d.offset from rfl]
  split <;> exact .ok _ rfl

theorem erases_readHeader (maxFrameSize : Nat) (bytes : List UInt8) :
    Sim (Erases (H := H)) Erases (readHeader maxFrameSize bytes) (readHeader maxFrameSize bytes) := by
  refine (Sim.index id bytes 0).bind id fun l₀ => ?_
  refine (Sim.index id bytes 1).bind id fun l₁ => ?_
  refine (Sim.index id bytes 2).bind id fun l₂ => ?_
  refine Sim.check id ?_
  refine (Sim.index id bytes 3).bind id fun frameType => ?_
  refine (Sim.index id bytes 4).bind id fun flags => ?_
  refine (Sim.slice id bytes 5 9).bind id fun token => ?_
  exact (sim_getStreamId token).bind_pure _

theorem erases_mergeHeader (payloadPos : Nat) :
    Sim (Erases (H := H)) Erases (mergeHeader buf payloadPos) (mergeHeader buf payloadPos) := by
  rintro d _ rfl
  unfold mergeHeader
  rw [show d.erase.offset = d.offset from rfl]
  split
  · exact .ok _ rfl
  · refine (Sim.sliceTo (R := Erases) id buf payloadPos).bind id (fun part => ?_) d _ rfl
    exact (erases_modify fun _ => rfl).bind_pure _

theorem erases_decodeFrameHeader : Sim (Erases (H := H)) Erases (decodeFrameHeader buf) (decodeFrameHeader buf) := by
  refine .get_bind fun d _ h => ?_
  obtain rfl := h
  refine (Sim.checkedSub id frameHeaderLength d.offset).bind id fun payloadPos => .ite ?_ ?_
  · exact (erases_modify fun _ => rfl).bind_pure _
  · refine (erases_mergeHeader buf payloadPos).bind id fun headerBuffer => ?_
    refine (erases_readHeader d.maxFrameSize headerBuffer).bind id fun header => ?_
    refine erases_clearBuffer.bind id fun _ => ?_
    refine (erases_modify fun _ => rfl).bind id fun _ => ?_
    exact (Sim.sliceFrom id _ _).bind_pure _

end Erase

variable {H : Type} [HpackLayer H]

theorem blind_erases : Blind (Erases (H := H)) where
  header h := by rw [← h]; rfl
  continuations h := by rw [← h]; rfl
  setContinuations c d e h := .ok () (by rw [← h]; rfl)
  hpackDecode buf := by
    rintro d _ rfl
    simp only [hpackDecode, Method.onField, HpackLayer.hpackDecode, erase]
    cases HpackLayer.hpackDecode buf d.hpack.hpack with
    | ok u s => exact .ok u rfl
    | err e s => exact .err e rfl
    | panic => exact .panic
  hpackFinish := by
    rintro d _ rfl
    simp only [hpackFinish, Method.onField, HpackLayer.hpackFinish, erase]
    cases HpackLayer.hpackFinish d.hpack.hpack with
    | ok parts s => exact .ok parts rfl
    | err e s => exact .err e rfl
    | panic => exact .panic

theorem erases_decodeFramePayload (buf : List UInt8) :
    Sim (Erases (H := H)) Erases (decodeFramePayload buf) (decodeFramePayload buf) := by
  refine .get_bind fun d _ h => ?_
  obtain rfl := h
  refine Sim.check id ?_
  refine (Sim.checkedSub id _ _).bind id fun frameEndIndex => .ite ?_ ?_
  · exact (erases_modify fun _ => rfl).bind_pure _
  · refine (Sim.sliceTo id _ _).bind id fun payload => ?_
    refine (sim_payloadDecoder blind_erases id (erases_mergeBuffer payload) fun _ => rfl).bind id
      fun frame => ?_
    refine (erases_modify fun _ => rfl).bind id fun _ => ?_
    refine erases_clearBuffer.bind id fun _ => ?_
    exact (Sim.sliceFrom id _ _).bind_pure _

theorem erases_decodeLoop (fuel : Nat) : ∀ (buf : List UInt8) (frames : List FrameKind),
    Sim (Erases (H := H)) Erases (decodeLoop fuel buf frames) (decodeLoop fuel buf frames) := by
  induction fuel with
  | zero => exact fun _ _ => .panicked
  | succ fuel ih =>
    intro buf frames
    refine .get_bind fun d _ h => ?_
    obtain rfl := h
    have hstage : d.erase.stage = d.stage := rfl
    rw [hstage]
    cases d.stage with
    | header =>
      refine (erases_decodeFrameHeader buf).bind id fun remain => ?_
      cases remain with
      | none => exact .pure id _
      | some remain =>
        refine (erases_modify fun _ => rfl).bind id fun _ => ?_
        exact ih remain frames
    | payload =>
      refine (erases_decodeFramePayload buf).bind id fun result => ?_
      cases result with
      | none => exact .pure id _
      | some result =>
        refine (erases_modify fun _ => rfl).bind id fun _ => ?_
        exact ih result.1 (frames ++ [result.2])

/-- The log changes nothing. -/
theorem decode_erase (buf : List UInt8) (d : FrameDecoder H) : (decode buf d.logged).mapState erase = decode buf d :=
  (erases_decodeLoop _ buf [] d.logged d rfl).mapState_eq id

/-- The bytes that a call gives to the HPACK layer. -/
def reached (buf : List UInt8) (d : FrameDecoder H) : List UInt8 :=
  match decode buf d.logged with
  | .ok _ d' => d'.hpack.log
  | .err _ d' => d'.hpack.log
  | .panic => []

end FrameDecoder

end YlongHttp.H2
