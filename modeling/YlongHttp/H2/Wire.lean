/-
Frames on the wire.

A frame goes over the wire as the nine octets of its header and its payload. `wire` are
the octets of a list of frames, and the framing of the decoder takes them apart again
(`split_wire`), so that the meaning of the octets is the meaning of the frames one after
the other (`meaning_wire_cons`).
-/

import YlongHttp.H2.Decoder.Stream

namespace YlongHttp.H2

open Rust Codec List

def FrameHeader.octets (h : FrameHeader) : List UInt8 :=
  octets24 h.payloadLength ++ [h.frameType, h.flags] ++ octets32 h.streamId

@[simp] theorem FrameHeader.length_octets (h : FrameHeader) : h.octets.length = 9 := rfl

theorem and_0x7f_of_lt : ∀ b : UInt8, b.toNat < 128 → b &&& 0x7f = b :=
  forall_byte (by decide +kernel)

theorem parseHeader_octets {h : FrameHeader} (hlength : h.payloadLength < 2 ^ 24)
    (hid : h.streamId.toNat < 2 ^ 31) : parseHeader h.octets = h := by
  have hparse : parseHeader h.octets = ⟨be32 (octet32 h.streamId 0 &&& 0x7f) (octet32 h.streamId 1)
      (octet32 h.streamId 2) (octet32 h.streamId 3), h.flags, h.frameType,
      be24 (octet24 h.payloadLength 0) (octet24 h.payloadLength 1) (octet24 h.payloadLength 2)⟩ := rfl
  rw [hparse, and_0x7f_of_lt _ (octet32_zero_lt hid), be32_octets, be24_octets hlength]

/-- A frame whose header can be read back. -/
structure Framed (f : FrameHeader × List UInt8) : Prop where
  length : f.2.length = f.1.payloadLength
  small : f.1.payloadLength < 2 ^ 24
  stream : f.1.streamId.toNat < 2 ^ 31

def wire (frames : List (FrameHeader × List UInt8)) : List UInt8 :=
  frames.flatMap fun f => f.1.octets ++ f.2

@[simp] theorem wire_nil : wire [] = [] := rfl

theorem wire_cons (f : FrameHeader × List UInt8) (frames : List (FrameHeader × List UInt8)) :
    wire (f :: frames) = f.1.octets ++ f.2 ++ wire frames := rfl

theorem length_wire (frames : List (FrameHeader × List UInt8)) :
    (wire frames).length = 9 * frames.length + (frames.flatMap fun f => f.2).length := by
  induction frames with
  | nil => rfl
  | cons f frames ih =>
    rw [wire_cons, length_append, length_append, FrameHeader.length_octets, ih,
      flatMap_cons, length_append, length_cons]
    omega

variable {f : FrameHeader × List UInt8} {frames : List (FrameHeader × List UInt8)}

theorem Framed.payloadLength (h : Framed f) : framing.payloadLength f.1.octets = f.2.length := by
  rw [h.length]
  exact congrArg FrameHeader.payloadLength (parseHeader_octets h.small h.stream)

theorem split_wire (h : ∀ f ∈ frames, Framed f) :
    framing.split (wire frames) = (frames.map fun f => (f.1.octets, f.2), []) := by
  induction frames with
  | nil => rfl
  | cons f frames ih =>
    have hf := h f mem_cons_self
    rw [wire_cons, Framing.split_frame rfl hf.payloadLength, ih fun g hg => h g (mem_cons_of_mem f hg)]
    rfl

/-- The frames in some bytes, if these are nothing but complete frames. -/
def parseFrames (bytes : List UInt8) : Option (List (FrameHeader × List UInt8)) :=
  if (framing.split bytes).2 = [] then
    some ((framing.split bytes).1.map fun f => (parseHeader f.1, f.2))
  else none

theorem parseFrames_wire (h : ∀ f ∈ frames, Framed f) : parseFrames (wire frames) = some frames := by
  rw [parseFrames, split_wire h, map_map]
  refine congrArg some ((map_congr_left fun f hf => ?_).trans (map_id frames))
  exact Prod.ext (parseHeader_octets (h f hf).small (h f hf).stream) rfl

namespace FrameDecoder

variable {H : Type} [HpackLayer H]


theorem meaning_wire_cons (hf : Framed f) (maxFrameSize : Nat)
    (frames : List (FrameHeader × List UInt8)) (c : Core H) : meaning maxFrameSize (wire (f :: frames)) c =
      (allow maxFrameSize f.1 c).bind fun _ c => (interpret f.1 f.2 c).bind fun frame c =>
          (meaning maxFrameSize (wire frames) c).bind fun more c => .ok (frame :: more) c := by
  have hlong : 9 ≤ (wire (f :: frames)).length := by
    rw [wire_cons, length_append, length_append, FrameHeader.length_octets]
    omega
  obtain ⟨hcomplete, -, hpayload, hrest⟩ :=
    Framing.complete_frame (F := framing) (show f.1.octets.length = 9 from rfl) hf.payloadLength (wire frames)
  have hheader : parseHeader (wire (f :: frames)) = f.1 := by
    rw [wire_cons, append_assoc, parseHeader_append (by simp), parseHeader_octets hf.small hf.stream]
  rw [meaning_long hlong, hheader]
  rw [wire_cons]
  simp only [if_pos hcomplete, hpayload, hrest]

end FrameDecoder

end YlongHttp.H2
