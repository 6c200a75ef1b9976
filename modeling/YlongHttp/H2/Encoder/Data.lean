/-
DATA frames.

A payload that is longer than the largest frame goes out in several frames, all of them
full but the last one. The offset into the payload starts again with every frame, so
every frame carries the front of it (`dataFrames`); that is what any buffers get
(`produce_data`). The payload arrives exactly if it repeats its first `maxFrameSize` bytes
(`carriesData_iff`).
-/

import YlongHttp.H2.Encoder.Control

namespace YlongHttp.H2

open Rust Codec Method List

/-- The frames carry the payload on the stream, and the last one ends it if the payload did. -/
structure CarriesData (maxFrameSize : Nat) (id : StreamId) (endStream : Bool) (payload : List UInt8)
    (frames : List (FrameHeader × List UInt8)) : Prop where
  some_frame : frames ≠ []
  data : ∀ f ∈ frames, f.1.frameType = FrameType.data.code ∧ f.1.streamId = id
  plain : ∀ f ∈ frames, (FrameFlags.mk f.1.flags).isPadded = false
  fits : ∀ f ∈ frames, f.2.length ≤ maxFrameSize
  payload : frames.flatMap (fun f => f.2) = payload
  last : ∀ i f, frames[i]? = some f →
    ((FrameFlags.mk f.1.flags).isEndStream = true ↔ i + 1 = frames.length ∧ endStream = true)

namespace FrameEncoder

/-- The flags of a DATA frame. -/
def dataFlags (endStream : Bool) : FrameFlags := ⟨if endStream then endStreamMask else 0⟩

/-! ### What goes out -/

section Frames

variable (m : Nat) (id : StreamId) (flags : FrameFlags) (data : List UInt8)

/-- The number of full frames in front of the last one. -/
def fullCount (length : Nat) : Nat := (length - 1) / m

/-- The length of the last frame. -/
def lastLength (length : Nat) : Nat := length - m * fullCount m length

def fullFrame : FrameHeader × List UInt8 :=
  (⟨id, flags.bits &&& 0xFE, FrameType.data.code, m⟩, data.take m)

def lastFrame : FrameHeader × List UInt8 :=
  (⟨id, flags.bits, FrameType.data.code, lastLength m data.length⟩, data.take (lastLength m data.length))

/-- `j` full frames and the last one. -/
def dataTail (j : Nat) : List (FrameHeader × List UInt8) :=
  List.replicate j (fullFrame m id flags data) ++ [lastFrame m id flags data]

def dataFrames : List (FrameHeader × List UInt8) :=
  dataTail m id flags data (fullCount m data.length)

end Frames

theorem lastLength_le {m : Nat} (hm : 0 < m) (length : Nat) : lastLength m length ≤ m := by
  have hdiv := Nat.div_add_mod (length - 1) m
  have hmod := Nat.mod_lt (length - 1) hm
  unfold lastLength fullCount
  omega

theorem length_eq_full_add_last (m length : Nat) : length = m * fullCount m length + lastLength m length := by
  have hdiv := Nat.mul_div_le (length - 1) m
  unfold lastLength fullCount
  omega

/-! ### The frame that is going out -/

section Frames

variable (m : Nat) (id : StreamId) (flags : FrameFlags) (data : List UInt8)

/-- The first of `j` full frames and the last one. -/
def dataHead : Nat → FrameHeader × List UInt8
  | 0 => lastFrame m id flags data
  | _ + 1 => fullFrame m id flags data

/-- The frames behind it. -/
def dataRest : Nat → List (FrameHeader × List UInt8)
  | 0 => []
  | j + 1 => dataTail m id flags data j

end Frames

section Head

variable {m : Nat} {id : StreamId} {flags : FrameFlags} {data : List UInt8} {j : Nat}

theorem dataTail_eq (m : Nat) (id : StreamId) (flags : FrameFlags) (data : List UInt8) (j : Nat) :
    dataTail m id flags data j = dataHead m id flags data j :: dataRest m id flags data j := by
  cases j with
  | zero => rfl
  | succ j =>
    rfl

theorem dataHead_snd : (dataHead m id flags data j).2 = data.take (dataHead m id flags data j).1.payloadLength := by
  cases j <;> rfl

/-- There is a last byte behind full frames. -/
theorem lastLength_pos_of_le (h : j + 1 ≤ fullCount m data.length) : 0 < lastLength m data.length := by
  have hdiv := Nat.mul_div_le (data.length - 1) m
  suffices 0 < data.length by
    unfold lastLength fullCount
    omega
  by_contra hempty
  rw [Nat.eq_zero_of_not_pos hempty, fullCount, Nat.zero_div] at h
  omega

section

variable (hm : 0 < m) (h : j ≤ fullCount m data.length)

include hm h

theorem payloadLength_dataHead_eq :
    min (m * j + lastLength m data.length) m = (dataHead m id flags data j).1.payloadLength := by
  cases j with
  | zero =>
    rw [mul_zero, zero_add, min_eq_left (lastLength_le hm _)]
    rfl
  | succ j =>
    rw [Nat.mul_succ, min_eq_right (by omega)]
    rfl

theorem flags_dataHead_eq : (if m * j + lastLength m data.length ≤ m then flags.bits else flags.bits &&& 0xFE) =
      (dataHead m id flags data j).1.flags := by
  cases j with
  | zero =>
    rw [mul_zero, zero_add, if_pos (lastLength_le hm _)]
    rfl
  | succ j =>
    have hlast := lastLength_pos_of_le h
    rw [Nat.mul_succ, if_neg (by omega)]
    rfl

theorem payloadLength_dataHead_le : (dataHead m id flags data j).1.payloadLength ≤ data.length := by
  have hlength := length_eq_full_add_last m data.length
  have hmul := Nat.mul_le_mul_left m h
  rw [← payloadLength_dataHead_eq hm h]
  exact le_trans (min_le_left _ _) (by omega)

end

theorem streamId_dataHead : (dataHead m id flags data j).1.streamId = id := by
  cases j <;> rfl

theorem frameType_dataHead : (dataHead m id flags data j).1.frameType = FrameType.data.code := by
  cases j <;> rfl

end Head

/-! ### What is left -/

/-- The bytes that an encoder of a DATA frame has left to write. -/
inductive DataLeft (m : Nat) (id : StreamId) (flags : FrameFlags) (data pending : List UInt8)
    (e : FrameEncoder) : Prop where
  | header (j : Nat) (le : j ≤ fullCount m data.length)
      (frame : e.currentFrame = some ⟨id, flags, .data data⟩) (size : e.maxFrameSize = m)
      (state : e.state = .encodingDataHeader) (encoded : e.encodedBytes < 9) (offset : e.dataOffset = 0)
      (remaining : e.remainingPayloadBytes = m * j + lastLength m data.length)
      (left : pending = (wire (dataTail m id flags data j)).drop e.encodedBytes)
  | payload (j : Nat) (le : j ≤ fullCount m data.length)
      (frame : e.currentFrame = some ⟨id, flags, .data data⟩) (size : e.maxFrameSize = m)
      (state : e.state = .encodingDataPayload) (encoded : e.encodedBytes = 0)
      (offset : e.dataOffset = 0 ∨ e.dataOffset < (dataHead m id flags data j).1.payloadLength)
      (remaining : e.dataOffset + e.remainingPayloadBytes = m * j + lastLength m data.length)
      (left : pending = (dataHead m id flags data j).2.drop e.dataOffset ++ wire (dataRest m id flags data j))
  | complete (state : e.state = .dataComplete) (left : pending = [])

section Rounds

variable {m : Nat} {id : StreamId} {flags : FrameFlags} {data : List UInt8} {buf : List UInt8} {e : FrameEncoder}

theorem dataLeft_headerRound (hm : 0 < m) (hbuf : buf ≠ []) (j : Nat) (hle : j ≤ fullCount m data.length)
    (hframe : e.currentFrame = some ⟨id, flags, .data data⟩) (hsize : e.maxFrameSize = m)
    (hstate : e.state = .encodingDataHeader) (hk : e.encodedBytes < 9) (hoffset : e.dataOffset = 0)
    (hremaining : e.remainingPayloadBytes = m * j + lastLength m data.length) :
    ∃ n e', Round (DataLeft m id flags data) (fun _ => False) 0
      ((wire (dataTail m id flags data j)).drop e.encodedBytes) buf e n e' := by
  have hpos : 0 < buf.length := length_pos_iff.mpr hbuf
  have hwire : wire (dataTail m id flags data j) = (dataHead m id flags data j).1.octets ++
      ((dataHead m id flags data j).2 ++ wire (dataRest m id flags data j)) := by
    rw [dataTail_eq, wire_cons, append_assoc]
  have hlong : 9 ≤ (wire (dataTail m id flags data j)).length := by
    rw [hwire, length_append]
    exact Nat.le_add_right _ _
  generalize hn : min (9 - e.encodedBytes) buf.length = n
  have heq : encodeState e.state buf e =
      .ok (((wire (dataTail m id flags data j)).drop e.encodedBytes).take n ++ buf.drop n, n)
        (e.afterHeader .encodingDataPayload true n) := by
    rw [hstate, hwire, take_drop_octets (by omega)]
    change encodeDataHeader buf e = _
    rw [encodeDataHeader, tryRetrieveCurrentFrame_bind hframe]
    refine encodeHeader_eq hk hn ?_
    have hlength : min (m * j + lastLength m data.length) m =
      (dataHead m id flags data j).1.payloadLength := payloadLength_dataHead_eq hm hle
    have hflags : (if m * j + lastLength m data.length ≤ m then flags.bits else flags.bits &&& 0xFE) =
      (dataHead m id flags data j).1.flags := flags_dataHead_eq hm hle
    simp only [iterateDataHeader, get_bind, hsize, hremaining, hlength, hflags]
    rw [← iterateHeader_eq (by omega) (by omega), streamId_dataHead, frameType_dataHead]
    rfl
  refine ⟨n, _, ⟨heq, Nat.zero_le n, by omega, ?_, ?_, ?_, fun _ => .inl (by omega)⟩⟩
  · rw [length_drop]
    omega
  · unfold afterHeader
    split
    next hlast =>
      refine .payload j hle hframe hsize rfl rfl (.inl hoffset) ?_ ?_
      · rw [hoffset, zero_add, hremaining]
      · rw [drop_drop, hlast, hwire, drop_left' (FrameHeader.length_octets _), hoffset, drop_zero]
    next =>
      exact .header j hle hframe hsize hstate (show e.encodedBytes + n < 9 by omega) hoffset hremaining drop_drop
  · intro hsame
    unfold afterHeader at hsame
    split at hsame
    next =>
      rw [hstate] at hsame
      cases hsame
    next => exact .inl (by omega)

/-- The bytes of the payload that fit. -/
theorem encodeSlice_eq {n : Nat} (hle : e.dataOffset ≤ e.maxFrameSize)
    (hn : min (min (e.maxFrameSize - e.dataOffset) e.remainingPayloadBytes) buf.length = n)
    (hdata : e.dataOffset + n ≤ data.length) :
    encodeSlice buf data e = .ok ((data.drop e.dataOffset).take n ++ buf.drop n, n) e := by
  have hslice : (data.take (e.dataOffset + n)).drop e.dataOffset = (data.drop e.dataOffset).take n := by
    rw [drop_take, Nat.add_sub_cancel_left]
  have hlength : ((data.drop e.dataOffset).take n).length = n := length_take_drop hdata
  have hfits : ((data.drop e.dataOffset).take n).length ≤ buf.length := by
    rw [hlength, ← hn]
    exact min_le_right _ _
  unfold encodeSlice
  simp only [bind_apply, get_apply, Outcome.bind_ok, checkedSub_eq_ok hle, hn,
    slice_eq_ok (Nat.le_add_right e.dataOffset n) hdata, hslice, copyFromSlice_eq_ok hfits, hlength,
    pure_apply]

/-- The encoder after `n` bytes of the payload. -/
def afterData (e : FrameEncoder) (n : Nat) : FrameEncoder :=
  if e.remainingPayloadBytes - n = 0 then
    { e with remainingPayloadBytes := e.remainingPayloadBytes - n, dataOffset := 0, state := .dataComplete }
  else if e.dataOffset + n = e.maxFrameSize then
    { e with
      remainingPayloadBytes := e.remainingPayloadBytes - n, dataOffset := 0, state := .encodingDataHeader }
  else
    { e with
      remainingPayloadBytes := e.remainingPayloadBytes - n
      dataOffset := e.dataOffset + n
      state := .encodingDataPayload }

theorem encodeDataPayload_eq {out : List UInt8} {n : Nat}
    (hframe : e.currentFrame = some ⟨id, flags, .data data⟩) (hle : n ≤ e.remainingPayloadBytes)
    (hslice : encodeSlice buf data e = .ok (out, n) e) : encodeDataPayload buf e = .ok (out, n) (e.afterData n) := by
  rw [encodeDataPayload, tryRetrieveCurrentFrame_bind hframe]
  simp only [bind_apply, get_apply, Outcome.bind_ok, hslice, checkedSub_eq_ok hle, modify_apply, afterData]
  split_ifs <;> rfl

theorem dataLeft_payloadRound (hm : 0 < m) (j : Nat) (hle : j ≤ fullCount m data.length)
    (hframe : e.currentFrame = some ⟨id, flags, .data data⟩) (hsize : e.maxFrameSize = m)
    (hstate : e.state = .encodingDataPayload) (hencoded : e.encodedBytes = 0)
    (hoffset : e.dataOffset = 0 ∨ e.dataOffset < (dataHead m id flags data j).1.payloadLength)
    (hremaining : e.dataOffset + e.remainingPayloadBytes = m * j + lastLength m data.length) :
    ∃ n e', Round (DataLeft m id flags data) (fun _ => False) 0
      ((dataHead m id flags data j).2.drop e.dataOffset ++ wire (dataRest m id flags data j)) buf e n e' := by
  have hhead : (dataHead m id flags data j).1.payloadLength ≤ data.length :=
    payloadLength_dataHead_le hm hle
  have hmin : min (m * j + lastLength m data.length) m = (dataHead m id flags data j).1.payloadLength :=
    payloadLength_dataHead_eq hm hle
  have hsnd : (dataHead m id flags data j).2.drop e.dataOffset =
      (data.drop e.dataOffset).take ((dataHead m id flags data j).1.payloadLength - e.dataOffset) := by
    rw [dataHead_snd, drop_take]
  generalize hlen : (dataHead m id flags data j).1.payloadLength = len at hoffset hhead hmin hsnd
  generalize hn : min (min (e.maxFrameSize - e.dataOffset) e.remainingPayloadBytes) buf.length = n
  have hrange : e.dataOffset + n ≤ len ∧ n ≤ e.remainingPayloadBytes ∧ n ≤ buf.length := by omega
  have hslice := encodeSlice_eq (by omega) hn (le_trans hrange.1 hhead)
  have heq : encodeState e.state buf e =
      .ok (((dataHead m id flags data j).2.drop e.dataOffset ++ wire (dataRest m id flags data j)).take n ++
        buf.drop n, n) (e.afterData n) := by
    rw [hstate, hsnd, take_append_of_le_length, take_take, min_eq_left (by omega)]
    · exact encodeDataPayload_eq hframe hrange.2.1 hslice
    · rw [length_take_drop (by omega)]
      omega
  have hlength : ((dataHead m id flags data j).2.drop e.dataOffset).length = len - e.dataOffset := by
    rw [hsnd, length_take_drop (by omega)]
  refine ⟨n, e.afterData n, ⟨heq, Nat.zero_le n, hrange.2.2, ?_, ?_, ?_, ?_⟩⟩
  · rw [length_append]
    omega
  · unfold afterData
    split_ifs with hdone hfull
    · -- The last byte is out, so this was the last frame.
      have hj : j = 0 := by
        cases j with
        | zero => rfl
        | succ j =>
          have hlast := lastLength_pos_of_le hle
          rw [Nat.mul_succ] at hremaining hmin
          omega
      subst hj
      refine .complete rfl (drop_eq_nil_of_le ?_)
      rw [length_append, hlength]
      change len - e.dataOffset + 0 ≤ n
      omega
    · -- The frame is full and another one follows.
      cases j with
      | zero =>
        have hlast := lastLength_le hm data.length
        omega
      | succ j =>
        rw [Nat.mul_succ] at hremaining
        refine .header j (Nat.le_of_succ_le hle) hframe hsize rfl (show e.encodedBytes < 9 by omega) rfl ?_ ?_
        · change e.remainingPayloadBytes - n = _
          omega
        · rw [drop_left' (by omega), hencoded]
          rfl
    · refine .payload j hle hframe hsize rfl hencoded (.inr ?_) ?_ ?_
      · change e.dataOffset + n < _
        omega
      · change e.dataOffset + n + (e.remainingPayloadBytes - n) = _
        omega
      · rw [drop_append_of_le_length (by omega), drop_drop]
  · rw [hstate]
    unfold afterData
    split_ifs
    · exact nofun
    · exact nofun
    · exact fun _ => .inl (by omega)
  · unfold afterData
    split_ifs
    · exact fun _ => .inr rfl
    · exact fun _ => .inl (by omega)
    · exact fun hmoved => absurd hstate.symm hmoved

theorem tracks_data (hm : 0 < m) : Tracks (DataLeft m id flags data) fun _ => False where
  complete := by
    intro pending e h hcomplete
    cases h with
    | header _ _ _ _ state | payload _ _ _ _ state =>
      rw [state] at hcomplete
      cases hcomplete
    | complete _ left => exact left
  round := by
    intro pending buf e h hopen hbuf
    cases h with
    | header j le frame size state encoded offset remaining left =>
      rw [left]
      exact dataLeft_headerRound hm hbuf j le frame size state encoded offset remaining
    | payload j le frame size state encoded offset remaining left =>
      rw [left]
      exact dataLeft_payloadRound hm j le frame size state encoded offset remaining
    | complete state =>
      rw [state] at hopen
      cases hopen

end Rounds

/-- Whatever the buffers, they get the frames. -/
theorem produce_data {e : FrameEncoder} (hm : 0 < e.maxFrameSize) (id : StreamId) (flags : FrameFlags)
    (data : List UInt8) {bufs : List (List UInt8)} (hbufs : ∀ buf ∈ bufs, buf ≠ [])
    (hroom : (wire (dataFrames e.maxFrameSize id flags data)).length ≤ (bufs.map List.length).sum) :
    ∃ e', produce ⟨id, flags, .data data⟩ bufs e = .ok (wire (dataFrames e.maxFrameSize id flags data)) e' := by
  have hleft : DataLeft e.maxFrameSize id flags data (wire (dataFrames e.maxFrameSize id flags data))
      { e with
        isEndStream := flags.isEndStream
        isEndHeaders := flags.isEndHeaders
        currentFrame := some ⟨id, flags, .data data⟩
        encodedBytes := 0
        dataOffset := 0
        remainingPayloadBytes := data.length
        state := .encodingDataHeader } :=
    .header _ (le_refl _) rfl rfl rfl (Nat.zero_lt_succ 8) rfl (length_eq_full_add_last _ _) rfl
  obtain ⟨e', heq, -⟩ := encodeAll_eq (tracks_data hm) hleft hbufs hroom
  exact ⟨e', heq⟩

/-! ### What arrives -/

/-- Blocks of `m` items and a part of one repeat the items of the block. -/
theorem getElem?_blocks {α : Type} {block : List α} {m l : Nat} (hblock : block.length = m) (hl : l ≤ m) (q : Nat) :
    ∀ i, i < m * q + l → ((List.replicate q block).flatten ++ block.take l)[i]? = block[i % m]? := by
  induction q with
  | zero =>
    intro i hi
    rw [mul_zero, zero_add] at hi
    rw [replicate_zero, flatten_nil, nil_append, getElem?_take_of_lt hi, Nat.mod_eq_of_lt (by omega)]
  | succ q ih =>
    intro i hi
    rw [replicate_succ, flatten_cons, append_assoc]
    by_cases hfirst : i < m
    · rw [getElem?_append_left (by omega), Nat.mod_eq_of_lt hfirst]
    · rw [Nat.mul_succ] at hi
      rw [getElem?_append_right (by omega), hblock, ih (i - m) (by omega), Nat.mod_eq_sub_mod (Nat.le_of_not_lt hfirst)]

section Arrives

variable {m : Nat} {id : StreamId} {flags : FrameFlags} {data : List UInt8}

theorem flatMap_dataFrames (m : Nat) (id : StreamId) (flags : FrameFlags) (data : List UInt8) :
    (dataFrames m id flags data).flatMap (fun f => f.2) =
      (List.replicate (fullCount m data.length) (data.take m)).flatten ++ data.take (lastLength m data.length) := by
  rw [dataFrames, dataTail, flatMap_append, flatMap_singleton, flatMap_def, map_replicate]
  rfl

/-- Full frames are full. -/
theorem length_take_of_full (h : fullCount m data.length ≠ 0) : (data.take m).length = m := by
  have hlength := length_eq_full_add_last m data.length
  have hmul : m * 1 ≤ m * fullCount m data.length := Nat.mul_le_mul_left m (Nat.pos_of_ne_zero h)
  exact length_take_of_le (by omega)

/-- Every byte arrives as the byte at its index in the first frame. -/
theorem getElem?_dataFrames (hm : 0 < m) {i : Nat} (hi : i < data.length) :
    ((dataFrames m id flags data).flatMap (fun f => f.2))[i]? = data[i % m]? := by
  have hlength := length_eq_full_add_last m data.length
  have hlast := lastLength_le hm data.length
  rw [flatMap_dataFrames]
  by_cases hfull : fullCount m data.length = 0
  · rw [hfull] at hlength ⊢
    rw [replicate_zero, flatten_nil, nil_append, getElem?_take_of_lt (by omega), Nat.mod_eq_of_lt (by omega)]
  · have htake : data.take (lastLength m data.length) = (data.take m).take (lastLength m data.length) := by
      rw [take_take, min_eq_left hlast]
    rw [htake, getElem?_blocks (length_take_of_full hfull) hlast _ i (by omega), getElem?_take_of_lt (Nat.mod_lt i hm)]

theorem length_flatMap_dataFrames (m : Nat) (id : StreamId) (flags : FrameFlags) (data : List UInt8) :
    ((dataFrames m id flags data).flatMap (fun f => f.2)).length = data.length := by
  have hlength := length_eq_full_add_last m data.length
  have hlast : lastLength m data.length ≤ data.length := by omega
  rw [flatMap_dataFrames, length_append, length_flatten, map_replicate, sum_replicate_nat, length_take_of_le hlast]
  by_cases hfull : fullCount m data.length = 0
  · rw [hfull] at hlength ⊢
    omega
  · rw [length_take_of_full hfull, mul_comm]
    exact hlength.symm

theorem payload_dataFrames_iff (hm : 0 < m) : (dataFrames m id flags data).flatMap (fun f => f.2) = data ↔
      ∀ i, i < data.length → data[i]? = data[i % m]? := by
  constructor
  · intro heq i hi
    rw [← getElem?_dataFrames hm hi, heq]
  · intro hrepeat
    apply ext_getElem?
    intro i
    by_cases hi : i < data.length
    · rw [getElem?_dataFrames hm hi, hrepeat i hi]
    · rw [getElem?_eq_none (by rw [length_flatMap_dataFrames]; omega), getElem?_eq_none (by omega)]

variable {f : FrameHeader × List UInt8}

/-- The frames of a payload in `dataFrames`: full ones and at the end the last one. -/
theorem getElem?_dataTail {j i : Nat} (h : (dataTail m id flags data j)[i]? = some f) :
    i < j ∧ f = fullFrame m id flags data ∨ i = j ∧ f = lastFrame m id flags data := by
  rw [dataTail] at h
  by_cases hi : i < j
  · rw [getElem?_append_left (by rwa [length_replicate]), getElem?_replicate, if_pos hi] at h
    exact .inl ⟨hi, (Option.some.inj h).symm⟩
  · rw [getElem?_append_right (by rw [length_replicate]; omega), length_replicate] at h
    obtain hzero : i - j = 0 := by
      have hlt := (List.getElem?_eq_some_iff.mp h).1
      rw [length_singleton] at hlt
      omega
    rw [hzero] at h
    exact .inr ⟨by omega, (Option.some.inj h).symm⟩

theorem mem_dataFrames (h : f ∈ dataFrames m id flags data) :
    fullCount m data.length ≠ 0 ∧ f = fullFrame m id flags data ∨ f = lastFrame m id flags data := by
  obtain ⟨i, hi⟩ := getElem?_of_mem h
  rcases getElem?_dataTail hi with ⟨hlt, rfl⟩ | ⟨-, rfl⟩
  · exact .inl ⟨by omega, rfl⟩
  · exact .inr rfl

theorem framed_dataFrames (hm : 0 < m) (hmax : m < 2 ^ 24) (hid : id.toNat < 2 ^ 31) :
    ∀ f ∈ dataFrames m id flags data, Framed f := by
  intro f hf
  have hlength := length_eq_full_add_last m data.length
  have hlast := lastLength_le hm data.length
  rcases mem_dataFrames hf with ⟨hfull, rfl⟩ | rfl
  · exact ⟨length_take_of_full hfull, hmax, hid⟩
  · exact ⟨length_take_of_le (by omega), lt_of_le_of_lt hlast hmax, hid⟩

theorem isEndStream_dataFlags (endStream : Bool) : (dataFlags endStream).isEndStream = endStream := by
  cases endStream <;> decide

/-- All but the payload is as it should be. -/
theorem carriesData_dataFrames (hm : 0 < m) (endStream : Bool)
    (hpayload : (dataFrames m id (dataFlags endStream) data).flatMap (fun f => f.2) = data) :
    CarriesData m id endStream data (dataFrames m id (dataFlags endStream) data) where
  some_frame := by
    rw [dataFrames, dataTail_eq]
    exact cons_ne_nil _ _
  data := by
    intro f hf
    rcases mem_dataFrames hf with ⟨-, rfl⟩ | rfl
    · exact ⟨rfl, rfl⟩
    · exact ⟨rfl, rfl⟩
  plain := by
    intro f hf
    rcases mem_dataFrames hf with ⟨-, rfl⟩ | rfl
    · change (FrameFlags.mk ((dataFlags endStream).bits &&& 0xFE)).isPadded = false
      cases endStream <;> decide
    · change (dataFlags endStream).isPadded = false
      cases endStream <;> decide
  fits := by
    intro f hf
    have hlast := lastLength_le hm data.length
    rcases mem_dataFrames hf with ⟨-, rfl⟩ | rfl
    · exact length_take_le _ _
    · exact le_trans (length_take_le _ _) hlast
  payload := hpayload
  last := by
    intro i f hf
    have hcount : (dataFrames m id (dataFlags endStream) data).length = fullCount m data.length + 1 := by
      rw [dataFrames, dataTail, length_append, length_replicate, length_singleton]
    rw [hcount]
    rcases getElem?_dataTail hf with ⟨hlt, rfl⟩ | ⟨rfl, rfl⟩
    · have hclear : (FrameFlags.mk ((dataFlags endStream).bits &&& 0xFE)).isEndStream = false := by
        cases endStream <;> decide
      exact ⟨fun h => absurd (hclear.symm.trans h) Bool.false_ne_true, fun h => absurd h.1 (by omega)⟩
    · have hset := isEndStream_dataFlags endStream
      exact ⟨fun h => ⟨rfl, hset.symm.trans h⟩, fun h => hset.trans h.2⟩

end Arrives

section Produce

variable {e : FrameEncoder} {id : StreamId} {bufs : List (List UInt8)}

section

variable (hmin : 16384 ≤ e.maxFrameSize) (hmax : e.maxFrameSize < 2 ^ 24) (hid : id.toNat < 2 ^ 31)

include hmin hmax hid

/-- The frames that are in the buffers. -/
theorem parseFrames_produce_data (flags : FrameFlags) (data : List UInt8) (hbufs : ∀ buf ∈ bufs, buf ≠ [])
    (hroom : 9 * (fullCount e.maxFrameSize data.length + 1) + data.length ≤ (bufs.map List.length).sum) :
    ∃ out e', produce ⟨id, flags, .data data⟩ bufs e = .ok out e' ∧
      parseFrames out = some (dataFrames e.maxFrameSize id flags data) := by
  have hm : 0 < e.maxFrameSize := by omega
  have hwire : (wire (dataFrames e.maxFrameSize id flags data)).length =
      9 * (fullCount e.maxFrameSize data.length + 1) + data.length := by
    rw [length_wire, length_flatMap_dataFrames, dataFrames, dataTail, length_append, length_replicate, length_singleton]
  obtain ⟨e', hproduce⟩ := produce_data hm id flags data hbufs (by rwa [hwire])
  exact ⟨_, e', hproduce, parseFrames_wire (framed_dataFrames hm hmax hid)⟩

theorem repeats_of_carriesData {endStream : Bool} {data : List UInt8} (hbufs : ∀ buf ∈ bufs, buf ≠ [])
    (hroom : 9 * (fullCount e.maxFrameSize data.length + 1) + data.length ≤ (bufs.map List.length).sum)
    (h : ∃ out e' frames, produce ⟨id, dataFlags endStream, .data data⟩ bufs e = .ok out e' ∧
      parseFrames out = some frames ∧ CarriesData e.maxFrameSize id endStream data frames) :
    ∀ i, i < data.length → data[i]? = data[i % e.maxFrameSize]? := by
  obtain ⟨out, e', hproduce, hparse⟩ :=
    parseFrames_produce_data hmin hmax hid (dataFlags endStream) data hbufs hroom
  obtain ⟨out', e'', frames, hout, hframes, hcarries⟩ := h
  rw [hproduce] at hout
  cases hout
  rw [hparse] at hframes
  cases hframes
  exact (payload_dataFrames_iff (by omega)).mp hcarries.payload

end

/-- The payload arrives in DATA frames exactly if it repeats its first `maxFrameSize` bytes. -/
theorem carriesData_iff (hmin : 16384 ≤ e.maxFrameSize) (hmax : e.maxFrameSize < 2 ^ 24)
    (hid : id.toNat < 2 ^ 31) (endStream : Bool) (data : List UInt8) (hbufs : ∀ buf ∈ bufs, buf ≠ [])
    (hroom : 9 * (fullCount e.maxFrameSize data.length + 1) + data.length ≤ (bufs.map List.length).sum) :
    (∃ out e' frames, produce ⟨id, dataFlags endStream, .data data⟩ bufs e = .ok out e' ∧
      parseFrames out = some frames ∧ CarriesData e.maxFrameSize id endStream data frames) ↔
      ∀ i, i < data.length → data[i]? = data[i % e.maxFrameSize]? := by
  constructor
  · exact repeats_of_carriesData hmin hmax hid hbufs hroom
  · intro hrepeat
    have hm : 0 < e.maxFrameSize := by omega
    obtain ⟨out, e', hproduce, hparse⟩ :=
      parseFrames_produce_data hmin hmax hid (dataFlags endStream) data hbufs hroom
    exact ⟨out, e', _, hproduce, hparse, carriesData_dataFrames hm endStream ((payload_dataFrames_iff hm).mpr hrepeat)⟩

end Produce

/-- A payload of one byte. -/
theorem carriesData_iff_oneByte :
    (∃ out e' frames, produce ⟨1, dataFlags true, .data [7]⟩ [List.replicate 10 0] (.new 16384 true) =
        .ok out e' ∧ parseFrames out = some frames ∧ CarriesData 16384 1 true [7] frames) ↔
      ∀ i, i < [(7 : UInt8)].length → [(7 : UInt8)][i]? = [(7 : UInt8)][i % 16384]? :=
  carriesData_iff (e := .new 16384 true) (by decide) (by decide) (by decide) true [7]
    (by decide) (by decide)

/-- Of a payload that ends with another byte than it starts with, one byte too long for a
frame, the last byte is lost. -/
theorem not_carriesData_lastByte :
    ¬ ∃ out e' frames,
      produce ⟨1, dataFlags true, .data (List.replicate 16384 0 ++ [1])⟩ [List.replicate 16403 0]
        (.new 16384 true) = .ok out e' ∧ parseFrames out = some frames ∧
          CarriesData 16384 1 true (List.replicate 16384 0 ++ [1]) frames := by
  intro h
  have hlength : (replicate 16384 (0 : UInt8) ++ [1]).length = 16385 := by
    rw [length_append, length_replicate, length_singleton]
  have hne : ∀ buf ∈ [replicate 16403 (0 : UInt8)], buf ≠ [] := by
    intro buf hbuf
    rw [mem_singleton.mp hbuf, ← length_pos_iff, length_replicate]
    decide
  have hrepeat := repeats_of_carriesData (by decide) (by decide) (by decide) hne
    (by
      rw [hlength, map_singleton, length_replicate]
      decide) h 16384 (by rw [hlength]; decide)
  rw [getElem?_append_right (by rw [length_replicate]), length_replicate,
    getElem?_append_left (by rw [length_replicate]; decide), getElem?_replicate] at hrepeat
  cases hrepeat

end FrameEncoder

end YlongHttp.H2
