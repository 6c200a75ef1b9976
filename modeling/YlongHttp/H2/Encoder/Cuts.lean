/-
Control frames in buffers of any lengths.

A control frame should come out the same however the buffers cut it (`SameBytes`).
GOAWAY and PRIORITY frames do. SETTINGS and PING frames need a first buffer that holds the
header up to the flags, because a header writer that is resumed before puts the type and
the flags elsewhere (`connection_stale`). RST_STREAM frames need one that holds the whole
header (`rstStream_stuck`). A WINDOW_UPDATE frame starts its increment again in every
buffer, so the pieces must repeat the front of it (`Repeats`). `sameBytes_iff` puts these
together.
-/

import YlongHttp.H2.Encoder.WindowUpdate

namespace YlongHttp.H2.FrameEncoder

open Rust Codec Outcome List

/-- Buffers of lengths `lens`, whatever is in them, get the same bytes of the frame as one
buffer with room for all of it. -/
def SameBytes (e : FrameEncoder) (frame : Frame) (lens : List Nat) : Prop :=
  ∀ (bufs : List (List UInt8)) (big : List UInt8), bufs.map List.length = lens →
    (controlOctets frame).length ≤ big.length →
      ∃ out e₁ e₂, produce frame bufs e = .ok out e₁ ∧ produce frame [big] e = .ok out e₂

/-- Pieces of a word of four octets, of which `done` are out: every piece ends in the word and
is also the front of it. -/
def Repeats (octets : List UInt8) : Nat → List Nat → Prop
  | done, [] => done = 4
  | done, len :: lens =>
    done = 4 ∨ done + min 4 len ≤ 4 ∧ octets.take (min 4 len) = (octets.drop done).take (min 4 len) ∧
      Repeats octets (done + min 4 len) lens

/-- The buffers into which a control frame goes right. -/
def SafeCuts (frame : Frame) (lens : List Nat) : Prop :=
  match frame.payload with
  | .settings _ | .ping _ => 5 ≤ lens.headD 0
  | .rstStream _ => 9 ≤ lens.headD 0
  | .windowUpdate increment => Repeats (octets32 increment) 0 (roomAfter 9 lens)
  | _ => True

/-! ### Buffers and their lengths -/

variable {lens : List Nat} {frame : Frame} {e e' : FrameEncoder} {out : List UInt8}
  {bufs : List (List UInt8)} {header payload : FrameEncoderState} {resumable : Nat → Nat → Prop} {len n : Nat}
  {buf : List UInt8} {id : StreamId} {flags : FrameFlags}

theorem ne_nil_of_lengths (h : bufs.map List.length = lens) (hpos : ∀ n ∈ lens, 0 < n) : ∀ buf ∈ bufs, buf ≠ [] := by
  intro buf hbuf
  apply length_pos_iff.mp
  apply hpos
  rw [← h]
  exact mem_map_of_mem hbuf

section

variable (hw : Writers frame header payload (controlOctets frame) resumable)
  (hlarge : ∀ room, 9 ≤ room → resumable 0 room)

include hw hlarge

/-- Safe writers write the same bytes into all buffers. -/
theorem Writers.sameBytes (hpos : ∀ n ∈ len :: lens, 0 < n) (hroom : (controlOctets frame).length ≤ (len :: lens).sum)
    (hres : resumable 0 len) (e : FrameEncoder) : SameBytes e frame (len :: lens) := by
  intro bufs big hlens hbig
  have hnine := hw.nine_le
  cases bufs with
  | nil => cases hlens
  | cons buf bufs =>
    have hne := ne_nil_of_lengths hlens hpos
    obtain ⟨rfl, rfl⟩ := cons.inj hlens
    obtain ⟨e₁, h₁⟩ := hw.produce_eq (hne buf mem_cons_self)
      (fun b hb => hne b (mem_cons_of_mem buf hb)) hres hroom e
    have hbigne : big ≠ [] := length_pos_iff.mp (by omega)
    obtain ⟨e₂, h₂⟩ : ∃ e₂, produce frame [big] e = .ok (controlOctets frame) e₂ :=
      hw.produce_eq hbigne (fun _ h => absurd h not_mem_nil) (hlarge big.length (by omega)) hbig e
    exact ⟨_, e₁, e₂, h₁, h₂⟩

/-- In a single buffer the octets of the frame come out. -/
theorem Writers.eq_of_sameBytes
    (h : SameBytes e frame lens) (bufs : List (List UInt8)) (hbufs : bufs.map List.length = lens) :
    ∃ e', produce frame bufs e = .ok (controlOctets frame) e' := by
  have hnine := hw.nine_le
  obtain ⟨out, e₁, e₂, h₁, h₂⟩ := h bufs (controlOctets frame) hbufs (le_refl _)
  obtain ⟨e₃, h₃⟩ := hw.produce_eq (length_pos_iff.mp (show 0 < (controlOctets frame).length by omega))
    (fun _ h => absurd h not_mem_nil) (hlarge _ hnine) (le_refl _) e
  rw [h₃] at h₂
  cases h₂
  exact ⟨e₁, h₁⟩

end

/-! ### Headers on stream 0 -/

/-- The place in the header that gets lost if the writer is resumed at `k`. -/
def lostPlace (k : Nat) : Nat := if k ≤ 3 then 3 else 4

/-- A header writer leaves the state alone, and resumed at the type or before it does not write
the type to its place; resumed at the flags it does not write these to theirs. -/
theorem iterateConnectionHeader_keeps {payloadLen : Nat} {frameType flags : UInt8}
    (hk : 1 ≤ e.encodedBytes) (hk' : e.encodedBytes ≤ 4)
    (h : iterateConnectionHeader payloadLen frameType flags buf n e = .ok out e') : (out.length = buf.length ∧
      out[lostPlace e.encodedBytes - e.encodedBytes]? = buf[lostPlace e.encodedBytes - e.encodedBytes]?) ∧ e' = e := by
  refine fillRange_keeps (K := fun b => b.length = buf.length ∧
    b[lostPlace e.encodedBytes - e.encodedBytes]? = buf[lostPlace e.encodedBytes - e.encodedBytes]?)
    ?_ n 0 ⟨rfl, rfl⟩ h
  intro i b b' e'' hb hstep
  have hset : ∀ (j : Nat) (x : UInt8), j ≠ lostPlace e.encodedBytes - e.encodedBytes →
      (setIndex b j x : Method FrameEncoder FrameEncoderErr (List UInt8)) e = .ok b' e'' →
      (b'.length = buf.length ∧ b'[lostPlace e.encodedBytes - e.encodedBytes]? =
        buf[lostPlace e.encodedBytes - e.encodedBytes]?) ∧ e'' = e := by
    intro j x hj hset
    by_cases hlt : j < b.length
    · rw [setIndex_eq_ok hlt] at hset
      cases hset
      rw [length_set, getElem?_set_ne hj]
      exact ⟨hb, rfl⟩
    · rw [setIndex, if_neg hlt] at hset
      cases hset
  unfold lostPlace at hset ⊢
  unfold setConnectionHeaderByte at hstep
  -- Every branch writes to a place of its own, and none of them is the lost one.
  split at hstep
  · exact hset i _ (by split <;> omega) hstep
  · split at hstep
    · exact hset 3 _ (by split <;> omega) hstep
    · split at hstep
      · exact hset 4 _ (by split <;> omega) hstep
      · split at hstep
        · exact hset i _ (by split <;> omega) hstep
        · cases hstep

/-- What a header writer that succeeds has done, if writing leaves the state alone. -/
theorem encodeHeader_of_ok {iterate : Nat → Method FrameEncoder FrameEncoderErr (List UInt8)}
    {next : FrameEncoderState} {reset : Bool} {room : Nat} (hk : e.encodedBytes < 9)
    (hiterate : ∀ out e', iterate (min (9 - e.encodedBytes) room) e = .ok out e' → e' = e)
    (h : encodeHeader iterate next reset room e = .ok (out, n) e') :
    n = min (9 - e.encodedBytes) room ∧ e' = e.afterHeader next reset n ∧ iterate n e = .ok out e := by
  have hwrites := h
  simp only [encodeHeader, Method.get_bind, headerBytesToWrite_eq hk] at hwrites
  obtain ⟨out₁, e₁, heq, -⟩ := bind_eq_ok.mp hwrites
  obtain rfl := hiterate out₁ e₁ heq
  rw [encodeHeader_eq hk rfl heq] at h
  cases h
  exact ⟨rfl, rfl, heq⟩

section Connection

variable {payloadLen : Nat} {frameType flags : UInt8}

/-- A byte that was in the buffers before stays where the type or the flags should be. -/
theorem connection_stale {c : UInt8} (hopen : header.isComplete = false)
    (hwriter : ∀ {e : FrameEncoder}, e.currentFrame = some frame → ∀ buf : List UInt8,
      encodeState header buf e = encodeHeader (iterateConnectionHeader payloadLen frameType flags buf)
        payload false buf.length e) (lens : List Nat) :
    ∀ {e e' : FrameEncoder} {out : List UInt8}, e.currentFrame = some frame → e.state = header →
      1 ≤ e.encodedBytes → e.encodedBytes ≤ 4 → (∀ n ∈ lens, 0 < n) →
      lostPlace e.encodedBytes < e.encodedBytes + lens.sum →
      encodeAll (lens.map fun n => List.replicate n c) e = .ok out e' →
        out[lostPlace e.encodedBytes - e.encodedBytes]? = some c := by
  induction lens with
  | nil =>
    intro e e' out _ _ _ hk hpos hroom _
    unfold lostPlace at hroom
    rw [sum_nil] at hroom
    split at hroom <;> omega
  | cons len lens ih =>
    intro e e' out hframe hstate hk hk' hpos hroom h
    have hlen : 0 < len := hpos len mem_cons_self
    have hlost : e.encodedBytes ≤ lostPlace e.encodedBytes ∧ lostPlace e.encodedBytes ≤ 4 := by
      unfold lostPlace
      split <;> omega
    have hne : replicate len c ≠ [] := mt (replicate_eq_nil_iff c).mp (by omega)
    obtain ⟨out₁, n₁, e₁, rest, hcall, hrest, rfl⟩ := encodeAll_of_ok h
    obtain ⟨out₂, n₂, e₂, hround, hsame, hmoved⟩ :=
      encode_first hne (by rw [hstate]; exact hopen) hcall
    rw [hstate, hwriter hframe] at hround
    obtain ⟨hn, rfl, hwrite⟩ := encodeHeader_of_ok (by omega)
      (fun out' e'' heq => (iterateConnectionHeader_keeps hk hk' heq).2) hround
    obtain ⟨⟨hlength, hstale⟩, -⟩ := iterateConnectionHeader_keeps hk hk' hwrite
    rw [length_replicate] at hn hlength
    by_cases hreach : lostPlace e.encodedBytes - e.encodedBytes < len
    · -- The lost place is in this buffer.
      have hat : (out₂.take n₂)[lostPlace e.encodedBytes - e.encodedBytes]? = some c := by
        rw [getElem?_take_of_lt (by omega), hstale, getElem?_replicate, if_pos hreach]
      have hwritten : out₂.take n₂ <+: out₁.take n₁ := by
        by_cases hmove : (e.afterHeader payload false n₂).state = e.state
        · obtain ⟨rfl, rfl, -⟩ := hsame hmove
          exact prefix_rfl
        · obtain ⟨hle, hpre⟩ := hmoved hmove
          exact prefix_take_iff.mpr ⟨hpre, hle⟩
      obtain ⟨more, hmore⟩ := hwritten.trans (prefix_append _ rest)
      rw [← hmore, getElem?_append_left (List.getElem?_eq_some_iff.mp hat).1]
      exact hat
    · -- The buffer ends before the lost place.
      rw [state_afterHeader (by omega)] at hsame
      obtain ⟨rfl, rfl, rfl⟩ := hsame rfl
      have hkept : lostPlace (e.encodedBytes + n₁) = lostPlace e.encodedBytes := by
        unfold lostPlace at hreach ⊢
        split at hreach <;> split <;> omega
      have hnext := ih (e := { e with encodedBytes := e.encodedBytes + n₁ }) hframe hstate
        (show 1 ≤ e.encodedBytes + n₁ by omega) (show e.encodedBytes + n₁ ≤ 4 by omega)
        (fun n hn => hpos n (mem_cons_of_mem _ hn))
        (show lostPlace (e.encodedBytes + n₁) < e.encodedBytes + n₁ + lens.sum by
          rw [sum_cons] at hroom
          omega) hrest
      have htake : (out₁.take n₁).length = n₁ := length_take_of_le (by omega)
      rw [getElem?_append_right (by omega), htake]
      rwa [hkept, Nat.sub_add_eq] at hnext

/-- A first buffer that ends before the flags are out spoils the frame. -/
theorem sameBytes_connection_iff {h : FrameHeader} (hstream : h.streamId = 0)
    (hw : Writers frame header payload (controlOctets frame) fun k room => k = 0 ∧ 5 ≤ room ∨ 5 ≤ k)
    (hwriter : ∀ {e : FrameEncoder}, e.currentFrame = some frame → ∀ buf : List UInt8, encodeState header buf e =
        encodeHeader (iterateConnectionHeader h.payloadLength h.frameType h.flags buf) payload false buf.length e)
    (hpos : ∀ n ∈ len :: lens, 0 < n) (hroom : (controlOctets frame).length ≤ (len :: lens).sum)
    (e : FrameEncoder) : SameBytes e frame (len :: lens) ↔ 5 ≤ len := by
  have hlarge : ∀ room, 9 ≤ room → 0 = 0 ∧ 5 ≤ room ∨ 5 ≤ 0 := fun room h => .inl ⟨rfl, by omega⟩
  refine ⟨fun hsame => not_lt.mp fun hlen => ?_, fun hsafe => hw.sameBytes hlarge hpos hroom (.inl ⟨rfl, hsafe⟩) e⟩
  have hnine := hw.nine_le
  have hfirst : 0 < len := hpos len mem_cons_self
  have hlost : len ≤ lostPlace len ∧ lostPlace len ≤ 4 := by
    unfold lostPlace
    split <;> omega
  obtain ⟨x, hx⟩ : ∃ x, (controlOctets frame)[lostPlace len]? = some x :=
    ⟨_, getElem?_eq_getElem (by omega)⟩
  -- The buffers hold a byte that does not belong to the lost place.
  obtain ⟨e', hproduce⟩ := hw.eq_of_sameBytes hlarge hsame
    ((len :: lens).map fun n => replicate n (x + 1)) (by simp [map_map, Function.comp_def])
  obtain ⟨e₀, hset, hframe, hencoded, hstate⟩ := hw.setFrame_eq e
  simp only [produce, Method.bind_apply, hset, bind_ok] at hproduce
  have hround := hwriter hframe (replicate len (x + 1))
  rw [encodeHeader_eq (by omega) (by rw [length_replicate]; omega) (iterateConnectionHeader_eq (n := len)
    hstream (by omega) (by rw [length_replicate]) (.inl hencoded)), state_afterHeader (by omega), ← hstate, hencoded,
    zero_add] at hround
  have hne : replicate len (x + 1) ≠ [] := mt (replicate_eq_nil_iff _).mp (by omega)
  obtain ⟨out₁, n₁, e₁, rest, hcall, hrest, heq⟩ := encodeAll_of_ok hproduce
  rw [encode_of_same hne (by rw [hstate]; exact hw.header_open) hround rfl] at hcall
  cases hcall
  rw [sum_cons] at hroom
  have hstale : rest[lostPlace len - len]? = some (x + 1) :=
    connection_stale hw.header_open hwriter lens (e := { e₀ with encodedBytes := len }) hframe hstate hfirst
      (show len ≤ 4 by omega) (fun n hn => hpos n (mem_cons_of_mem len hn))
      (show lostPlace len < len + lens.sum by omega) hrest
  have htake : ((h.octets.drop 0).take len).length = len := length_take_drop (by rw [FrameHeader.length_octets]; omega)
  rw [heq, take_left' htake, getElem?_append_right (by omega), htake, hstale] at hx
  have hdiff : x + 1 ≠ x := by simp
  exact hdiff (Option.some.inj hx)

end Connection

/-! ### RST_STREAM -/

theorem rstStreamHeaderByte_state {k i : Nat} {x : UInt8}
    (h : rstStreamHeaderByte frame k i e = .ok x e') : e' = e ∧ ¬ (5 ≤ k + i ∧ i < 5) := by
  unfold rstStreamHeaderByte at h
  split_ifs at h
  iterate 3
    · cases h
      exact ⟨rfl, by omega⟩
  · obtain ⟨j, e₁, hsub, h⟩ := bind_eq_ok.mp h
    cases h
    by_cases hi : 5 ≤ i
    · rw [checkedSub_eq_ok hi] at hsub
      cases hsub
      exact ⟨rfl, by omega⟩
    · rw [checkedSub, if_neg hi] at hsub
      cases hsub

/-- A call inside the header: one that resumes it does not get to the stream id. -/
theorem rstStream_call (hframe : e.currentFrame = some frame)
    (hstate : e.state = .encodingRstStreamFrame) (hk : e.encodedBytes < 9) (hne : buf ≠ [])
    (h : encodeAll (buf :: bufs) e = .ok out e') : (1 ≤ e.encodedBytes → e.encodedBytes + buf.length ≤ 5) ∧
      (e.encodedBytes + buf.length < 9 → ∃ rest,
        encodeAll bufs { e with encodedBytes := e.encodedBytes + buf.length } = .ok rest e') := by
  have hlen : 0 < buf.length := length_pos_iff.mpr hne
  obtain ⟨out₁, n₁, e₁, rest, hcall, hrest, rfl⟩ := encodeAll_of_ok h
  obtain ⟨out₂, n₂, e₂, hround, hsame, -⟩ := encode_first hne (by rw [hstate]; rfl) hcall
  rw [hstate] at hround
  change encodeRstStreamFrame buf e = _ at hround
  rw [encodeRstStreamFrame_eq hframe hk] at hround
  have hitems : ∀ {len : Nat} {out' : List UInt8} {e'' : FrameEncoder},
      fillItems (rstStreamHeaderByte frame e.encodedBytes) 0 len buf e = .ok out' e'' →
      e'' = e ∧ ∀ i, i < len → i < buf.length → ∃ x, rstStreamHeaderByte frame e.encodedBytes (0 + i) e = .ok x e :=
    fun h => fillItems_of_ok (fun i x e'' h => (rstStreamHeaderByte_state h).1) _ 0 h
  obtain ⟨hn, rfl, hwrite⟩ := encodeHeader_of_ok hk (fun out' e'' heq => (hitems heq).1) hround
  constructor
  · intro hresumed
    by_contra hlong
    -- The first byte of the stream id in this buffer.
    obtain ⟨x, hx⟩ := (hitems hwrite).2 (5 - e.encodedBytes) (by omega) (by omega)
    exact (rstStreamHeaderByte_state hx).2 ⟨by omega, by omega⟩
  · intro hlt
    have hn₂ : n₂ = buf.length := by omega
    rw [state_afterHeader (by omega)] at hsame
    obtain ⟨rfl, rfl, rfl⟩ := hsame rfl
    rw [hn₂] at hrest
    exact ⟨rest, hrest⟩

/-- A header that is resumed is never finished. -/
theorem rstStream_stuck (bufs : List (List UInt8)) :
    ∀ {e e' : FrameEncoder} {out : List UInt8}, e.currentFrame = some frame →
      e.state = .encodingRstStreamFrame → 1 ≤ e.encodedBytes → e.encodedBytes < 9 →
      (∀ buf ∈ bufs, buf ≠ []) → 9 ≤ e.encodedBytes + (bufs.map List.length).sum → encodeAll bufs e ≠ .ok out e' := by
  induction bufs with
  | nil =>
    intro e e' out _ _ _ hk _ hroom
    exact absurd hroom (not_le.mpr hk)
  | cons buf bufs ih =>
    intro e e' out hframe hstate hk hk' hbufs hroom h
    obtain ⟨hshort, hnext⟩ := rstStream_call hframe hstate hk' (hbufs buf mem_cons_self) h
    obtain ⟨rest, hrest⟩ := hnext (by omega)
    exact ih (e := { e with encodedBytes := e.encodedBytes + buf.length }) hframe hstate
      (Nat.le_add_right_of_le hk) (show e.encodedBytes + buf.length < 9 by omega)
      (fun b hb => hbufs b (mem_cons_of_mem buf hb)) (by rwa [add_assoc]) hrest

theorem not_sameBytes_rstStream {errorCode : UInt32} (hpos : ∀ n ∈ len :: lens, 0 < n)
    (hroom : (controlOctets ⟨id, flags, .rstStream errorCode⟩).length ≤ (len :: lens).sum)
    (hlen : len < 9) (e : FrameEncoder) : ¬ SameBytes e ⟨id, flags, .rstStream errorCode⟩ (len :: lens) := by
  intro hsame
  have hw := writers_rstStream id flags errorCode
  have hnine := hw.nine_le
  have hfirst : 0 < len := hpos len mem_cons_self
  have hlens : ((len :: lens).map fun n => replicate n (0 : UInt8)).map length = len :: lens := by
    simp [map_map, Function.comp_def]
  obtain ⟨e', hproduce⟩ := hw.eq_of_sameBytes (fun room h => ⟨rfl, h⟩) hsame _ hlens
  obtain ⟨e₀, hset, hframe, hencoded, hstate⟩ := hw.setFrame_eq e
  simp only [produce, Method.bind_apply, hset, bind_ok, map_cons] at hproduce
  have hne := ne_nil_of_lengths hlens hpos
  obtain ⟨-, hnext⟩ :=
    rstStream_call hframe hstate (by omega) (hne _ mem_cons_self) hproduce
  rw [length_replicate, hencoded, zero_add] at hnext
  obtain ⟨rest, hrest⟩ := hnext hlen
  refine rstStream_stuck _ (e := { e₀ with encodedBytes := len }) hframe hstate hfirst hlen
    (fun b hb => hne b (mem_cons_of_mem _ hb)) ?_ hrest
  change 9 ≤ len + _
  rw [(cons.inj hlens).2, ← sum_cons]
  omega

/-! ### WINDOW_UPDATE -/

/-- The rest of the increment comes out exactly if the pieces repeat the front of it. -/
theorem windowOutput_eq_iff {octets : List UInt8} (hoctets : octets.length = 4) (lens : List Nat) :
    ∀ {done : Nat}, done ≤ 4 → (windowOutput octets done lens = octets.drop done ↔ Repeats octets done lens) := by
  induction lens with
  | nil =>
    intro done hdone
    rw [windowOutput, eq_comm, drop_eq_nil_iff, Repeats]
    omega
  | cons len lens ih =>
    intro done hdone
    by_cases hfour : done = 4
    · subst hfour
      rw [windowOutput_four, eq_comm, drop_eq_nil_iff, hoctets]
      exact ⟨fun _ => .inl rfl, fun _ => le_refl 4⟩
    · have hzero : done - 9 = 0 := by omega
      have hpiece : windowPiece done len = min 4 len := by
        rw [windowPiece, if_neg hfour, hzero]
      have htake : (octets.take (min 4 len)).length = min 4 len :=
        length_take_of_le (by omega)
      rw [windowOutput, hpiece, hzero, drop_zero, Repeats]
      generalize min 4 len = n at htake
      constructor
      · intro heq
        have hle : done + n ≤ 4 := by
          have hlength := congrArg length heq
          rw [length_append, length_drop] at hlength
          omega
        have hsame : ((octets.drop done).take n).length = n := length_take_drop (by omega)
        rw [← take_append_drop n (octets.drop done), drop_drop] at heq
        obtain ⟨hfront, hrest⟩ := append_inj heq (by rw [htake, hsame])
        exact .inr ⟨hle, hfront, (ih hle).mp hrest⟩
      · rintro (hdone' | ⟨hle, hfront, hrest⟩)
        · exact absurd hdone' hfour
        · rw [hfront, (ih hle).mpr hrest, ← drop_drop, take_append_drop]

theorem sameBytes_windowUpdate_iff {increment : UInt32}
    (hpos : ∀ n ∈ lens, 0 < n) (hroom : (controlOctets ⟨id, flags, .windowUpdate increment⟩).length ≤ lens.sum)
    (e : FrameEncoder) : SameBytes e ⟨id, flags, .windowUpdate increment⟩ lens ↔
      Repeats (octets32 increment) 0 (roomAfter 9 lens) := by
  have hsingle : ∀ big : List UInt8, 13 ≤ big.length → ∃ e',
      produce ⟨id, flags, .windowUpdate increment⟩ [big] e =
        .ok ((controlFrame ⟨id, flags, .windowUpdate increment⟩).1.octets ++ octets32 increment) e' := by
    intro big hbig
    have hall : windowOutput (octets32 increment) 0 (roomAfter 9 [big.length]) = octets32 increment := by
      have hpiece : windowPiece 0 (big.length - 9) = 4 := by
        rw [windowPiece, if_neg (by decide)]
        omega
      rw [roomAfter, if_neg (by omega), windowOutput, hpiece]
      rfl
    have hne : ∀ buf ∈ [big], buf ≠ [] := by
      intro buf hbuf
      rw [mem_singleton.mp hbuf]
      exact length_pos_iff.mp (by omega)
    obtain ⟨e', hone⟩ := produce_windowUpdate hne (show 9 ≤ big.length + 0 by omega) e
    rw [map_singleton, hall] at hone
    exact ⟨e', hone⟩
  rw [← windowOutput_eq_iff rfl _ (Nat.zero_le 4)]
  change 13 ≤ lens.sum at hroom
  constructor
  · intro hsame
    have hlens : (lens.map fun n => replicate n (0 : UInt8)).map length = lens := by simp [map_map, Function.comp_def]
    obtain ⟨out, e₁, e₂, h₁, h₂⟩ := hsame _ (replicate 13 0) hlens (Nat.le_refl _)
    obtain ⟨e₃, h₃⟩ := hsingle (replicate 13 0) (Nat.le_refl _)
    obtain ⟨e₄, h₄⟩ := produce_windowUpdate (ne_nil_of_lengths hlens hpos) (by rw [hlens]; omega) e
    rw [h₃] at h₂
    cases h₂
    rw [h₁, hlens] at h₄
    exact (append_cancel_left (ok.inj h₄).1).symm
  · intro hall bufs big hlens hbig
    obtain ⟨e₁, h₁⟩ := produce_windowUpdate (ne_nil_of_lengths hlens hpos) (by rw [hlens]; omega) e
    obtain ⟨e₂, h₂⟩ := hsingle big hbig
    rw [hlens, hall] at h₁
    exact ⟨_, e₁, e₂, h₁, h₂⟩

/-! ### All control frames -/

/-- A control frame comes out the same in any buffers exactly if they are safe for it. -/
theorem sameBytes_iff {frame : Frame} (hcontrol : frame.payload.IsControl) {lens : List Nat}
    (hpos : ∀ n ∈ lens, 0 < n) (hroom : (controlOctets frame).length ≤ lens.sum) (e : FrameEncoder) :
    SameBytes e frame lens ↔ SafeCuts frame lens := by
  cases lens with
  | nil =>
    rw [length_controlOctets] at hroom
    exact absurd hroom (by rw [sum_nil]; omega)
  | cons len lens =>
    obtain ⟨id, flags, payload⟩ := frame
    cases payload with
    | headers | data | pushPromise => exact hcontrol.elim
    | settings settings =>
      exact sameBytes_connection_iff (h := (controlFrame ⟨id, flags, .settings settings⟩).1) rfl
        (writers_settings id flags settings) encodeState_settingsFrame hpos hroom e
    | ping ping =>
      exact sameBytes_connection_iff (h := (controlFrame ⟨id, flags, .ping ping⟩).1) rfl
        (writers_ping id flags ping) encodeState_pingFrame hpos hroom e
    | rstStream errorCode =>
      have hw := writers_rstStream id flags errorCode
      constructor
      · intro hsame
        by_contra hshort
        exact not_sameBytes_rstStream hpos hroom (Nat.lt_of_not_le hshort) e hsame
      · intro hsafe
        exact hw.sameBytes (fun room h => ⟨rfl, h⟩) hpos hroom ⟨rfl, hsafe⟩ e
    | windowUpdate increment => exact sameBytes_windowUpdate_iff hpos hroom e
    | goaway goaway =>
      have hw := writers_goaway id flags goaway
      exact ⟨fun _ => trivial, fun _ => hw.sameBytes (fun _ _ => trivial) hpos hroom trivial e⟩
    | priority priority =>
      have hw := writers_priority id flags priority
      exact ⟨fun _ => trivial, fun _ => hw.sameBytes (fun _ _ => trivial) hpos hroom trivial e⟩

/-- A PING frame in buffers of five and of twelve bytes. -/
theorem sameBytes_iff_ping :
    SameBytes (.new 16384 true) ⟨0, ⟨0⟩, .ping ⟨[1, 2, 3, 4, 5, 6, 7, 8], rfl⟩⟩ [5, 12] ↔
      SafeCuts ⟨0, ⟨0⟩, .ping ⟨[1, 2, 3, 4, 5, 6, 7, 8], rfl⟩⟩ [5, 12] := by
  have hcontrol : (Payload.ping ⟨[1, 2, 3, 4, 5, 6, 7, 8], rfl⟩).IsControl := trivial
  exact sameBytes_iff hcontrol (by decide) (by decide) _

/-- A SETTINGS frame in buffers of one byte: the type goes out of bounds. -/
theorem not_sameBytes_oneByte : ¬ SameBytes (.new 16384 true) ⟨0, ⟨0⟩, .settings []⟩ [1, 1, 1, 1, 1, 1, 1, 1, 1] := by
  intro hsame
  obtain ⟨out, e₁, e₂, h, -⟩ := hsame (replicate 9 [0]) (replicate 9 0) rfl (by decide)
  cases h

end YlongHttp.H2.FrameEncoder
