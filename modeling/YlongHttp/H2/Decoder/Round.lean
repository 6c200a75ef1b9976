/-
The rounds of the frame decoder, and what holds of a decoder between them.

`HeaderRound` and `PayloadRound` list everything that a round can do. A decoder is
`Sound` if its offset agrees with its buffer and its header, and every round keeps this,
also one that fails.
-/

import YlongHttp.H2.Decoder.Step

namespace YlongHttp.H2.FrameDecoder

open Rust Codec Method Outcome List

variable {H : Type}

/-! ### Clearing the buffer -/

variable {d d' : FrameDecoder H} {buf : List UInt8}

theorem cleared_eq (hbuffer : d.buffer.length = d.offset) : d.cleared = { d with offset := 0, buffer := [] } := by
  unfold cleared
  split
  next => rfl
  next hzero =>
    have hoffset : d.offset = 0 := not_ne_iff.mp hzero
    have hnil : d.buffer = [] := length_eq_zero_iff.mp (hbuffer.trans hoffset)
    rw [← hoffset, ← hnil]

theorem finished_eq (hbuffer : d.buffer.length = d.offset)
    (hkept : Kept d buf d') : d'.finished = { d' with header := .new, offset := 0, buffer := [] } := by
  unfold finished cleared
  by_cases hzero : d'.offset = 0
  · have hnil : d'.buffer = [] := by
      rcases hkept.buffered with ⟨hb, ho⟩ | ⟨hne, -, ho⟩
      · rw [hb]
        exact length_eq_zero_iff.mp (by omega)
      · omega
    simp only [hzero, hnil, ne_eq, not_true_eq_false, if_false]
  · simp only [hzero, ne_eq, not_false_eq_true, if_true]

theorem core_headerMerged (d : FrameDecoder H) (buf : List UInt8) : (d.headerMerged buf).core = d.core := by
  unfold headerMerged
  split <;> rfl

/-! ### Rounds -/

inductive HeaderRound (d : FrameDecoder H) (buf : List UInt8) :
    Outcome (FrameDecoder H) H2Error (Option (List UInt8)) → Prop where
  | more (short : buf.length < 9 - d.offset) : HeaderRound d buf (.ok none (d.kept buf))
  | tooLarge (long : 9 - d.offset ≤ buf.length) :
      HeaderRound d buf (.err (.connectionError .frameSizeError) (d.headerMerged buf))
  | complete (long : 9 - d.offset ≤ buf.length)
      (fits : (parseHeader (d.headerBuffer buf)).payloadLength ≤ d.maxFrameSize) :
      HeaderRound d buf (.ok (some (buf.drop (9 - d.offset)))
        { d.cleared with header := parseHeader (d.headerBuffer buf) })

theorem headerRound (hoffset : d.offset < 9) (hbuffer : d.offset ≤ d.buffer.length)
    (buf : List UInt8) : HeaderRound d buf (decodeFrameHeader buf d) := by
  rw [decodeFrameHeader_eq hoffset hbuffer]
  split
  next short => exact .more short
  next short =>
    split
    next large => exact .tooLarge (Nat.le_of_not_lt short)
    next fits => exact .complete (Nat.le_of_not_lt short) (Nat.le_of_not_lt fits)

variable [HpackLayer H]

/-- The payload of which the decoder holds a part, completed. -/
def whole (d : FrameDecoder H) (buf : List UInt8) : List UInt8 := d.buffer ++ buf.take d.missing

inductive PayloadRound (d : FrameDecoder H) (buf : List UInt8) :
    Outcome (FrameDecoder H) H2Error (Option (List UInt8 × FrameKind)) → Prop where
  | blocked (blocks : d.continuations.Blocks d.header) : PayloadRound d buf (.err (.connectionError .protocolError) d)
  | more (free : ¬ d.continuations.Blocks d.header) (short : buf.length < d.missing) :
      PayloadRound d buf (.ok none (d.kept buf))
  | splitPriority (free : ¬ d.continuations.Blocks d.header) (long : d.missing ≤ buf.length)
      (priority : d.header.frameType = 2) (e : H2Error) : PayloadRound d buf (.err e d)
  | complete (free : ¬ d.continuations.Blocks d.header) (long : d.missing ≤ buf.length)
      {frame : FrameKind} {d' : FrameDecoder H} (kept : Kept d (buf.take d.missing) d')
      (meaning : interpret d.header (d.whole buf) d.core = .ok frame d'.core) :
      PayloadRound d buf (.ok (some (buf.drop d.missing, frame)) d'.finished)
  | refused (free : ¬ d.continuations.Blocks d.header) (long : d.missing ≤ buf.length)
      {e : H2Error} {d' : FrameDecoder H} (kept : Kept d (buf.take d.missing) d')
      (meaning : interpret d.header (d.whole buf) d.core = .err e d'.core) :
      PayloadRound d buf (.err e d')
  | panicked (free : ¬ d.continuations.Blocks d.header) (long : d.missing ≤ buf.length)
      (meaning : interpret d.header (d.whole buf) d.core = .panic) : PayloadRound d buf .panic

section

variable (hbuffer : d.buffer.length = d.offset) (hoffset : d.offset ≤ d.header.payloadLength)

include hbuffer hoffset

theorem payloadRound (buf : List UInt8) : PayloadRound d buf (decodeFramePayload buf d) := by
  rw [decodeFramePayload_eq hoffset]
  split
  next blocks => exact .blocked blocks
  next free =>
    split
    next short => exact .more free short
    next short =>
      have long : d.missing ≤ buf.length := Nat.le_of_not_lt short
      by_cases hsplit : d.header.frameType = 2 ∧ d.offset ≠ 0
      · have hlen : d.offset + (buf.take d.missing).length = d.header.payloadLength := by
          rw [length_take_of_le long, missing]
          omega
        obtain ⟨e, he⟩ := payloadDecoder_split (buf.take d.missing) hsplit.1 hsplit.2 hlen
        rw [he]
        exact .splitPriority free long hsplit.1 e
      · have hspec := payloadDecoder_spec (buf.take d.missing) hbuffer
          (fun htype => by_contra fun hne => hsplit ⟨htype, hne⟩)
        generalize payloadDecoder d.header.frameType (buf.take d.missing) d = x at hspec ⊢
        generalize hy : interpret d.header (d.buffer ++ buf.take d.missing) d.core = y at hspec
        cases hspec with
        | panic => exact .panicked free long hy
        | err e h =>
          obtain ⟨rfl, hkept⟩ := h
          exact .refused free long hkept hy
        | ok frame h =>
          obtain ⟨rfl, hkept⟩ := h
          exact .complete free long hkept hy

omit [HpackLayer H] in
theorem length_whole (long : d.missing ≤ buf.length) : (d.whole buf).length = d.header.payloadLength := by
  rw [whole, length_append, length_take_of_le long, missing]
  omega

end

/-! ### Sound decoders -/

/-- The offset agrees with the buffer and the header. After a header that was too large
the buffer may be longer than the offset says. -/
inductive Sound (d : FrameDecoder H) : Prop where
  | header (stage : d.stage = .header) (short : d.offset < 9) (buffered : d.offset ≤ d.buffer.length)
      (empty : d.offset = 0 → d.buffer = [])
  | payload (stage : d.stage = .payload) (buffered : d.buffer.length = d.offset)
      (short : d.offset ≤ d.header.payloadLength)

omit [HpackLayer H] in
theorem Sound.of_header (hs : d.Sound) (hstage : d.stage = .header) :
    d.offset < 9 ∧ d.offset ≤ d.buffer.length ∧ (d.offset = 0 → d.buffer = []) := by
  cases hs with
  | header _ short buffered empty => exact ⟨short, buffered, empty⟩
  | payload stage _ _ => exact absurd (hstage.symm.trans stage) (by decide)

omit [HpackLayer H] in
theorem Sound.of_payload (hs : d.Sound) (hstage : d.stage = .payload) :
    d.buffer.length = d.offset ∧ d.offset ≤ d.header.payloadLength := by
  cases hs with
  | header stage _ _ _ => exact absurd (hstage.symm.trans stage) (by decide)
  | payload _ buffered short => exact ⟨buffered, short⟩

omit [HpackLayer H] in
/-- A header round leaves a sound decoder, and takes a byte if it completes a header. -/
theorem Sound.headerRound (hs : d.Sound) (hstage : d.stage = .header) (buf : List UInt8) :
    match decodeFrameHeader buf d with
    | .ok (some remain) d' => Sound { d' with stage := .payload } ∧ remain.length < buf.length
    | .ok none d' => Sound d'
    | .err _ d' => Sound d'
    | .panic => False := by
  obtain ⟨short, buffered, empty⟩ := hs.of_header hstage
  have hround := FrameDecoder.headerRound short buffered buf
  generalize decodeFrameHeader buf d = x at hround
  cases hround with
  | more hmore =>
    refine .header hstage (by simp only [kept]; omega)
      (by simp only [kept, length_append]; omega) fun hzero => ?_
    simp only [kept, Nat.add_eq_zero_iff, length_eq_zero_iff] at hzero ⊢
    rw [empty hzero.1, hzero.2, nil_append]
  | tooLarge long =>
    have hnine := nine_le_headerBuffer buffered long
    have hmerged : Sound (d.headerMerged buf) := by
      unfold headerMerged
      split
      next => exact hs
      next hne =>
        exact .header hstage short (by simp only; omega) fun hzero => absurd hzero hne
    exact hmerged
  | complete long fits =>
    refine ⟨?_, ?_⟩
    · unfold cleared
      split
      next => exact .payload rfl rfl (Nat.zero_le _)
      next hzero =>
        have hoffset : d.offset = 0 := not_ne_iff.mp hzero
        exact .payload rfl (by simp [empty hoffset, hoffset]) (by simp [hoffset])
    · rw [length_drop]
      omega

/-- A payload round leaves a sound decoder. -/
theorem Sound.payloadRound (hs : d.Sound) (hstage : d.stage = .payload) (buf : List UInt8) :
    match decodeFramePayload buf d with
    | .ok (some (remain, _)) d' => Sound { d' with stage := .header } ∧ remain.length ≤ buf.length
    | .ok none d' => Sound d'
    | .err _ d' => Sound d'
    | .panic => True := by
  obtain ⟨buffered, short⟩ := hs.of_payload hstage
  have hround := FrameDecoder.payloadRound buffered short buf
  generalize decodeFramePayload buf d = x at hround
  cases hround with
  | blocked => exact hs
  | more free hmore =>
    unfold missing at hmore
    exact .payload hstage (by simp [kept, buffered]) (by simp only [kept]; omega)
  | splitPriority => exact hs
  | complete free long hkept meaning =>
    refine ⟨?_, ?_⟩
    · rw [finished_eq buffered hkept]
      exact .header rfl (Nat.succ_pos 8) (Nat.zero_le _) fun _ => rfl
    · rw [length_drop]
      exact Nat.sub_le _ _
  | refused free long hkept meaning =>
    have hlen : (buf.take d.missing).length = d.header.payloadLength - d.offset :=
      length_take_of_le long
    rcases hkept.buffered with ⟨hbuffer, hoffset⟩ | ⟨-, hbuffer, hoffset⟩
    · exact .payload (hkept.stage.trans hstage) (by rw [hbuffer, hoffset, buffered])
        (by rw [hoffset, hkept.header]; exact short)
    · exact .payload (hkept.stage.trans hstage)
        (by rw [hbuffer, hoffset, length_append, buffered])
        (by rw [hoffset, hkept.header]; omega)
  | panicked => trivial

/-! ### Calls -/

/-- An upper bound of the rounds of a call. -/
def rounds (d : FrameDecoder H) (buf : List UInt8) : Nat :=
  2 * buf.length + match d.stage with
    | .header => 1
    | .payload => 2

theorem decodeLoop_header (h : d.stage = .header) (fuel : Nat) (buf : List UInt8) (frames : List FrameKind) :
    decodeLoop (fuel + 1) buf frames d = (decodeFrameHeader buf d).bind fun remain d' =>
        match remain with
        | some remain => decodeLoop fuel remain frames { d' with stage := .payload }
        | none => .ok frames d' := by
  simp only [decodeLoop, bind_apply, get_apply, bind_ok, h]
  cases decodeFrameHeader buf d with
  | ok remain d' => cases remain <;> rfl
  | err | panic => rfl

theorem decodeLoop_payload (h : d.stage = .payload) (fuel : Nat) (buf : List UInt8) (frames : List FrameKind) :
    decodeLoop (fuel + 1) buf frames d = (decodeFramePayload buf d).bind fun result d' =>
        match result with
        | some (remain, frame) => decodeLoop fuel remain (frames ++ [frame]) { d' with stage := .header }
        | none => .ok frames d' := by
  simp only [decodeLoop, bind_apply, get_apply, bind_ok, h]
  cases decodeFramePayload buf d with
  | ok result d' => cases result <;> rfl
  | err | panic => rfl

/-- What holds between rounds holds after a call, however it ends. -/
theorem decode_invariant {I : FrameDecoder H → Prop}
    (hheader : ∀ {d} (buf : List UInt8), I d → d.stage = .header → match decodeFrameHeader buf d with
      | .ok (some _) d' => I { d' with stage := .payload }
      | .ok none d' => I d'
      | .err _ d' => I d'
      | .panic => True)
    (hpayload : ∀ {d} (buf : List UInt8), I d → d.stage = .payload → match decodeFramePayload buf d with
      | .ok (some _) d' => I { d' with stage := .header }
      | .ok none d' => I d'
      | .err _ d' => I d'
      | .panic => True)
    (hd : I d) (hdecode : (decode buf d).state? = some d') :
    I d' := by
  have hloop : ∀ (fuel : Nat) {d : FrameDecoder H} {buf : List UInt8} {frames : List FrameKind},
      I d → (decodeLoop fuel buf frames d).state? = some d' → I d' := by
    intro fuel
    induction fuel with
    | zero =>
      rintro d buf frames _ ⟨⟩
    | succ fuel ih =>
      intro d buf frames hd h
      cases hstage : d.stage with
      | header =>
        rw [decodeLoop_header hstage] at h
        have hround := hheader buf hd hstage
        generalize decodeFrameHeader buf d = x at h hround
        rcases x with ⟨_ | remain, d₁⟩ | ⟨e, d₁⟩ | _
        · cases h
          exact hround
        · exact ih hround h
        · cases h
          exact hround
        · cases h
      | payload =>
        rw [decodeLoop_payload hstage] at h
        have hround := hpayload buf hd hstage
        generalize decodeFramePayload buf d = x at h hround
        rcases x with ⟨_ | result, d₁⟩ | ⟨e, d₁⟩ | _
        · cases h
          exact hround
        · exact ih hround h
        · cases h
          exact hround
        · cases h
  exact hloop _ hd hdecode

theorem Sound.decode (hs : d.Sound) (h : (FrameDecoder.decode buf d).state? = some d') : d'.Sound := by
  refine decode_invariant (I := Sound) ?_ ?_ hs h
  · intro d buf hs hstage
    have hround := hs.headerRound hstage buf
    generalize decodeFrameHeader buf d = x at hround
    rcases x with ⟨_ | remain, d₁⟩ | ⟨e, d₁⟩ | _
    · exact hround
    · exact hround.1
    · exact hround
    · trivial
  · intro d buf hs hstage
    have hround := hs.payloadRound hstage buf
    generalize decodeFramePayload buf d = x at hround
    rcases x with ⟨_ | result, d₁⟩ | ⟨e, d₁⟩ | _
    · exact hround
    · exact hround.1
    · exact hround
    · trivial

/-! ### Fresh decoders -/

variable {maxFrameSize : UInt32} {maxHeaderListSize : Nat} {d : FrameDecoder Hpack.HpackDecoder}

section

variable (h : configured maxFrameSize maxHeaderListSize = .ok () d)

include h

theorem configured_eq : d = { new with
      maxFrameSize := maxFrameSize.toNat, hpack := .withMaxSize defaultHeaderTableSize maxHeaderListSize } := by
  rw [configured, bind_apply, bind_eq_ok] at h
  obtain ⟨u, d₁, hsize, hlist⟩ := h
  cases hlist
  simp only [setMaxFrameSize] at hsize
  split at hsize
  · cases hsize
  · cases hsize
    rfl

theorem sound_configured : d.Sound := by
  rw [configured_eq h]
  exact .header rfl (Nat.succ_pos 8) (Nat.zero_le _) fun _ => rfl

end

end YlongHttp.H2.FrameDecoder
