/-
What whole payloads mean, type by type.

Most frame types leave the core of the decoder as it is, and their meaning is given
by an equation. HEADERS, PUSH_PROMISE and CONTINUATION frames are methods of the core:
they give bytes to the HPACK layer and open or close a header block.
-/

import YlongHttp.H2.Decoder.Step

namespace YlongHttp.H2.FrameDecoder

open Rust Codec

variable {H : Type}

/-! ### Evaluation -/

@[simp] theorem mergeBuffer_atPayload (p : List UInt8) (h : FrameHeader) (c : Core H) :
    mergeBuffer p (atPayload h c) = .ok p (atPayload h c) := rfl

section

variable (h : FrameHeader)

include h

@[simp] theorem getHeader_atPayload (c : Core H) : getHeader (atPayload h c) = .ok h (atPayload h c) := rfl

@[simp] theorem core_atPayload (c : Core H) : (atPayload h c).core = c := rfl

/-! ### Decoders of a core -/

/-- The decoder of a core that has read a header. -/
def Bare (h : FrameHeader) (d : FrameDecoder H) (c : Core H) : Prop := d = atPayload h c

theorem bare_onField {α : Type} (m : Method H H2Error α) : Sim (Bare h) (Bare h)
      (Method.onField (·.hpack) (fun h d => { d with hpack := h }) m)
      (Method.onField (·.hpack) (fun h c => { c with hpack := h }) m) := by
  rintro _ c rfl
  simp only [Method.onField]
  change Outcome.Related _ ((m c.hpack).mapState _) _
  cases m c.hpack with
  | ok a s => exact .ok a rfl
  | err e s => exact .err e rfl
  | panic => exact .panic

theorem bare_getHeader (d : FrameDecoder H) (c : Core H) (hbare : Bare h d c) : getHeader d = .ok h d := by
  subst hbare
  rfl

theorem bare_mergeBuffer (p : List UInt8) (d : FrameDecoder H) (c : Core H)
    (hbare : Bare h d c) : mergeBuffer p d = .ok p d := by
  subst hbare
  rfl

end

variable [HpackLayer H]

/-! ### Payloads without header blocks -/

variable {h : FrameHeader} {p : List UInt8}

omit [HpackLayer H] in
theorem getSetting_cases (id : UInt16) (value : UInt32) :
    (∃ setting, getSetting id value = (pure setting : Method (FrameDecoder H) H2Error _)) ∨
      ∃ e, getSetting id value = (throw e : Method (FrameDecoder H) H2Error (Option Setting)) := by
  unfold getSetting
  split
  case h_2 =>
    split
    · exact .inl ⟨_, rfl⟩
    · exact .inl ⟨_, rfl⟩
    · exact .inr ⟨_, rfl⟩
  case h_4 =>
    split
    · exact .inr ⟨_, rfl⟩
    · exact .inl ⟨_, rfl⟩
  case h_5 =>
    split
    · exact .inr ⟨_, rfl⟩
    · exact .inl ⟨_, rfl⟩
  all_goals exact .inl ⟨_, rfl⟩

omit [HpackLayer H] in
/-- Settings in chunks of six bytes are read, or one of them is refused. -/
theorem splitSettings_cases (hlen : p.length % 6 = 0) :
    (∃ settings, splitSettings p = (pure settings : Method (FrameDecoder H) H2Error _)) ∨
      ∃ e, splitSettings p = (throw e : Method (FrameDecoder H) H2Error (List Setting)) := by
  induction p using splitSettings.induct with
  | case1 => exact .inl ⟨_, rfl⟩
  | case2 a b c d e f rest ih =>
    have hrest : rest.length % 6 = 0 := by
      simp only [List.length_cons] at hlen
      omega
    have htoken : splitTokenToSetting [a, b, c, d, e, f] =
        (getSetting (be16 a b) (be32 c d e f) : Method (FrameDecoder H) H2Error _) := rfl
    rw [splitSettings, htoken]
    rcases getSetting_cases (H := H) (be16 a b) (be32 c d e f) with ⟨setting, h⟩ | ⟨err, h⟩
    · rw [h]
      rcases ih hrest with ⟨settings, h'⟩ | ⟨err, h'⟩
      · rw [h']
        exact .inl ⟨_, rfl⟩
      · rw [h']
        exact .inr ⟨err, rfl⟩
    · rw [h]
      exact .inr ⟨err, rfl⟩
  | case3 chunk hnil hcons =>
    rcases chunk with _ | ⟨a, _ | ⟨b, _ | ⟨c, _ | ⟨d, _ | ⟨e, _ | ⟨f, rest⟩⟩⟩⟩⟩⟩
    case nil => exact absurd rfl hnil
    case cons.cons.cons.cons.cons.cons => exact absurd rfl (hcons a b c d e f rest)
    all_goals simp at hlen

section Whole

variable (hlen : p.length = h.payloadLength) (c : Core H)

include hlen

theorem interpret_ping (htype : h.frameType = 6) : interpret h p c =
      if h.streamId ≠ 0 then .err (.connectionError .protocolError) c
      else if hp : p.length = 8 then .ok (h.frame (.ping ⟨p, hp⟩)) c
      else .err (.connectionError .frameSizeError) c := by
  simp only [interpret, htype, payloadDecoder, decodePingPayload]
  by_cases hid : h.streamId = 0
  · by_cases hp : p.length = 8 <;> simp [hid, hp, isConnectionFrame, hlen.symm]
  · simp [hid, isConnectionFrame]

theorem interpret_priority (htype : h.frameType = 2) : interpret h p c =
      if h.streamId = 0 then .err (.connectionError .protocolError) c
      else
        match p with
        | [s₀, s₁, s₂, s₃, weight] =>
          .ok (h.frame (.priority ⟨s₀ &&& 0x80 == 0x80, be32 (s₀ &&& 0x7f) s₁ s₂ s₃, weight⟩)) c
        | _ => .err (.streamError h.streamId .frameSizeError) c := by
  simp only [interpret, htype, payloadDecoder, decodePriorityPayload]
  by_cases hid : h.streamId = 0
  · simp [hid, isConnectionFrame]
  · rcases p with _ | ⟨s₀, _ | ⟨s₁, _ | ⟨s₂, _ | ⟨s₃, _ | ⟨weight, _ | ⟨_, rest⟩⟩⟩⟩⟩⟩
    case cons.cons.cons.cons.cons.nil =>
      simp [hid, isConnectionFrame, hlen.symm, index, sliceTo, getStreamId]
    all_goals simp [hid, isConnectionFrame]

theorem interpret_goaway (htype : h.frameType = 7) : interpret h p c =
      if h.streamId ≠ 0 then .err (.connectionError .protocolError) c
      else
        match p with
        | s₀ :: s₁ :: s₂ :: s₃ :: e₀ :: e₁ :: e₂ :: e₃ :: debugData =>
          .ok (h.frame (.goaway ⟨be32 e₀ e₁ e₂ e₃, be32 (s₀ &&& 0x7f) s₁ s₂ s₃, debugData⟩)) c
        | _ => .err (.connectionError .frameSizeError) c := by
  simp only [interpret, htype, payloadDecoder, decodeGoawayPayload]
  by_cases hid : h.streamId = 0
  · rcases p with _ | ⟨s₀, _ | ⟨s₁, _ | ⟨s₂, _ | ⟨s₃, _ | ⟨e₀, _ | ⟨e₁, _ | ⟨e₂, _ | ⟨e₃, debugData⟩⟩⟩⟩⟩⟩⟩⟩
    case cons.cons.cons.cons.cons.cons.cons.cons =>
      have hlong : ¬ debugData.length + 1 + 1 + 1 + 1 + 1 + 1 + 1 + 1 < 8 := by omega
      simp [hid, isConnectionFrame, hlen.symm, index, sliceTo, slice, sliceFrom, getStreamId, getCodeValue, hlong]
    all_goals simp [hid, isConnectionFrame, hlen.symm]
  · simp [hid, isConnectionFrame]

theorem interpret_windowUpdate (htype : h.frameType = 8) : interpret h p c =
      match p with
      | [b₀, b₁, b₂, b₃] =>
        if be32 (0x7f &&& b₀) b₁ b₂ b₃ = 0 then .err (.streamError h.streamId .protocolError) c
        else .ok (h.frame (.windowUpdate (be32 (0x7f &&& b₀) b₁ b₂ b₃))) c
      | _ => .err (.connectionError .frameSizeError) c := by
  simp only [interpret, htype, payloadDecoder, decodeWindowUpdatePayload]
  rcases p with _ | ⟨b₀, _ | ⟨b₁, _ | ⟨b₂, _ | ⟨b₃, _ | ⟨_, rest⟩⟩⟩⟩⟩
  case cons.cons.cons.cons.nil =>
    by_cases hzero : be32 (0x7f &&& b₀) b₁ b₂ b₃ = 0 <;>
      simp [hzero, hlen.symm, index]
  all_goals simp [hlen.symm]

theorem interpret_reset (htype : h.frameType = 3) : interpret h p c =
      if h.streamId = 0 then .err (.connectionError .protocolError) c
      else
        match p with
        | [b₀, b₁, b₂, b₃] => .ok (h.frame (.rstStream (be32 b₀ b₁ b₂ b₃))) c
        | _ => .err (.connectionError .frameSizeError) c := by
  simp only [interpret, htype, payloadDecoder, decodeResetPayload]
  by_cases hid : h.streamId = 0
  · simp [hid, isConnectionFrame]
  · rcases p with _ | ⟨b₀, _ | ⟨b₁, _ | ⟨b₂, _ | ⟨b₃, _ | ⟨_, rest⟩⟩⟩⟩⟩
    case cons.cons.cons.cons.nil =>
      simp [hid, isConnectionFrame, hlen.symm, index, sliceTo, getCodeValue]
    all_goals simp [hid, isConnectionFrame, hlen.symm]

theorem interpret_data (htype : h.frameType = 0) : interpret h p c =
      if h.streamId = 0 then .err (.connectionError .protocolError) c
      else
        match p with
        | [] => .ok (h.frame (.data [])) c
        | pad :: data =>
          if h.isPadded then
            if p.length ≤ pad.toNat then .err (.connectionError .protocolError) c
            else .ok (h.frame (.data (data.take (data.length - pad.toNat)))) c
          else .ok (h.frame (.data (pad :: data))) c := by
  simp only [interpret, htype, payloadDecoder, decodeDataPayload]
  by_cases hid : h.streamId = 0
  · simp [hid, isConnectionFrame]
  · cases p with
    | nil => simp [hid, isConnectionFrame, hlen.symm]
    | cons pad data =>
      by_cases hpad : h.isPadded = true
      · by_cases hshort : data.length + 1 ≤ pad.toNat
        · have hlt : data.length < pad.toNat := hshort
          simp [hid, isConnectionFrame, hlen.symm, hpad, index, hlt, hshort]
        · have hlt : ¬ data.length < pad.toNat := hshort
          have hle : pad.toNat ≤ data.length + 1 := by omega
          have hstart : 1 ≤ data.length + 1 - pad.toNat := by omega
          have htake : ((pad :: data).take (data.length + 1 - pad.toNat)).tail =
              data.take (data.length - pad.toNat) := by
            rw [show data.length + 1 - pad.toNat = (data.length - pad.toNat) + 1 by omega]
            rfl
          simp [hid, isConnectionFrame, hlen.symm, hpad, index, hlt, hshort, checkedSub, hle, slice, hstart, htake]
      · simp [hid, isConnectionFrame, hlen.symm, hpad, sliceTo]

theorem interpret_settings (htype : h.frameType = 4) : interpret h p c = if h.streamId ≠ 0 then .err (.connectionError .protocolError) c
      else if p.length % 6 ≠ 0 then .err (.connectionError .frameSizeError) c else if h.isAck then
        if p ≠ [] then .err (.connectionError .frameSizeError) c else .ok (h.frame (.settings [])) c else
        ((splitSettings p (atPayload h c)).bind fun settings d =>
          .ok (h.frame (.settings settings)) d).mapState core := by
  simp only [interpret, htype, payloadDecoder, decodeSettingsPayload]
  by_cases hid : h.streamId = 0
  · by_cases hsix : p.length % 6 = 0
    · by_cases hack : h.isAck = true
      · cases p <;> simp [hid, isConnectionFrame, hlen.symm, hack] at hsix ⊢
      · simp [hid, isConnectionFrame, hlen.symm, hsix, hack]
    · simp [hid, isConnectionFrame, hlen.symm, hsix]
  · simp [hid, isConnectionFrame]

end Whole

theorem interpret_unknown (htype : 9 < h.frameType) (p : List UInt8) (c : Core H) :
    interpret h p c = .err (.connectionError .protocolError) c := by
  have hthrow : payloadDecoder h.frameType p =
      (throw (.connectionError .protocolError) : Method (FrameDecoder H) H2Error FrameKind) := by
    unfold payloadDecoder
    split
    case h_11 => rfl
    all_goals
      rename_i heq
      rw [heq] at htype
      exact absurd htype (by decide)
  rw [interpret, hthrow]
  rfl

theorem byte_cases : ∀ b : UInt8,
    9 < b ∨ b = 4 ∨ b = 1 ∨ b = 5 ∨ b = 9 ∨ b = 0 ∨ b = 2 ∨ b = 3 ∨ b = 6 ∨ b = 7 ∨ b = 8 :=
  forall_byte (by decide +kernel)

/-- Frames without header blocks leave the core as it is. -/
theorem interpret_cases (hlen : p.length = h.payloadLength)
    (hheaders : h.frameType ≠ 1) (hpush : h.frameType ≠ 5) (hcont : h.frameType ≠ 9) (c : Core H) :
    (∃ frame, interpret h p c = .ok frame c ∧ ¬ frame.IsHeaders) ∨ ∃ e, interpret h p c = .err e c := by
  rcases byte_cases h.frameType with
    htype | htype | htype | htype | htype | htype | htype | htype | htype | htype | htype
  · exact .inr ⟨_, interpret_unknown htype p c⟩
  · rw [interpret_settings hlen c htype]
    split
    · exact .inr ⟨_, rfl⟩
    · split
      · exact .inr ⟨_, rfl⟩
      · rename_i hsix
        rcases splitSettings_cases (H := H) (not_ne_iff.mp hsix) with ⟨settings, heq⟩ | ⟨e, heq⟩
        all_goals
          rw [heq]
          repeat' split
          all_goals first | exact .inl ⟨_, rfl, id⟩ | exact .inr ⟨_, rfl⟩
  · exact absurd htype hheaders
  · exact absurd htype hpush
  · exact absurd htype hcont
  -- Every branch of the other equations is a frame or an error.
  on_goal 1 => rw [interpret_data hlen c htype]
  on_goal 2 => rw [interpret_priority hlen c htype]
  on_goal 3 => rw [interpret_reset hlen c htype]
  on_goal 4 => rw [interpret_ping hlen c htype]
  on_goal 5 => rw [interpret_goaway hlen c htype]
  on_goal 6 => rw [interpret_windowUpdate hlen c htype]
  all_goals
    repeat' split
    all_goals first | exact .inl ⟨_, rfl, id⟩ | exact .inr ⟨_, rfl⟩

/-! ### Header blocks -/

namespace Core

def hpackDecode (fragment : List UInt8) : Method (Core H) H2Error Unit :=
  Method.onField (·.hpack) (fun h c => { c with hpack := h }) (HpackLayer.hpackDecode fragment)

def hpackFinish : Method (Core H) H2Error Parts :=
  Method.onField (·.hpack) (fun h c => { c with hpack := h }) HpackLayer.hpackFinish

def setContinuations (continuations : Continuations) : Method (Core H) H2Error Unit :=
  modify fun c => { c with continuations := continuations }

end Core

/-- A padded payload without even the pad length. -/
def MissingPadLength (h : FrameHeader) (p : List UInt8) : Prop := h.isPadded = true ∧ p = []

instance (h : FrameHeader) (p : List UInt8) : Decidable (MissingPadLength h p) :=
  inferInstanceAs (Decidable (_ ∧ _))

/-- The padding that a payload announces. -/
def padding (h : FrameHeader) (p : List UInt8) : Nat := if h.isPadded then (p.headD 0).toNat else 0

/-- The fragment of a payload that has `front` bytes between the pad length and the
fragment, if the padding leaves one. -/
def fragment? (h : FrameHeader) (front : Nat) (p : List UInt8) : Option (List UInt8) :=
  if (h.isPadded = true ∧ p.length ≤ padding h p) ∨ p.length - padding h p < front + h.isPadded.toNat then none
  else some ((p.take (p.length - padding h p)).drop (front + h.isPadded.toNat))

variable {front : Nat} {m : Method (Core H) H2Error FrameKind}

theorem fragment?_none (hbad : (h.isPadded = true ∧ p.length ≤ padding h p) ∨
      p.length - padding h p < front + h.isPadded.toNat) : fragment? h front p = none :=
  if_pos hbad

theorem fragment?_some (hpad : ¬ (h.isPadded = true ∧ p.length ≤ padding h p))
    (hover : ¬ p.length - padding h p < front + h.isPadded.toNat) :
    fragment? h front p = some ((p.take (p.length - padding h p)).drop (front + h.isPadded.toNat)) :=
  if_neg (not_or.mpr ⟨hpad, hover⟩)

def interpretHeaders (h : FrameHeader) (p : List UInt8) : Method (Core H) H2Error FrameKind :=
  if h.streamId = 0 then throw (.connectionError .protocolError)
  else if MissingPadLength h p then Method.panicked
  else
    match fragment? h (if h.isHeadersPriority then 5 else 0) p with
    | none => throw (.connectionError .protocolError)
    | some fragment =>
      if h.isEndHeaders then do
        Core.hpackDecode fragment
        let parts ← Core.hpackFinish
        return h.frame (.headers parts)
      else do
        let c ← get
        Core.setContinuations { c.continuations with
          flags := h.flags
          isEndStream := h.isEndStream
          isEndHeaders := false
          streamId := h.streamId }
        Core.hpackDecode fragment
        return .partial_

/-- The promised stream id follows the pad length. -/
def promisedStreamId (h : FrameHeader) (p : List UInt8) : StreamId :=
  match p.drop h.isPadded.toNat with
  | s₀ :: s₁ :: s₂ :: s₃ :: _ => be32 (s₀ &&& 0x7f) s₁ s₂ s₃
  | _ => 0

def framePushPromise (h : FrameHeader) (promisedStreamId : StreamId) : Method (Core H) H2Error FrameKind :=
  if h.isEndHeaders then do
    let parts ← Core.hpackFinish
    return h.frame (.pushPromise promisedStreamId parts)
  else do
    let c ← get
    Core.setContinuations { c.continuations with
      flags := h.flags
      isEndHeaders := false
      streamId := h.streamId
      promisedStreamId := promisedStreamId }
    return .partial_

def interpretPushPromise (h : FrameHeader) (p : List UInt8) : Method (Core H) H2Error FrameKind :=
  if h.streamId = 0 then throw (.connectionError .protocolError)
  else if MissingPadLength h p then Method.panicked
  else if fragment? h 4 p = none then throw (.connectionError .protocolError)
  else do
    Core.hpackDecode p
    if promisedStreamId h p = 0 then throw (.connectionError .protocolError)
    else framePushPromise h (promisedStreamId h p)

/-- The frame that closes the open header block. -/
def closingFrame (c : Continuations) (parts : Parts) : FrameKind :=
  .complete ⟨c.streamId, ⟨c.flags⟩,
    if c.promisedStreamId ≠ 0 then .pushPromise c.promisedStreamId parts else .headers parts⟩

def interpretContinuation (h : FrameHeader) (p : List UInt8) : Method (Core H) H2Error FrameKind :=
  if h.streamId = 0 then throw (.connectionError .protocolError)
  else if h.isEndHeaders then do
    Core.hpackDecode p
    let parts ← Core.hpackFinish
    let c ← get
    Core.setContinuations .new
    return closingFrame c.continuations parts
  else do
    Core.hpackDecode p
    return .partial_

theorem interpret_eq_of_sim (hsim : Sim (Bare h) (Bare h) (payloadDecoder h.frameType p) m) : interpret h p = m := by
  funext c
  refine (hsim (atPayload h c) c rfl).mapState_eq fun {d c} hbare => ?_
  rw [hbare, core_atPayload]

omit [HpackLayer H] in
/-- These frames belong to a stream. -/
theorem sim_onStream {k : FrameHeader → List UInt8 → Method (FrameDecoder H) H2Error FrameKind}
    (hnext : Sim (Bare h) (Bare h) (k h p) m) : Sim (Bare h) (Bare h)
      (do
        let header ← getHeader
        if isConnectionFrame header.streamId then throw (.connectionError .protocolError)
        let buf ← mergeBuffer p
        k header buf)
      (if h.streamId = 0 then throw (.connectionError .protocolError) else m) := by
  refine Sim.bind_left (bare_getHeader h) ?_
  by_cases hid : h.streamId = 0
  · simp only [hid, if_true, isConnectionFrame, beq_self_eq_true]
    exact fun _ _ hbare => .err _ hbare
  · simp only [hid, if_false, isConnectionFrame, beq_iff_eq]
    exact Sim.bind_left (bare_mergeBuffer h p) hnext

theorem interpret_continuation (htype : h.frameType = 9) :
    interpret h p = (interpretContinuation h p : Method (Core H) H2Error FrameKind) := by
  apply interpret_eq_of_sim
  rw [htype]
  refine sim_onStream (.ite ?_ ?_)
  · refine (bare_onField h (HpackLayer.hpackDecode p)).bind id fun _ => ?_
    refine (bare_onField h HpackLayer.hpackFinish).bind id fun parts => ?_
    rintro _ c rfl
    exact .ok _ rfl
  · exact (bare_onField h (HpackLayer.hpackDecode p)).bind_pure _

omit [HpackLayer H] in
theorem fragmentBounds_eq (hlen : p.length = h.payloadLength) (start : Nat) (d : FrameDecoder H) :
    fragmentBounds h p start d = if MissingPadLength h p then .panic
      else if h.isPadded = true ∧ p.length ≤ padding h p then .err (.connectionError .protocolError) d
      else .ok (start + h.isPadded.toNat, p.length - padding h p) d := by
  unfold fragmentBounds MissingPadLength padding
  by_cases hpad : h.isPadded = true
  · cases p with
    | nil => simp [hpad, index]
    | cons pad rest =>
      by_cases hshort : rest.length + 1 ≤ pad.toNat
      · have hlt : rest.length < pad.toNat := hshort
        simp [hpad, index, hlen.symm, hlt, hshort]
      · have hlt : ¬ rest.length < pad.toNat := hshort
        have hle : pad.toNat ≤ rest.length := Nat.le_of_not_lt hlt
        simp [hpad, index, hlen.symm, hlt, hshort, checkedSub, Nat.le_succ_of_le hle]
  · simp [hpad, hlen.symm]

omit [HpackLayer H] in
/-- Reading a fragment: a missing pad length is fatal, a bad one is refused, and what
follows sees the bounds. -/
theorem sim_fragmentBounds_bind (hlen : p.length = h.payloadLength)
    (start : Nat) {k : Nat × Nat → Method (FrameDecoder H) H2Error FrameKind}
    (hpanic : MissingPadLength h p → m = Method.panicked)
    (herr : h.isPadded = true ∧ p.length ≤ padding h p → ¬ MissingPadLength h p →
      m = throw (.connectionError .protocolError))
    (hnext : ¬ MissingPadLength h p → ¬ (h.isPadded = true ∧ p.length ≤ padding h p) →
      Sim (Bare h) (Bare h) (k (start + h.isPadded.toNat, p.length - padding h p)) m) :
    Sim (Bare h) (Bare h) (fragmentBounds h p start >>= k) m := by
  intro d c hbare
  rw [Method.bind_apply, fragmentBounds_eq hlen]
  split_ifs with hmissing hbad
  · rw [hpanic hmissing]
    exact .panic
  · rw [herr hbad hmissing]
    exact .err _ hbare
  · exact hnext hmissing hbad d c hbare

theorem sim_hpackFragment {start stop : Nat} (hstart : start ≤ stop) (hstop : stop ≤ p.length)
    {next : Unit → Method (FrameDecoder H) H2Error FrameKind} {next' : Unit → Method (Core H) H2Error FrameKind}
    (hnext : ∀ u, Sim (Bare h) (Bare h) (next u) (next' u)) :
    Sim (Bare h) (Bare h) (slice p start stop >>= fun fragment => hpackDecode fragment >>= next)
      (Core.hpackDecode ((p.take stop).drop start) >>= next') := by
  refine Sim.bind_left (fun d _ _ => slice_eq_ok hstart hstop d) ?_
  exact (bare_onField h (HpackLayer.hpackDecode _)).bind id hnext

theorem interpret_headers (htype : h.frameType = 1) (hlen : p.length = h.payloadLength) :
    interpret h p = (interpretHeaders h p : Method (Core H) H2Error FrameKind) := by
  apply interpret_eq_of_sim
  rw [htype]
  refine sim_onStream ?_
  refine sim_fragmentBounds_bind hlen 0 (fun hmissing => if_pos hmissing) ?_ ?_
  · intro hbad hmissing
    rw [if_neg hmissing, fragment?_none (.inl hbad)]
  · intro hmissing hbad
    have hstart : (if h.isHeadersPriority = true then 0 + h.isPadded.toNat + 5
        else 0 + h.isPadded.toNat) =
        (if h.isHeadersPriority = true then 5 else 0) + h.isPadded.toNat := by
      split <;> omega
    rw [if_neg hmissing]
    simp only [hstart]
    generalize (if h.isHeadersPriority = true then 5 else 0) = front
    by_cases hover : p.length - padding h p < front + h.isPadded.toNat
    · rw [fragment?_none (.inr hover)]
      simp only [gt_iff_lt, hover, if_true]
      exact fun _ _ hbare => .err _ hbare
    · have hstop : front + h.isPadded.toNat ≤ p.length - padding h p := Nat.le_of_not_lt hover
      rw [fragment?_some hbad hover]
      simp only [gt_iff_lt, hover, if_false]
      refine .ite ?_ ?_
      · refine sim_hpackFragment hstop (Nat.sub_le _ _) fun _ => ?_
        exact (bare_onField h HpackLayer.hpackFinish).bind_pure _
      · rintro d c rfl
        exact sim_hpackFragment hstop (Nat.sub_le _ _) (fun _ => .pure id FrameKind.partial_) _ _ rfl

theorem exists_four (h : 4 ≤ p.length) : ∃ s₀ s₁ s₂ s₃ rest, p = s₀ :: s₁ :: s₂ :: s₃ :: rest := by
  match p, h with
  | s₀ :: s₁ :: s₂ :: s₃ :: rest, _ => exact ⟨s₀, s₁, s₂, s₃, rest, rfl⟩

omit [HpackLayer H] in
/-- The id of the promised stream is read behind the pad length. -/
theorem readPromised_bind (hroom : 4 + h.isPadded.toNat ≤ p.length)
    {k : StreamId → Method (FrameDecoder H) H2Error FrameKind} :
    (if h.isPadded then slice p 1 5 >>= fun token => getStreamId token >>= k
      else sliceTo p 4 >>= fun token => getStreamId token >>= k) = k (promisedStreamId h p) := by
  funext d
  have hfour : 4 ≤ (p.drop h.isPadded.toNat).length := by
    rw [List.length_drop]
    exact Nat.le_sub_of_add_le hroom
  obtain ⟨s₀, s₁, s₂, s₃, rest, hdrop⟩ := exists_four hfour
  cases hpad : h.isPadded with
  | true =>
    rw [hpad] at hdrop
    obtain ⟨pad, rfl⟩ : ∃ pad, p = pad :: s₀ :: s₁ :: s₂ :: s₃ :: rest := by
      cases p with
      | nil => cases hdrop
      | cons pad tail => exact ⟨pad, congrArg _ hdrop⟩
    simp [promisedStreamId, hpad, slice, getStreamId, index]
  | false =>
    rw [hpad] at hdrop
    obtain rfl : p = _ := hdrop
    simp [promisedStreamId, hpad, sliceTo, getStreamId, index]

theorem interpret_pushPromise (htype : h.frameType = 5) (hlen : p.length = h.payloadLength) :
    interpret h p = (interpretPushPromise h p : Method (Core H) H2Error FrameKind) := by
  apply interpret_eq_of_sim
  rw [htype]
  refine sim_onStream ?_
  refine sim_fragmentBounds_bind hlen 4 (fun hmissing => if_pos hmissing) ?_ ?_
  · intro hbad hmissing
    rw [if_neg hmissing, if_pos (fragment?_none (.inl hbad))]
  · intro hmissing hbad
    rw [if_neg hmissing]
    by_cases hover : p.length - padding h p < 4 + h.isPadded.toNat
    · rw [if_pos (fragment?_none (.inr hover))]
      simp only [gt_iff_lt, hover, if_true]
      exact fun _ _ hbare => .err _ hbare
    · rw [fragment?_some hbad hover]
      simp only [gt_iff_lt, hover, if_false, reduceCtorEq, isConnectionFrame, beq_iff_eq]
      refine (bare_onField h (HpackLayer.hpackDecode p)).bind id fun _ => ?_
      rw [readPromised_bind (le_trans (Nat.le_of_not_lt hover) (Nat.sub_le _ _))]
      refine .ite (fun _ _ hbare => .err _ hbare) ?_
      refine Sim.bind_left (bare_getHeader h) (.ite ?_ ?_)
      · exact (bare_onField h HpackLayer.hpackFinish).bind_pure _
      · rintro _ c rfl
        exact .ok _ rfl

end YlongHttp.H2.FrameDecoder
