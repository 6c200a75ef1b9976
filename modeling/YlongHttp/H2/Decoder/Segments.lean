/-
Feeding a stream to the frame decoder in segments.

The meaning of a stream may be taken segment by segment (`meaning_append`), so a
decoder that is fed the segments gives the frames of the stream as long as it follows
that meaning. It stops following it where a segment completes a PRIORITY frame of whose
payload an earlier segment brought a part.
-/

import YlongHttp.H2.Decoder.Stream

namespace YlongHttp.H2.FrameDecoder

open Rust Codec Method Outcome

variable {H : Type} [HpackLayer H]

/-! ### Segments of a stream -/

omit [HpackLayer H] in
/-- A header is let through or refused, and nothing changes. -/
theorem allow_cases (maxFrameSize : Nat) (header : FrameHeader) (c : Core H) :
    allow maxFrameSize header c = .ok () c ∨ ∃ e, allow maxFrameSize header c = .err e c := by
  unfold allow
  split
  · exact .inr ⟨_, rfl⟩
  · split
    · exact .inr ⟨_, rfl⟩
    · exact .inl rfl

theorem meaning_append (maxFrameSize : Nat) (xs ys : List UInt8) : ∀ c : Core H, meaning maxFrameSize (xs ++ ys) c =
      (meaning maxFrameSize xs c).bind fun frames c =>
        (meaning maxFrameSize ((framing.split xs).2 ++ ys) c).bind fun more c => .ok (frames ++ more) c := by
  have hnil : ∀ x : Outcome (Core H) H2Error (List FrameKind), x = x.bind fun more c => .ok ([] ++ more) c := by
    intro x
    cases x <;> rfl
  induction xs using framing.stream_induction with
  | incomplete xs hnot =>
    intro c
    rw [Framing.split_of_not_complete hnot]
    by_cases hlong : 9 ≤ xs.length
    · rw [meaning_long hlong]
      simp only [if_neg hnot]
      rcases allow_cases maxFrameSize (parseHeader xs) c with hallow | ⟨e, hallow⟩
      · rw [hallow, bind_ok]
        exact hnil _
      · rw [meaning_long (by rw [List.length_append]; omega), parseHeader_append hlong, hallow]
        rfl
    · rw [meaning_short (Nat.lt_of_not_le hlong), pure_apply]
      exact hnil _
  | complete xs hc ih =>
    intro c
    rw [meaning_long hc.1, meaning_long (hc.append ys).1, parseHeader_append hc.1, Framing.split_of_complete hc]
    simp only [if_pos hc, if_pos (hc.append ys), Framing.payload_append hc, Framing.rest_append hc]
    rcases allow_cases maxFrameSize (parseHeader xs) c with hallow | ⟨e, hallow⟩
    · simp only [hallow, bind_ok]
      cases interpret (parseHeader xs) (framing.payload xs) c with
      | ok frame c =>
        simp only [bind_ok, ih]
        cases meaning maxFrameSize (framing.rest xs) c with
        | ok frames c =>
          simp only [bind_ok]
          cases meaning maxFrameSize ((framing.split (framing.rest xs)).2 ++ ys) c <;> rfl
        | err | panic => rfl
      | err | panic => rfl
    · simp only [hallow, bind_err]

/-- An incomplete frame gives nothing yet. -/
theorem meaning_incomplete {maxFrameSize : Nat} {xs : List UInt8} {c c' : Core H}
    {frames : List FrameKind} (hnot : ¬ framing.Complete xs)
    (h : meaning maxFrameSize xs c = .ok frames c') : frames = [] := by
  by_cases hlong : 9 ≤ xs.length
  · rw [meaning_long hlong] at h
    simp only [if_neg hnot] at h
    rcases allow_cases maxFrameSize (parseHeader xs) c with hallow | ⟨e, hallow⟩
    · rw [hallow] at h
      cases h
      rfl
    · rw [hallow] at h
      cases h
  · rw [meaning_short (Nat.lt_of_not_le hlong)] at h
    cases h
    rfl

/-! ### Feeding -/

/-- Calls of `decode`, one for each segment, until one fails. -/
def feed : List (List UInt8) → Method (FrameDecoder H) H2Error (List (List FrameKind))
  | [] => return []
  | segment :: segments => do
    let frames ← decode segment
    let more ← feed segments
    return frames :: more

/-- No segment completes a PRIORITY frame of whose payload an earlier one brought a
part. The bytes of the unfinished frame before the segments are `pending`. -/
def WholePriorities : List UInt8 → List (List UInt8) → Prop
  | _, [] => True
  | pending, segment :: segments =>
    ¬ SplitPriority pending segment ∧ WholePriorities (framing.split (pending ++ segment)).2 segments

instance instDecidableWholePriorities :
    ∀ (pending : List UInt8) (segments : List (List UInt8)), Decidable (WholePriorities pending segments)
  | _, [] => inferInstanceAs (Decidable True)
  | pending, segment :: segments =>
    have := instDecidableWholePriorities (framing.split (pending ++ segment)).2 segments
    inferInstanceAs (Decidable (_ ∧ _))

theorem feed_eq_ok {segments : List (List UInt8)} :
    ∀ {d : FrameDecoder H} {pending : List UInt8} {frames : List FrameKind} {c : Core H},
      Holds d pending → ¬ framing.Complete pending → WholePriorities pending segments →
      meaning d.maxFrameSize (pending ++ segments.flatten) d.core = .ok frames c →
      ∃ out d', feed segments d = .ok out d' ∧ out.flatten = frames := by
  induction segments with
  | nil =>
    intro d pending frames c _ hnot _ hmeaning
    rw [List.flatten_nil, List.append_nil] at hmeaning
    exact ⟨[], d, rfl, (meaning_incomplete hnot hmeaning).symm⟩
  | cons segment segments ih =>
    intro d pending frames c hholds _ hwhole hmeaning
    rw [List.flatten_cons, ← List.append_assoc, meaning_append, bind_eq_ok] at hmeaning
    obtain ⟨first, c₁, hfirst, hrest⟩ := hmeaning
    rw [bind_eq_ok] at hrest
    obtain ⟨more, c₂, hmore, heq⟩ := hrest
    cases heq
    obtain ⟨hrelated, hleft⟩ := decode_spec hholds hwhole.1
    rw [hfirst] at hrelated
    obtain ⟨d₁, hdecode, rfl⟩ := hrelated.of_eq_ok rfl
    obtain ⟨hholds₁, hmax⟩ := hleft hdecode
    rw [← hmax] at hmore
    obtain ⟨out, d', hfeed, hout⟩ := ih hholds₁ (Framing.not_complete_split _) hwhole.2 hmore
    refine ⟨([] ++ first) :: out, d', ?_, ?_⟩
    · simp only [feed, bind_apply, hdecode, bind_ok, hfeed, pure_apply]
    · rw [List.flatten_cons, hout, List.nil_append]

theorem wholePriorities_of_feed {segments : List (List UInt8)} :
    ∀ {d d' : FrameDecoder H} {pending : List UInt8} {out : List (List FrameKind)},
      Holds d pending → feed segments d = .ok out d' → WholePriorities pending segments := by
  induction segments with
  | nil =>
    intro d d' pending out _ _
    trivial
  | cons segment segments ih =>
    intro d d' pending out hholds hfeed
    rw [feed, bind_apply, bind_eq_ok] at hfeed
    obtain ⟨frames, d₁, hdecode, hrest⟩ := hfeed
    rw [bind_apply, bind_eq_ok] at hrest
    obtain ⟨more, d₂, hmore, -⟩ := hrest
    have hwhole : ¬ SplitPriority pending segment := by
      intro hsplit
      obtain ⟨e, d'', herr⟩ := decode_split hholds hsplit
      rw [herr] at hdecode
      cases hdecode
    exact ⟨hwhole, ih ((decode_spec hholds hwhole).2 hdecode).1 hmore⟩

/-- If a decoder takes a stream in one call, a decoder that is fed the stream in
segments takes it as well, with the same frames, exactly if no segment completes a
PRIORITY frame of whose payload an earlier one brought a part. -/
theorem feed_iff_wholePriorities {maxFrameSize : UInt32} {maxHeaderListSize : Nat}
    {d d' : FrameDecoder Hpack.HpackDecoder} {frames : List FrameKind} (segments : List (List UInt8))
    (hfresh : configured maxFrameSize maxHeaderListSize = .ok () d)
    (hwhole : decode segments.flatten d = .ok frames d') :
    (∃ out d'', feed segments d = .ok out d'' ∧ out.flatten = frames) ↔ WholePriorities [] segments := by
  have hholds : Holds d [] := by
    rw [configured_eq hfresh]
    exact .header rfl rfl (Nat.succ_pos 8)
  constructor
  · rintro ⟨out, d'', hfeed, -⟩
    exact wholePriorities_of_feed hholds hfeed
  · intro hpriorities
    have hrelated : Outcome.Related _ (decode segments.flatten d) _ :=
      (decode_spec hholds (fun h => absurd h.1 (Nat.not_lt_zero 9))).1
    obtain ⟨c, hmeaning, -⟩ := hrelated.eq_ok hwhole
    rw [bind_eq_ok] at hmeaning
    obtain ⟨more, c', hmeaning, heq⟩ := hmeaning
    cases heq
    exact feed_eq_ok hholds (fun hc => absurd hc.1 (by decide)) hpriorities hmeaning

/-- A PING frame that is cut twice. -/
theorem feed_ping : ∃ d d' frames, configured 16384 16384 = .ok () d ∧
    decode [0, 0, 8, 6, 0, 0, 0, 0, 0, 1, 2, 3, 4, 5, 6, 7, 8] d = .ok frames d' ∧
    ∃ out d'', feed [[0, 0, 8], [6, 0, 0, 0, 0, 0, 1, 2, 3], [4, 5, 6, 7, 8]] d = .ok out d'' ∧
      out.flatten = frames := by
  have hfresh : configured 16384 16384 = .ok () { new with
      hpack := .withMaxSize defaultHeaderTableSize 16384 } := rfl
  exact ⟨_, _, _, hfresh, rfl, (feed_iff_wholePriorities
    [[0, 0, 8], [6, 0, 0, 0, 0, 0, 1, 2, 3], [4, 5, 6, 7, 8]] hfresh rfl).mpr (by decide)⟩

/-- A PRIORITY frame whose payload is cut is refused, although the decoder takes it in
one call. -/
theorem feed_splitPriority : ∃ d d' frames, configured 16384 16384 = .ok () d ∧
    decode [0, 0, 5, 2, 0, 0, 0, 0, 1, 0, 0, 0, 3, 15] d = .ok frames d' ∧
    ¬ ∃ out d'', feed [[0, 0, 5, 2, 0, 0, 0, 0, 1, 0], [0, 0, 3, 15]] d = .ok out d'' := by
  refine ⟨_, _, _, rfl, rfl, ?_⟩
  rintro ⟨out, d'', h⟩
  cases h

end YlongHttp.H2.FrameDecoder
