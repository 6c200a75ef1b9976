/-
Encoders that have bytes to write.

An invariant `I pending e` says that the encoder `e` still has `pending` to write. If the
writer of every state writes a piece of it (`Tracks`), a call of `encode` writes as much
of it as the buffer has room for (`encode_spec`), and so do calls with any buffers
(`encodeAll_spec`).

A writer may also stop early and wait for the next buffer, in a state that `waits`
describes. Then calls still come to the end as long as each of them writes something
(`encodeAll_of_progress`).
-/

import YlongHttp.H2.Encoder

namespace YlongHttp.H2.FrameEncoder

open Rust Method Outcome List

variable {I : List UInt8 → FrameEncoder → Prop} {waits : FrameEncoder → Prop}

/-- What a writer, or a call, has done that had `pending` to write: it wrote `n` bytes of
it, at least `least`, and it stopped because the buffer is full, because there is nothing
left, or because it waits. -/
structure Wrote (I : List UInt8 → FrameEncoder → Prop) (waits : FrameEncoder → Prop) (least : Nat)
    (pending buf : List UInt8) (n : Nat) (e' : FrameEncoder) : Prop where
  least_le : least ≤ n
  fits : n ≤ buf.length
  le_pending : n ≤ pending.length
  next : I (pending.drop n) e'
  stopped : n = buf.length ∨ n = pending.length ∨ waits e'

/-- One round of `encode`. The reason to stop counts only if the state has not changed, and
a state that has changed came with a byte or completed the frame. -/
structure Round (I : List UInt8 → FrameEncoder → Prop) (waits : FrameEncoder → Prop) (least : Nat)
    (pending buf : List UInt8) (e : FrameEncoder) (n : Nat) (e' : FrameEncoder) : Prop where
  eq : encodeState e.state buf e = .ok (pending.take n ++ buf.drop n, n) e'
  least_le : least ≤ n
  fits : n ≤ buf.length
  le_pending : n ≤ pending.length
  next : I (pending.drop n) e'
  stopped : e'.state = e.state → n = buf.length ∨ n = pending.length ∨ waits e'
  moved : e'.state ≠ e.state → 0 < n ∨ e'.state.isComplete = true

variable {least n fuel : Nat} {pending buf written out : List UInt8} {e e' : FrameEncoder} {bufs : List (List UInt8)}

theorem Round.weaken (h : Round I waits least pending buf e n e') : Round I waits 0 pending buf e n e' :=
  ⟨h.eq, Nat.zero_le n, h.fits, h.le_pending, h.next, h.stopped, h.moved⟩

structure Tracks (I : List UInt8 → FrameEncoder → Prop) (waits : FrameEncoder → Prop) : Prop where
  complete : ∀ {pending e}, I pending e → e.state.isComplete = true → pending = []
  round : ∀ {pending buf e}, I pending e → e.state.isComplete = false → buf ≠ [] →
    ∃ n e', Round I waits 0 pending buf e n e'

/-! ### The loop -/

theorem encodeLoop_stop (h : buf = [] ∨ e.state.isComplete = true) :
    encodeLoop (fuel + 1) written buf e = .ok (written ++ buf, written.length) e := by
  have hstop : buf.isEmpty = true ∨ e.state.isComplete = true := by
    rwa [List.isEmpty_iff]
  simp only [encodeLoop, get_bind, Method.ite_apply, if_pos hstop, pure_apply]

section

variable (hbuf : buf ≠ []) (hstate : e.state.isComplete = false)

include hbuf hstate

theorem encodeLoop_round : encodeLoop (fuel + 1) written buf e = (encodeState e.state buf e).bind fun result e' =>
        if e'.state = e.state then .ok (written ++ result.1, written.length + result.2) e'
        else encodeLoop fuel (written ++ result.1.take result.2) (result.1.drop result.2) e' := by
  have hgo : ¬ (buf.isEmpty = true ∨ e.state.isComplete = true) := by
    rw [hstate]
    simp [hbuf]
  simp only [encodeLoop, bind_apply, get_apply, bind_ok, Method.ite_apply, if_neg hgo, pure_apply]

theorem encodeLoop_same (h : encodeState e.state buf e = .ok (out, n) e') (hsame : e'.state = e.state) :
    encodeLoop (fuel + 1) written buf e = .ok (written ++ out, written.length + n) e' := by
  rw [encodeLoop_round hbuf hstate, h, bind_ok, if_pos hsame]

theorem encodeLoop_moved {piece : List UInt8} (hpiece : piece.length = n)
    (h : encodeState e.state buf e = .ok (piece ++ buf.drop n, n) e') (hmoved : e'.state ≠ e.state) :
    encodeLoop (fuel + 1) written buf e = encodeLoop fuel (written ++ piece) (buf.drop n) e' := by
  rw [encodeLoop_round hbuf hstate, h, bind_ok, if_neg hmoved]
  simp only [take_left' hpiece, drop_left' hpiece]

end

theorem encodeLoop_spec (hI : Tracks I waits) (fuel : Nat) :
    ∀ {least : Nat} (written : List UInt8) {pending buf : List UInt8} {e : FrameEncoder}, buf ≠ [] →
      e.state.isComplete = false → buf.length + 1 ≤ fuel → (∃ n e', Round I waits least pending buf e n e') →
      ∃ n e', encodeLoop fuel written buf e = .ok (written ++ (pending.take n ++ buf.drop n), written.length + n) e' ∧
        Wrote I waits least pending buf n e' := by
  induction fuel with
  | zero =>
    intro least written pending buf e _ _ hfuel
    exact absurd hfuel (Nat.not_succ_le_zero _)
  | succ fuel ih =>
    intro least written pending buf e hbuf hstate hfuel hround
    obtain ⟨n, e', hround⟩ := hround
    have hfit := hround.fits
    have hpiece := hround.le_pending
    by_cases hsame : e'.state = e.state
    · rw [encodeLoop_same hbuf hstate hround.eq hsame]
      exact ⟨n, e', rfl, ⟨hround.least_le, hround.fits, hround.le_pending, hround.next, hround.stopped hsame⟩⟩
    · have hpos : 0 < buf.length := length_pos_iff.mpr hbuf
      have hlen : (pending.take n).length = n := length_take_of_le hround.le_pending
      rw [encodeLoop_moved hbuf hstate hlen hround.eq hsame]
      by_cases hstop : buf.drop n = [] ∨ e'.state.isComplete = true
      · -- The buffer is full, or the frame is complete.
        obtain ⟨fuel, rfl⟩ : ∃ more, fuel = more + 1 := ⟨fuel - 1, by omega⟩
        refine ⟨n, e', ?_, ⟨hround.least_le, hround.fits, hround.le_pending, hround.next, ?_⟩⟩
        · rw [encodeLoop_stop hstop, append_assoc, length_append, hlen]
        · rcases hstop with hfull | hcomplete
          · exact .inl (le_antisymm hround.fits (drop_eq_nil_iff.mp hfull))
          · have hnil := hI.complete hround.next hcomplete
            exact .inr (.inl (le_antisymm hround.le_pending (drop_eq_nil_iff.mp hnil)))
      · rw [not_or, Bool.not_eq_true] at hstop
        have hn : 0 < n := (hround.moved hsame).resolve_right (by rw [hstop.2]; exact Bool.false_ne_true)
        obtain ⟨m, e'', heq, hwrote⟩ := ih (written ++ pending.take n) hstop.1 hstop.2
          (by rw [length_drop]; omega) (hI.round hround.next hstop.2 hstop.1)
        have hfits := hwrote.fits
        have hle := hwrote.le_pending
        rw [length_drop] at hfits hle
        refine ⟨n + m, e'', ?_, ?_⟩
        · rw [heq, take_add, drop_drop, length_append, hlen]
          simp only [append_assoc, add_assoc]
        · refine ⟨Nat.le_add_right_of_le hround.least_le, by omega, by omega, ?_, ?_⟩
          · rw [← drop_drop]
            exact hwrote.next
          · rcases hwrote.stopped with hfull | hdone | hwaits
            · rw [length_drop] at hfull
              exact .inl (by omega)
            · rw [length_drop] at hdone
              exact .inr (.inl (by omega))
            · exact .inr (.inr hwaits)

/-- A call whose first round is known. -/
theorem encode_of_round (hI : Tracks I waits) (hbuf : buf ≠ []) (hstate : e.state.isComplete = false)
    (hround : ∃ n e', Round I waits least pending buf e n e') :
    ∃ n e', encode buf e = .ok (pending.take n ++ buf.drop n, n) e' ∧ Wrote I waits least pending buf n e' := by
  obtain ⟨n, e', heq, hwrote⟩ :=
    encodeLoop_spec hI (buf.length + 2) [] hbuf hstate (Nat.le_succ _) hround
  refine ⟨n, e', ?_, hwrote⟩
  rw [encode, heq, nil_append, length_nil, zero_add]

theorem encode_spec (hI : Tracks I waits) (h : I pending e) (hbuf : buf ≠ []) :
    ∃ n e', encode buf e = .ok (pending.take n ++ buf.drop n, n) e' ∧ Wrote I waits 0 pending buf n e' := by
  cases hstate : e.state.isComplete with
  | true =>
    obtain rfl := hI.complete h hstate
    refine ⟨0, e, ?_, ⟨Nat.le_refl 0, Nat.zero_le _, Nat.le_refl 0, h, .inr (.inl rfl)⟩⟩
    rw [encode, encodeLoop_stop (.inr hstate)]
    rfl
  | false => exact encode_of_round hI hbuf hstate (hI.round h hstate hbuf)

/-! ### What a call that succeeds has done -/

theorem encodeLoop_written : ∀ {written buf out : List UInt8} {n : Nat} {e e' : FrameEncoder},
      encodeLoop fuel written buf e = .ok (out, n) e' → written.length ≤ n ∧ written <+: out := by
  induction fuel with
  | zero =>
    rintro written buf out n e e' ⟨⟩
  | succ fuel ih =>
    intro written buf out n e e' h
    by_cases hstop : buf = [] ∨ e.state.isComplete = true
    · rw [encodeLoop_stop hstop] at h
      cases h
      exact ⟨le_refl _, prefix_append _ _⟩
    · rw [not_or, Bool.not_eq_true] at hstop
      rw [encodeLoop_round hstop.1 hstop.2] at h
      obtain ⟨result, e₁, -, h⟩ := bind_eq_ok.mp h
      split at h
      · cases h
        exact ⟨Nat.le_add_right _ _, prefix_append _ _⟩
      · obtain ⟨hlen, hpre⟩ := ih h
        rw [length_append] at hlen
        exact ⟨by omega, (prefix_append _ _).trans hpre⟩

/-- The first round of a call: the call ends with it if the state has not changed, and
otherwise starts with what it wrote. -/
theorem encode_first (hbuf : buf ≠ []) (hstate : e.state.isComplete = false) (h : encode buf e = .ok (out, n) e') :
    ∃ out₁ n₁ e₁, encodeState e.state buf e = .ok (out₁, n₁) e₁ ∧ (e₁.state = e.state → out = out₁ ∧ n = n₁ ∧ e' = e₁) ∧
      (e₁.state ≠ e.state → (out₁.take n₁).length ≤ n ∧ out₁.take n₁ <+: out) := by
  rw [encode, encodeLoop_round hbuf hstate] at h
  obtain ⟨⟨out₁, n₁⟩, e₁, heq, h⟩ := bind_eq_ok.mp h
  refine ⟨out₁, n₁, e₁, heq, ?_, ?_⟩
  · intro hsame
    rw [if_pos hsame] at h
    cases h
    exact ⟨rfl, zero_add _, rfl⟩
  · intro hmoved
    rw [if_neg hmoved] at h
    exact encodeLoop_written h

/-- A call whose first round does not change the state. -/
theorem encode_of_same (hbuf : buf ≠ [])
    (hstate : e.state.isComplete = false) (h : encodeState e.state buf e = .ok (out, n) e')
    (hsame : e'.state = e.state) : encode buf e = .ok (out, n) e' := by
  rw [encode, encodeLoop_same hbuf hstate h hsame, nil_append, length_nil, zero_add]

/-! ### Calls -/

theorem encodeAll_cons (h : encode buf e = .ok (out, n) e') : encodeAll (buf :: bufs) e =
      (encodeAll bufs e').bind fun rest e'' => .ok (out.take n ++ rest) e'' := by
  simp only [encodeAll, bind_apply, h, bind_ok, pure_apply]

theorem encodeAll_of_ok (h : encodeAll (buf :: bufs) e = .ok out e') :
    ∃ out₁ n₁ e₁ rest, encode buf e = .ok (out₁, n₁) e₁ ∧ encodeAll bufs e₁ = .ok rest e' ∧
      out = out₁.take n₁ ++ rest := by
  obtain ⟨⟨out₁, n₁⟩, e₁, heq, h⟩ := bind_eq_ok.mp h
  obtain ⟨rest, e₂, hrest, h⟩ := bind_eq_ok.mp h
  cases h
  exact ⟨out₁, n₁, e₁, rest, heq, hrest, rfl⟩

/-- Calls write the front of what is pending. Encoders that never wait fill every buffer. -/
theorem encodeAll_spec (hI : Tracks I waits) :
    ∀ {pending : List UInt8} {e : FrameEncoder}, I pending e → (∀ buf ∈ bufs, buf ≠ []) →
      ∃ n e', encodeAll bufs e = .ok (pending.take n) e' ∧ n ≤ pending.length ∧
        I (pending.drop n) e' ∧ ((∀ e, ¬ waits e) → min pending.length (bufs.map List.length).sum ≤ n) := by
  induction bufs with
  | nil =>
    intro pending e h _
    exact ⟨0, e, rfl, Nat.zero_le _, h, fun _ => Nat.min_le_right _ _⟩
  | cons buf bufs ih =>
    intro pending e h hbufs
    obtain ⟨n, e', heq, hwrote⟩ := encode_spec hI h (hbufs buf mem_cons_self)
    obtain ⟨m, e'', hrest, hm, hnext, hmin⟩ :=
      ih hwrote.next fun b hb => hbufs b (mem_cons_of_mem buf hb)
    have hpiece := hwrote.le_pending
    rw [length_drop] at hm hmin
    refine ⟨n + m, e'', ?_, by omega, ?_, fun hgo => ?_⟩
    · rw [encodeAll_cons heq, hrest, bind_ok, take_left' (length_take_of_le hpiece), take_add]
    · rwa [← drop_drop]
    · have hrooms := hmin hgo
      rw [map_cons, sum_cons]
      rcases hwrote.stopped with hfull | hdone | hwaits
      · omega
      · omega
      · exact absurd hwaits (hgo _)

/-- With room for everything, all of it is written. -/
theorem encodeAll_eq (hI : Tracks I fun _ => False) (h : I pending e) (hbufs : ∀ buf ∈ bufs, buf ≠ [])
    (hroom : pending.length ≤ (bufs.map List.length).sum) : ∃ e', encodeAll bufs e = .ok pending e' ∧ I [] e' := by
  obtain ⟨n, e', heq, hn, hnext, hmin⟩ := encodeAll_spec hI h hbufs
  have hle := hmin fun _ h => h
  obtain rfl : n = pending.length := by omega
  rw [take_length] at heq
  rw [drop_length] at hnext
  exact ⟨e', heq, hnext⟩

/-- The same if the invariant holds only after the first round. -/
theorem encodeAll_eq_of_round (hI : Tracks I fun _ => False) (hbuf : buf ≠ []) (hstate : e.state.isComplete = false)
    (hround : ∃ n e', Round I (fun _ => False) least pending buf e n e') (hbufs : ∀ buf ∈ bufs, buf ≠ [])
    (hroom : pending.length ≤ buf.length + (bufs.map List.length).sum) :
    ∃ e', encodeAll (buf :: bufs) e = .ok pending e' ∧ I [] e' := by
  obtain ⟨n, e', heq, hwrote⟩ := encode_of_round hI hbuf hstate hround
  have hpiece := hwrote.le_pending
  have hleft : (pending.drop n).length ≤ (bufs.map length).sum := by
    rw [length_drop]
    rcases hwrote.stopped with hfull | hdone | hfalse
    · omega
    · omega
    · exact hfalse.elim
  obtain ⟨e'', hrest, hnext⟩ := encodeAll_eq hI hwrote.next hbufs hleft
  refine ⟨e'', ?_, hnext⟩
  rw [encodeAll_cons heq, hrest, bind_ok, take_left' (length_take_of_le hpiece), take_append_drop]

/-- Calls that each write something come to the end. -/
theorem encodeAll_of_progress (hI : Tracks I waits) {fits : List UInt8 → Prop}
    (hprogress : ∀ {pending buf e}, I pending e → pending ≠ [] → fits buf →
      e.state.isComplete = false ∧ buf ≠ [] ∧ ∃ n e', Round I waits 1 pending buf e n e') :
    ∀ {pending : List UInt8} {e : FrameEncoder}, I pending e → (∀ buf ∈ bufs, buf ≠ [] ∧ fits buf) →
      pending.length ≤ bufs.length → ∃ e', encodeAll bufs e = .ok pending e' ∧ I [] e' := by
  induction bufs with
  | nil =>
    intro pending e h _ hlen
    obtain rfl : pending = [] := length_eq_zero_iff.mp (Nat.le_zero.mp hlen)
    exact ⟨e, rfl, h⟩
  | cons buf bufs ih =>
    intro pending e h hbufs hlen
    have hstep : ∃ n e', encode buf e = .ok (pending.take n ++ buf.drop n, n) e' ∧
        n ≤ pending.length ∧ I (pending.drop n) e' ∧ (pending.drop n).length ≤ bufs.length := by
      by_cases hnil : pending = []
      · obtain ⟨n, e', heq, hwrote⟩ := encode_spec hI h (hbufs buf mem_cons_self).1
        refine ⟨n, e', heq, hwrote.le_pending, hwrote.next, ?_⟩
        rw [hnil, drop_nil]
        exact Nat.zero_le _
      · obtain ⟨hstate, hbuf, hround⟩ := hprogress h hnil (hbufs buf mem_cons_self).2
        obtain ⟨n, e', heq, hwrote⟩ := encode_of_round hI hbuf hstate hround
        have hleast := hwrote.least_le
        refine ⟨n, e', heq, hwrote.le_pending, hwrote.next, ?_⟩
        rw [length_cons] at hlen
        rw [length_drop]
        omega
    obtain ⟨n, e', heq, hpiece, hnext, hleft⟩ := hstep
    obtain ⟨e'', hrest, hdone⟩ := ih hnext (fun b hb => hbufs b (mem_cons_of_mem buf hb)) hleft
    refine ⟨e'', ?_, hdone⟩
    rw [encodeAll_cons heq, hrest, bind_ok, take_left' (length_take_of_le hpiece), take_append_drop]

end YlongHttp.H2.FrameEncoder
