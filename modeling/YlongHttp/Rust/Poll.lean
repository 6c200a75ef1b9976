/-
Writers that may have to wait.

A step of such a writer can be pending. `fillPoll` is the loop that fills a buffer with its
steps: a pending step ends the call, which is itself pending if nothing has been written.
`PollProduces` says what comes out of calls with one buffer after the other.

A `RewindingWriter` writes tokens one after the other, with two ways in which a buffer can
interfere. The writer waits when a number of bytes that is one of its `stops` is left, and if
a buffer ends inside a token, the writer may go back: `resume` gives what it then writes in
place of what was left. `Drains` is the same for a text instead of a writer, and the calls
produce what the text drains to (`RewindingWriter.pollProduces_iff`).

A reader of a text has a part of it left; what a step may do with it is `Reads`, and a call takes
what it reads off what is left (`fillPoll_reads`).
-/

import YlongHttp.Rust.Drain

namespace YlongHttp.Rust

open List

variable {σ ε : Type}

inductive Poll (α : Type) where
  | ready (value : α)
  | pending
deriving DecidableEq, Repr

def Poll.map {α β : Type} (f : α → β) : Poll α → Poll β
  | .ready a => .ready (f a)
  | .pending => .pending

/-- What a call returns that has to wait after it has written something. -/
def Poll.waited (started : Bool) (written : List UInt8) : Poll (List UInt8) :=
  if started = false ∧ written = [] then .pending else .ready written

theorem Poll.waited_eq_pending {written : List UInt8} : Poll.waited false written = .pending ↔ written = [] := by
  unfold Poll.waited
  split <;> simp_all

theorem Poll.waited_eq_ready {written out : List UInt8} :
    Poll.waited false written = .ready out ↔ written = out ∧ out ≠ [] := by
  unfold Poll.waited
  split
  · simp_all
  · simp_all
    rintro rfl
    assumption

/-- The loop `while count != buf.len()`; `started` says that something has been written. -/
def fillPoll (step : Nat → Method σ ε (Poll (Option (List UInt8)))) :
    Nat → Bool → Nat → Method σ ε (Poll (List UInt8))
  | _, _, 0 => return .ready []
  | 0, _, _ + 1 => Method.panicked
  | fuel + 1, started, room + 1 => do
    match ← step (room + 1) with
    | .pending => return .waited started []
    | .ready none => return .ready []
    | .ready (some written) =>
      let rest ← fillPoll step fuel (started || written ≠ []) (room + 1 - written.length)
      return rest.map (written ++ ·)

/-- The bytes of the calls with the buffers of a sequence, until a call writes nothing. -/
inductive PollProduces (call : Nat → Method σ ε (Poll (List UInt8))) : (Nat → Nat) → σ → List UInt8 → Prop where
  | stop {rooms : Nat → Nat} {s s' : σ} (last : call (rooms 0) s = .ok (.ready []) s') : PollProduces call rooms s []
  | pending {rooms : Nat → Nat} {s s' : σ} {out : List UInt8} (first : call (rooms 0) s = .ok .pending s')
      (rest : PollProduces call (fun k => rooms (k + 1)) s' out) : PollProduces call rooms s out
  | more {rooms : Nat → Nat} {s s' : σ} {written out : List UInt8}
      (first : call (rooms 0) s = .ok (.ready written) s') (ne : written ≠ [])
      (rest : PollProduces call (fun k => rooms (k + 1)) s' out) : PollProduces call rooms s (written ++ out)

/-! ### Writers that never wait -/

theorem fillPoll_ready (step : Nat → Method σ ε (Option (List UInt8))) :
    ∀ (fuel : Nat) (started : Bool) (room : Nat) (s : σ),
      fillPoll (fun room => Poll.ready <$> step room) fuel started room s = (Poll.ready <$> fill step fuel room) s := by
  intro fuel
  induction fuel with
  | zero =>
    intro started room s
    cases room <;> rfl
  | succ fuel ih =>
    intro started room s
    cases room with
    | zero => rfl
    | succ room =>
      simp only [fillPoll, fill, Method.bind_apply, Method.map_apply]
      cases step (room + 1) s with
      | ok written s' =>
        cases written with
        | none => rfl
        | some written =>
          simp only [Outcome.bind_ok, Method.bind_apply, ih, Method.map_apply]
          cases fill step fuel (room + 1 - written.length) s' <;> rfl
      | err | panic => rfl

theorem pollProduces_ready {call : Nat → Method σ ε (List UInt8)}
    {poll : Nat → Method σ ε (Poll (List UInt8))} (hpoll : ∀ room s, poll room s = (Poll.ready <$> call room) s)
    {rooms : Nat → Nat} {s : σ} {out : List UInt8} : PollProduces poll rooms s out ↔ Produces call rooms s out := by
  have hready : ∀ {room s written s'}, poll room s = .ok (.ready written) s' ↔ call room s = .ok written s' := by
    intro room s written s'
    rw [hpoll, Method.map_apply]
    cases call room s <;> simp
  constructor
  · intro h
    induction h with
    | stop last => exact .stop (hready.mp last)
    | @pending rooms s s' out first rest ih =>
      rw [hpoll, Method.map_apply] at first
      cases hcall : call (rooms 0) s <;> rw [hcall] at first <;> cases first
    | more first ne rest ih => exact .more (hready.mp first) ne ih
  · intro h
    induction h with
    | stop last => exact .stop (hready.mpr last)
    | more first ne rest ih => exact .more (hready.mpr first) ne ih

/-! ### Texts -/

/-- What comes out of a text in buffers. When the text reaches the next stop before the buffer
is full, the call ends there. Otherwise the buffer ends somewhere, and `resume` says what is
left. -/
inductive Drains (resume : List UInt8 → List UInt8) : (Nat → Nat) → List Nat → List UInt8 → List UInt8 → Prop where
  | stop {rooms : Nat → Nat} : Drains resume rooms [] [] []
  | write {rooms : Nat → Nat} {stops : List Nat} {left out : List UInt8} (hne : left ≠ [])
      (hstops : ∀ q ∈ stops.head?, rooms 0 + q ≤ left.length)
      (rest : Drains resume (fun k => rooms (k + 1)) stops (resume (left.drop (rooms 0))) out) :
      Drains resume rooms stops left (left.take (rooms 0) ++ out)
  | wait {rooms : Nat → Nat} {q : Nat} {stops : List Nat} {left out : List UInt8}
      (hstop : left.length < rooms 0 + q)
      (rest : Drains resume (fun k => rooms (k + 1)) stops (left.drop (left.length - q)) out) :
      Drains resume rooms (q :: stops) left (left.take (left.length - q) ++ out)

/-! ### Writers that wait and go back -/

/-- In a state that is `At` a token with more bytes behind it, a step waits, or writes as much
of the token as there is room for. The writer waits at the next of the stops, which is never
inside a token. After an empty token comes one that is not empty, or the end. -/
structure RewindingWriter (step : Nat → Method σ ε (Poll (Option (List UInt8))))
    (resume : List UInt8 → List UInt8) (At : σ → List UInt8 → List UInt8 → List Nat → Prop)
    (waiting finished : σ → Prop) : Prop where
  stop : ∀ (room : Nat) {s token behind stops}, At s token behind stops → finished s →
    step (room + 1) s = .ok (.ready none) s ∧ token ++ behind = [] ∧ stops = []
  wait : ∀ (room : Nat) {s token behind stops}, At s token behind stops → waiting s →
    ∃ s' stops', step (room + 1) s = .ok .pending s' ∧ stops = (token ++ behind).length :: stops' ∧
      At s' token behind stops'
  write : ∀ (room : Nat) {s token behind stops}, At s token behind stops → ¬ finished s → ¬ waiting s →
    (∀ q ∈ stops.head?, q ≤ behind.length) ∧
    ∃ s' token' behind', step (room + 1) s = .ok (.ready (some (token.take (room + 1)))) s' ∧
      At s' token' behind' stops ∧
      token' ++ behind' = (if token.length ≤ room + 1 then behind else resume (token.drop (room + 1) ++ behind)) ∧
      (token = [] → token' ≠ [] ∨ finished s')
  fixed : ∀ {s token behind stops}, At s token behind stops → resume (token ++ behind) = token ++ behind

/-- How a call ends: with a full buffer, or with the whole text, or at a stop. -/
inductive Filled (resume : List UInt8 → List UInt8) (At : σ → List UInt8 → List UInt8 → List Nat → Prop)
    (started : Bool) (room : Nat) (left : List UInt8) (stops : List Nat) :
    Outcome σ ε (Poll (List UInt8)) → Prop where
  | full {s' : σ} {token behind : List UInt8} (hstops : ∀ q ∈ stops.head?, room + q ≤ left.length)
      (hat : At s' token behind stops) (hleft : token ++ behind = resume (left.drop room)) :
      Filled resume At started room left stops (.ok (.ready (left.take room)) s')
  | waited {s' : σ} {token behind : List UInt8} {q : Nat} {stops' : List Nat} (hstops : stops = q :: stops')
      (hle : q ≤ left.length) (hlt : left.length < room + q) (hat : At s' token behind stops')
      (hleft : token ++ behind = left.drop (left.length - q)) :
      Filled resume At started room left stops (.ok (.waited started (left.take (left.length - q))) s')

namespace RewindingWriter

variable {step : Nat → Method σ ε (Poll (Option (List UInt8)))} {resume : List UInt8 → List UInt8}
  {At : σ → List UInt8 → List UInt8 → List Nat → Prop} {waiting finished : σ → Prop}
  {token behind : List UInt8} {stops : List Nat}

theorem head_le (h : RewindingWriter step resume At waiting finished) {s : σ}
    (hat : At s token behind stops) : ∀ q ∈ stops.head?, q ≤ (token ++ behind).length := by
  by_cases hfinished : finished s
  · obtain ⟨-, -, rfl⟩ := h.stop 0 hat hfinished
    simp
  · by_cases hwaiting : waiting s
    · obtain ⟨s', stops', -, rfl, -⟩ := h.wait 0 hat hwaiting
      simp
    · intro q hq
      have hle := (h.write 0 hat hfinished hwaiting).1 q hq
      rw [length_append]
      exact le_trans hle (Nat.le_add_left ..)

theorem map_waited (started : Bool) (token written : List UInt8) :
    (Poll.waited (started || token ≠ []) written).map (token ++ ·) = .waited started (token ++ written) := by
  unfold Poll.waited
  by_cases hidle : started = false ∧ token ++ written = []
  · obtain ⟨rfl, hnil⟩ := hidle
    obtain ⟨rfl, rfl⟩ := append_eq_nil_iff.mp hnil
    simp [Poll.map]
  · rw [if_neg hidle, if_neg]
    · rfl
    · rintro ⟨hstarted, rfl⟩
      simp only [Bool.or_eq_false_iff, decide_eq_false_iff_not, not_not] at hstarted
      obtain ⟨rfl, rfl⟩ := hstarted
      exact hidle ⟨rfl, rfl⟩

variable {room : Nat}

/-- A call that writes a whole token first ends as the rest of it does. -/
theorem Filled.prepend {started : Bool} {out : Outcome σ ε (Poll (List UInt8))} (hfits : token.length ≤ room)
    (h : Filled resume At (started || token ≠ []) (room - token.length) behind stops out) :
    Filled resume At started room (token ++ behind) stops (out.bind fun rest s => .ok (rest.map (token ++ ·)) s) := by
  have hlength : (token ++ behind).length = token.length + behind.length := length_append
  cases h with
  | full hstops hat hleft =>
    have htake : token ++ behind.take (room - token.length) = (token ++ behind).take room := by
      rw [take_append, take_of_length_le hfits]
    have hdrop : behind.drop (room - token.length) = (token ++ behind).drop room := by
      rw [drop_append, drop_of_length_le hfits, nil_append]
    simp only [Outcome.bind_ok, Poll.map, htake]
    refine .full ?_ hat ?_
    · intro q hq
      have hle := hstops q hq
      omega
    · rw [hleft, hdrop]
  | @waited s' token' behind' q stops' hstops hle hlt hat hleft =>
    have hcount : (token ++ behind).length - q = token.length + (behind.length - q) := by omega
    rw [Outcome.bind_ok, map_waited, ← take_length_add_append, ← hcount]
    refine .waited hstops ?_ ?_ hat ?_
    · omega
    · omega
    · rw [hleft, hcount, drop_length_add_append]

/-- A call that has to wait at once. -/
theorem Filled.here (started : Bool) {s' : σ} (hroom : 0 < room) (hat : At s' token behind stops) :
    Filled (ε := ε) resume At started room (token ++ behind) ((token ++ behind).length :: stops)
      (.ok (.waited started []) s') := by
  have hend : Filled (ε := ε) resume At started room (token ++ behind) ((token ++ behind).length :: stops)
      (.ok (.waited started ((token ++ behind).take ((token ++ behind).length - (token ++ behind).length))) s') := by
    refine .waited rfl (le_refl _) (Nat.lt_add_of_pos_left hroom) hat ?_
    rw [Nat.sub_self, drop_zero]
  rwa [Nat.sub_self] at hend

theorem filled_fillPoll (h : RewindingWriter step resume At waiting finished) {fuel : Nat} :
    ∀ {started : Bool} {room : Nat} {s : σ} {token behind : List UInt8} {stops : List Nat}, At s token behind stops →
      (2 * room + 2 ≤ fuel ∨ 2 * room + 1 ≤ fuel ∧ (token ≠ [] ∨ finished s)) →
      Filled resume At started room (token ++ behind) stops (fillPoll step fuel started room s) := by
  induction fuel with
  | zero =>
    intro started room s token behind stops _ hfuel
    omega
  | succ fuel ih =>
    intro started room s token behind stops hat hfuel
    cases room with
    | zero =>
      refine .full ?_ hat (h.fixed hat).symm
      intro q hq
      rw [zero_add]
      exact h.head_le hat q hq
    | succ room =>
      by_cases hfinished : finished s
      · obtain ⟨hstep, hnil, rfl⟩ := h.stop room hat hfinished
        have hfixed := h.fixed hat
        simp only [fillPoll, Method.bind_apply, hstep, Outcome.bind_ok, Method.pure_apply]
        rw [hnil] at hfixed ⊢
        refine .full (by simp) hat ?_
        rw [hnil, drop_nil, hfixed]
      · by_cases hwaiting : waiting s
        · obtain ⟨s', stops', hstep, rfl, hat'⟩ := h.wait room hat hwaiting
          simp only [fillPoll, Method.bind_apply, hstep, Outcome.bind_ok, Method.pure_apply]
          exact Filled.here started (Nat.succ_pos room) hat'
        · obtain ⟨hhead, s', token', behind', hstep, hat', hleft, hidle⟩ := h.write room hat hfinished hwaiting
          simp only [fillPoll, Method.bind_apply, hstep, Outcome.bind_ok, Method.pure_apply]
          split_ifs at hleft with hfits
          · rw [take_of_length_le hfits]
            refine Filled.prepend hfits ?_
            rw [← hleft]
            refine ih hat' ?_
            by_cases hempty : token = []
            · right
              refine ⟨?_, hidle hempty⟩
              rcases hfuel with hfuel | ⟨-, hne | hdone⟩
              · omega
              · exact absurd hempty hne
              · exact absurd hdone hfinished
            · left
              have hpos := length_pos_iff.mpr hempty
              omega
          · have hlt : room + 1 < token.length := Nat.lt_of_not_le hfits
            have hroom : room + 1 - (token.take (room + 1)).length = 0 := by
              rw [length_take_of_le (le_of_lt hlt), Nat.sub_self]
            have htake : token.take (room + 1) ++ [] = (token ++ behind).take (room + 1) := by
              rw [append_nil, take_append_of_le_length (le_of_lt hlt)]
            rw [hroom]
            simp only [fillPoll, Method.pure_apply, Outcome.bind_ok, Poll.map, htake]
            refine .full ?_ hat' ?_
            · intro q hq
              have hle := hhead q hq
              rw [length_append]
              omega
            · rw [hleft, drop_append_of_le_length (le_of_lt hlt)]

section Calls

variable (h : RewindingWriter step resume At waiting finished) {call : Nat → Method σ ε (Poll (List UInt8))}
  (hcall : ∀ room s, 0 < room → call room s = fillPoll step (2 * room + 2) false room s)

include h hcall

variable {s : σ} {token behind out : List UInt8} {stops : List Nat} {rooms : Nat → Nat}

theorem filled_call (hroom : 0 < room)
    (hat : At s token behind stops) : Filled resume At false room (token ++ behind) stops (call room s) := by
  rw [hcall room s hroom]
  exact h.filled_fillPoll hat (.inl (le_refl _))

section

variable (hrooms : ∀ k, 0 < rooms k) (hat : At s token behind stops)

include hrooms hat

theorem drains_of_pollProduces
    (hproduces : PollProduces call rooms s out) : Drains resume rooms stops (token ++ behind) out := by
  induction hproduces generalizing token behind stops with
  | @stop rooms s s' last =>
    have hfilled := h.filled_call hcall (hrooms 0) hat
    generalize token ++ behind = left at hfilled
    generalize call (rooms 0) s = ended at hfilled last
    cases hfilled with
    | full hstops hat' hleft =>
      have hnil : left.take (rooms 0) = [] := Poll.ready.inj (Outcome.ok.inj last).1
      rcases take_eq_nil_iff.mp hnil with hzero | rfl
      · exact absurd hzero (ne_of_gt (hrooms 0))
      · cases stops with
        | nil => exact .stop
        | cons q stops =>
          have hle := hstops q rfl
          have hpos := hrooms 0
          simp only [length_nil] at hle
          omega
    | waited hstops hle hlt hat' hleft =>
      have hready := (Outcome.ok.inj last).1
      exact absurd rfl (Poll.waited_eq_ready.mp hready).2
  | @pending rooms s s' out first rest ih =>
    have hfilled := h.filled_call hcall (hrooms 0) hat
    generalize call (rooms 0) s = ended at hfilled first
    cases hfilled with
    | full hstops hat' hleft => cases first
    | waited hstops hle hlt hat' hleft =>
      obtain ⟨hpending, rfl⟩ := Outcome.ok.inj first
      have hnil := Poll.waited_eq_pending.mp hpending
      have hrest := ih (fun k => hrooms (k + 1)) hat'
      rw [hleft] at hrest
      rw [hstops, ← nil_append out, ← hnil]
      exact .wait hlt hrest
  | @more rooms s s' written out first ne rest ih =>
    have hfilled := h.filled_call hcall (hrooms 0) hat
    generalize token ++ behind = left at hfilled
    generalize call (rooms 0) s = ended at hfilled first
    cases hfilled with
    | full hstops hat' hleft =>
      obtain ⟨hready, rfl⟩ := Outcome.ok.inj first
      cases hready
      have hrest := ih (fun k => hrooms (k + 1)) hat'
      rw [hleft] at hrest
      have hne : left ≠ [] := by
        rintro rfl
        exact ne take_nil
      exact .write hne hstops hrest
    | waited hstops hle hlt hat' hleft =>
      obtain ⟨hready, rfl⟩ := Outcome.ok.inj first
      obtain ⟨rfl, -⟩ := Poll.waited_eq_ready.mp hready
      have hrest := ih (fun k => hrooms (k + 1)) hat'
      rw [hleft] at hrest
      rw [hstops]
      exact .wait hlt hrest

theorem pollProduces_of_drains {left : List UInt8}
    (hleft : token ++ behind = left) (hdrains : Drains resume rooms stops left out) :
    PollProduces call rooms s out := by
  induction hdrains generalizing s token behind with
  | @stop rooms =>
    have hfilled := h.filled_call hcall (hrooms 0) hat
    rw [hleft] at hfilled
    generalize hend : call (rooms 0) s = ended at hfilled
    cases hfilled with
    | full hstops hat' hleft' =>
      rw [take_nil] at hend
      exact .stop hend
    | waited hstops hle hlt hat' hleft' => cases hstops
  | @write rooms stops left out hne hstops rest ih =>
    have hfilled := h.filled_call hcall (hrooms 0) hat
    rw [hleft] at hfilled
    generalize hend : call (rooms 0) s = ended at hfilled
    cases hfilled with
    | full _ hat' hleft' =>
      have hwritten : left.take (rooms 0) ≠ [] := by
        intro hnil
        rcases take_eq_nil_iff.mp hnil with hzero | hnil
        · exact absurd hzero (ne_of_gt (hrooms 0))
        · exact hne hnil
      exact .more hend hwritten (ih (fun k => hrooms (k + 1)) hat' hleft')
    | waited heq hle hlt hat' hleft' =>
      have hle := hstops _ (by rw [heq]; rfl)
      omega
  | @wait rooms q stops left out hstop rest ih =>
    have hfilled := h.filled_call hcall (hrooms 0) hat
    rw [hleft] at hfilled
    generalize hend : call (rooms 0) s = ended at hfilled
    cases hfilled with
    | full hstops hat' hleft' =>
      have hle := hstops q rfl
      omega
    | waited heq hle hlt hat' hleft' =>
      obtain ⟨rfl, rfl⟩ := cons.inj heq
      have hrest := ih (fun k => hrooms (k + 1)) hat' hleft'
      by_cases hnil : left.take (left.length - q) = []
      · rw [Poll.waited_eq_pending.mpr hnil] at hend
        rw [hnil]
        exact .pending hend hrest
      · rw [Poll.waited_eq_ready.mpr ⟨rfl, hnil⟩] at hend
        exact .more hend hnil hrest

/-- The calls produce what the text drains to. -/
theorem pollProduces_iff : PollProduces call rooms s out ↔ Drains resume rooms stops (token ++ behind) out :=
  ⟨h.drains_of_pollProduces hcall hrooms hat, h.pollProduces_of_drains hcall hrooms hat rfl⟩

end

end Calls

end RewindingWriter

/-! ### Readers of a text -/

/-- What a step of a reader may do: wait, end with nothing left, or take something off what is
left. A step that takes nothing off lowers the rank. -/
inductive Reads (P : σ → Prop) (left : σ → List UInt8) (rank : σ → Nat) (room : Nat) (s : σ) :
    Outcome σ ε (Poll (Option (List UInt8))) → Prop where
  | pending {s' : σ} (keeps : P s') (hleft : left s' = left s) : Reads P left rank room s (.ok .pending s')
  | stop (hnil : left s = []) : Reads P left rank room s (.ok (.ready none) s)
  | more {s' : σ} {written : List UInt8} (keeps : P s') (hleft : left s = written ++ left s')
      (hroom : written.length ≤ room) (hrank : rank s' + (if written = [] then 1 else 0) ≤ rank s) :
      Reads P left rank room s (.ok (.ready (some written)) s')

end YlongHttp.Rust
