/-
Texts with a token that is started again.

`rewindTo token rest` goes back to the start of `token` if a buffer ends inside it. A text
then drains to itself if, and only if, no buffer ends there (`drains_of_not_cut`,
`drains_settled`). `leftAfter` computes where the buffers of a sequence end, with calls that end
early at a stop.
-/

import YlongHttp.Rust.Poll

namespace YlongHttp.Rust

open List

/-! ### Where buffers end -/

/-- What is left after a call: the number of bytes, and the stops to come. -/
def afterPoll (room : Nat) : Nat × List Nat → Nat × List Nat
  | (left, []) => (left - room, [])
  | (left, q :: stops) => if left < room + q then (q, stops) else (left - room, q :: stops)

/-- What is left after the first `k` calls. -/
def leftAfter (rooms : Nat → Nat) (left : Nat × List Nat) : Nat → Nat × List Nat
  | 0 => left
  | k + 1 => leftAfter (fun i => rooms (i + 1)) (afterPoll (rooms 0) left) k

theorem leftAfter_nil (rooms : Nat → Nat) (left k : Nat) :
    leftAfter rooms (left, []) k = (left - roomUpTo rooms k, []) := by
  induction k generalizing rooms left with
  | zero => rfl
  | succ k ih =>
    rw [leftAfter, afterPoll, ih, roomUpTo_succ, Nat.sub_sub]

/-- The stops are reached one after the other. -/
def Bounded : Nat → List Nat → Prop
  | _, [] => True
  | left, q :: stops => q ≤ left ∧ Bounded q stops

variable {left : Nat} {stops : List Nat}

theorem Bounded.mono {left' : Nat} (hle : left ≤ left') (h : Bounded left stops) : Bounded left' stops := by
  cases stops with
  | nil => trivial
  | cons q stops => exact ⟨le_trans h.1 hle, h.2⟩

theorem afterPoll_bounded (room : Nat) (h : Bounded left stops) : (afterPoll room (left, stops)).1 ≤ left ∧
      Bounded (afterPoll room (left, stops)).1 (afterPoll room (left, stops)).2 := by
  cases stops with
  | nil => exact ⟨Nat.sub_le .., trivial⟩
  | cons q stops =>
    obtain ⟨hle, hstops⟩ := h
    rw [afterPoll]
    split_ifs
    · exact ⟨hle, hstops⟩
    · refine ⟨Nat.sub_le .., ?_, hstops⟩
      omega

/-- A call that fills its buffer. -/
theorem afterPoll_full {room : Nat} (hstops : ∀ q ∈ stops.head?, room + q ≤ left) :
    afterPoll room (left, stops) = (left - room, stops) := by
  cases stops with
  | nil => rfl
  | cons q stops => rw [afterPoll, if_neg (Nat.not_lt_of_le (hstops q rfl))]

theorem afterPoll_stop {room q : Nat} (hlt : left < room + q) : afterPoll room (left, q :: stops) = (q, stops) := by
  rw [afterPoll, if_pos hlt]

theorem leftAfter_le {rooms : Nat → Nat} (h : Bounded left stops) (k : Nat) :
    (leftAfter rooms (left, stops) k).1 ≤ left := by
  induction k generalizing rooms left stops with
  | zero => exact le_refl left
  | succ k ih =>
    obtain ⟨hle, hbounded⟩ := afterPoll_bounded (rooms 0) h
    exact le_trans (ih hbounded) hle

/-! ### Going back -/

section Rewind

variable (token rest : List UInt8)

/-- `n` bytes are left inside the token. -/
def Inside (n : Nat) : Prop := rest.length < n ∧ n < (token ++ rest).length

instance (n : Nat) : Decidable (Inside token rest n) := inferInstanceAs (Decidable (_ ∧ _))

def rewindTo (left : List UInt8) : List UInt8 := if Inside token rest left.length then token ++ rest else left

/-- A buffer ends inside the token. -/
def Cut (rooms : Nat → Nat) (left : Nat × List Nat) : Prop :=
  ∃ k, Inside token rest (leftAfter rooms left k).1

variable {token rest} {n : Nat} {rooms : Nat → Nat} {stops : List Nat} {left out : List UInt8}

theorem not_inside_of_le (h : n ≤ rest.length) : ¬ Inside token rest n := fun hinside =>
  absurd hinside.1 (Nat.not_lt_of_le h)

theorem not_inside_append (front : List UInt8) : ¬ Inside token rest (front ++ (token ++ rest)).length := by
  rintro ⟨-, hlt⟩
  rw [length_append] at hlt
  exact absurd hlt (Nat.not_lt_of_le (Nat.le_add_left ..))

theorem cut_iff_next {left : Nat × List Nat} (h : ¬ Inside token rest left.1) :
    Cut token rest rooms left ↔ Cut token rest (fun i => rooms (i + 1)) (afterPoll (rooms 0) left) := by
  constructor
  · rintro ⟨k, hinside⟩
    cases k with
    | zero => exact absurd hinside h
    | succ k => exact ⟨k, hinside⟩
  · rintro ⟨k, hinside⟩
    exact ⟨k + 1, hinside⟩

theorem not_inside_of_not_cut {left : Nat × List Nat} (h : ¬ Cut token rest rooms left) :
    ¬ Inside token rest left.1 := fun hinside => h ⟨0, hinside⟩

theorem not_cut_of_le {left : Nat} (h : left ≤ rest.length)
    (hstops : Bounded left stops) : ¬ Cut token rest rooms (left, stops) := by
  rintro ⟨k, hinside⟩
  exact not_inside_of_le (le_trans (leftAfter_le hstops k) h) hinside

theorem rewindTo_eq (h : ¬ Inside token rest left.length) : rewindTo token rest left = left :=
  if_neg h

theorem length_drop_to {q : Nat} (h : q ≤ left.length) : (left.drop (left.length - q)).length = q := by
  rw [length_drop]
  exact Nat.sub_sub_self h

/-- A text that is not cut inside the token drains to itself. -/
theorem drains_of_not_cut (hrooms : ∀ k, 0 < rooms k) (hstops : Bounded left.length stops)
    (hcut : ¬ Cut token rest rooms (left.length, stops)) : Drains (rewindTo token rest) rooms stops left left := by
  induction hn : left.length + stops.length using Nat.strong_induction_on generalizing rooms left stops with
  | _ n ih =>
    have hnext := hcut
    rw [cut_iff_next (not_inside_of_not_cut hcut)] at hnext
    obtain ⟨-, hbounded⟩ := afterPoll_bounded (rooms 0) hstops
    have hpos := hrooms 0
    have hwrite : left ≠ [] → (∀ q ∈ stops.head?, rooms 0 + q ≤ left.length) →
        Drains (rewindTo token rest) rooms stops left left := by
      intro hne hhead
      rw [afterPoll_full hhead, ← length_drop] at hnext hbounded
      have hshort : (left.drop (rooms 0)).length + stops.length < n := by
        have hlength := length_pos_iff.mpr hne
        rw [length_drop]
        omega
      have hrest := ih _ hshort (fun k => hrooms (k + 1)) hbounded hnext rfl
      rw [← rewindTo_eq (not_inside_of_not_cut hnext)] at hrest
      have hdrains := Drains.write hne hhead hrest
      rwa [rewindTo_eq (not_inside_of_not_cut hnext), take_append_drop] at hdrains
    cases stops with
    | nil =>
      by_cases hne : left = []
      · subst hne
        exact .stop
      · exact hwrite hne (by simp)
    | cons q stops =>
      by_cases hlt : left.length < rooms 0 + q
      · have hlength := length_drop_to hstops.1
        rw [afterPoll_stop hlt, ← hlength] at hnext hbounded
        have hshort : (left.drop (left.length - q)).length + stops.length < n := by
          have hle := hstops.1
          simp only [length_cons] at hn
          omega
        have hrest := ih _ hshort (fun k => hrooms (k + 1)) hbounded hnext rfl
        have hdrains := Drains.wait hlt hrest
        rwa [take_append_drop] at hdrains
      · refine hwrite ?_ ?_
        · rintro rfl
          rw [length_nil] at hlt
          omega
        · rintro p ⟨⟩
          exact Nat.le_of_not_lt hlt

/-- What is written in vain: a piece of the token, and perhaps more of its bytes. -/
def Junk (token junk : List UInt8) : Prop :=
  ∃ k more, 0 < k ∧ k < token.length ∧ junk = token.take k ++ more ∧ ∀ b ∈ more, b ∈ token

theorem Junk.mem {junk : List UInt8} (h : Junk token junk) : ∀ b ∈ junk, b ∈ token := by
  obtain ⟨k, more, -, -, rfl, hmore⟩ := h
  intro b hb
  rcases mem_append.mp hb with hb | hb
  · exact mem_of_mem_take hb
  · exact hmore b hb

/-- What comes out of a text with `front` in front of the token: the text, unless `cut` holds,
or the text with something written in vain before the token. -/
def Settled (token rest front left out : List UInt8) (cut : Prop) : Prop :=
  (out = left ∧ ¬ cut) ∨ ∃ junk, Junk token junk ∧ out = front ++ (junk ++ (token ++ rest))

/-- A piece of the text that does not end inside the token. -/
theorem settled_append {front : List UInt8} {cut : Prop}
    (hleft : left = front ++ (token ++ rest)) (hinside : ¬ Inside token rest (left.drop n).length)
    (hbehind : (left.drop n).length ≤ rest.length → out = left.drop n ∧ ¬ cut)
    (hfront : ∀ front', left.drop n = front' ++ (token ++ rest) → Settled token rest front' (left.drop n) out cut) :
    Settled token rest front left (left.take n ++ out) cut := by
  rcases lt_or_ge rest.length (left.drop n).length with hlt | hle
  · have hlong : (token ++ rest).length ≤ (left.drop n).length :=
      Nat.le_of_not_lt fun h => hinside ⟨hlt, h⟩
    have hle : n ≤ front.length := by
      have hlength : left.length = front.length + (token ++ rest).length := by
        rw [hleft, length_append]
      rw [length_drop] at hlong hlt
      omega
    have hdrop : left.drop n = front.drop n ++ (token ++ rest) := by
      rw [hleft, drop_append_of_le_length hle]
    have htake : left.take n = front.take n := by
      rw [hleft, take_append_of_le_length hle]
    rcases hfront _ hdrop with ⟨hout, hcut⟩ | ⟨junk, hjunk, hout⟩
    · refine .inl ⟨?_, hcut⟩
      rw [hout, take_append_drop]
    · refine .inr ⟨junk, hjunk, ?_⟩
      rw [hout, htake, ← append_assoc, take_append_drop]
  · obtain ⟨hout, hcut⟩ := hbehind hle
    refine .inl ⟨?_, hcut⟩
    rw [hout, take_append_drop]

/-- A piece of the text that ends inside the token, after which the token is written again. -/
theorem settled_rewind {front : List UInt8} {cut cut' : Prop}
    (hleft : left = front ++ (token ++ rest)) (hinside : Inside token rest (left.drop n).length)
    (hagain : Settled token rest [] (token ++ rest) out cut') :
    Settled token rest front left (left.take n ++ out) cut := by
  obtain ⟨hlong, hshort⟩ := hinside
  have hlength : left.length = front.length + (token.length + rest.length) := by
    rw [hleft, length_append, length_append]
  rw [length_drop] at hlong hshort
  rw [length_append] at hshort
  have htake : left.take n = front ++ token.take (n - front.length) := by
    rw [hleft, take_append, take_of_length_le (by omega), take_append_of_le_length (by omega)]
  have hjunk : ∀ more, (∀ b ∈ more, b ∈ token) → Junk token (token.take (n - front.length) ++ more) := by
    intro more hmore
    exact ⟨n - front.length, more, by omega, by omega, rfl, hmore⟩
  right
  rcases hagain with ⟨rfl, -⟩ | ⟨junk, hvain, rfl⟩
  · refine ⟨_, hjunk [] (by simp), ?_⟩
    rw [htake, append_nil, append_assoc]
  · refine ⟨_, hjunk junk hvain.mem, ?_⟩
    simp only [htake, append_assoc, nil_append]

theorem drains_settled (h : Drains (rewindTo token rest) rooms stops left out) (hstops : Bounded left.length stops)
    (hoff : ∀ q ∈ stops, ¬ Inside token rest q) : (left.length ≤ rest.length → out = left) ∧
      ∀ front, left = front ++ (token ++ rest) →
        Settled token rest front left out (Cut token rest rooms (left.length, stops)) := by
  induction h with
  | @stop rooms =>
    refine ⟨fun _ => rfl, ?_⟩
    intro front hleft
    exact .inl ⟨rfl, not_cut_of_le (Nat.zero_le _) trivial⟩
  | @write rooms stops left out hne hhead hrest ih =>
    obtain ⟨-, hbounded⟩ := afterPoll_bounded (rooms 0) hstops
    rw [afterPoll_full hhead, ← length_drop] at hbounded
    by_cases hinside : Inside token rest (left.drop (rooms 0)).length
    · have hback : rewindTo token rest (left.drop (rooms 0)) = token ++ rest := if_pos hinside
      rw [hback] at ih
      obtain ⟨-, hagain⟩ := ih (hbounded.mono (le_of_lt hinside.2)) hoff
      constructor
      · intro hle
        refine absurd hinside (not_inside_of_le (le_trans ?_ hle))
        rw [length_drop]
        exact Nat.sub_le ..
      · intro front hleft
        exact settled_rewind hleft hinside (hagain [] rfl)
    · rw [rewindTo_eq hinside] at ih
      obtain ⟨hbehind, hfront⟩ := ih hbounded hoff
      constructor
      · intro hle
        rw [hbehind, take_append_drop]
        rw [length_drop]
        exact le_trans (Nat.sub_le ..) hle
      · intro front hleft
        have hhere : ¬ Inside token rest left.length := hleft ▸ not_inside_append front
        rw [cut_iff_next hhere, afterPoll_full hhead, ← length_drop]
        exact settled_append hleft hinside (fun hle => ⟨hbehind hle, not_cut_of_le hle hbounded⟩) hfront
  | @wait rooms q stops left out hlt hrest ih =>
    obtain ⟨hle, hbounded⟩ := hstops
    obtain ⟨hq, hoff⟩ := forall_mem_cons.mp hoff
    have hlength := length_drop_to hle
    rw [← hlength] at hq hbounded
    obtain ⟨hbehind, hfront⟩ := ih hbounded hoff
    constructor
    · intro hle'
      rw [hbehind, take_append_drop]
      rw [hlength]
      exact le_trans hle hle'
    · intro front hleft
      have hhere : ¬ Inside token rest left.length := hleft ▸ not_inside_append front
      have hafter : afterPoll (rooms 0) (left.length, q :: stops) = ((left.drop (left.length - q)).length, stops) := by
        rw [afterPoll_stop hlt, hlength]
      rw [cut_iff_next hhere, hafter]
      exact settled_append hleft hq (fun hle => ⟨hbehind hle, not_cut_of_le hle hbounded⟩) hfront

end Rewind

end YlongHttp.Rust
