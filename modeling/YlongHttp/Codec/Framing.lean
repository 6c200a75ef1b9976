/-
Streams of frames.

A frame is a header of a fixed length followed by a payload whose length the header
announces. `split` cuts a stream into the complete frames at its front and an
incomplete rest.
-/

import Mathlib

namespace YlongHttp.Codec

open List

/-- The length of headers, and the length of the payload that a header announces. -/
structure Framing (α : Type) where
  headerLength : Nat
  headerLength_pos : 0 < headerLength
  payloadLength : List α → Nat

namespace Framing

variable {α : Type} (F : Framing α)

def header (xs : List α) : List α := xs.take F.headerLength

def frameLength (xs : List α) : Nat := F.headerLength + F.payloadLength (F.header xs)

def payload (xs : List α) : List α :=
  (xs.drop F.headerLength).take (F.payloadLength (F.header xs))

def rest (xs : List α) : List α := xs.drop (F.frameLength xs)

/-- The stream starts with a complete frame. -/
def Complete (xs : List α) : Prop := F.headerLength ≤ xs.length ∧ F.frameLength xs ≤ xs.length

instance (xs : List α) : Decidable (F.Complete xs) := inferInstanceAs (Decidable (_ ∧ _))

def splitFuel : Nat → List α → List (List α × List α) × List α
  | 0, xs => ([], xs)
  | fuel + 1, xs =>
    if F.Complete xs then
      ((F.header xs, F.payload xs) :: (splitFuel fuel (F.rest xs)).1, (splitFuel fuel (F.rest xs)).2)
    else ([], xs)

/-- The frames at the front of a stream, as headers with payloads, and what is left. -/
def split (xs : List α) : List (List α × List α) × List α := F.splitFuel xs.length xs

variable {F} {xs ys : List α}

theorem length_rest_lt (h : F.Complete xs) : (F.rest xs).length < xs.length := by
  have hpos := F.headerLength_pos
  obtain ⟨hheader, hframe⟩ := h
  rw [rest, length_drop, frameLength]
  omega

theorem splitFuel_eq {fuel : Nat} : ∀ {xs : List α} {more : Nat}, xs.length ≤ fuel →
    F.splitFuel (fuel + more) xs = F.splitFuel fuel xs := by
  induction fuel with
  | zero =>
    intro xs more hlen
    have hnot : ¬ F.Complete xs := fun h => by
      have := length_rest_lt h
      omega
    cases more with
    | zero => rfl
    | succ more =>
      rw [zero_add, splitFuel.eq_2, if_neg hnot]
      rfl
  | succ fuel ih =>
    intro xs more hlen
    rw [add_right_comm, splitFuel, splitFuel]
    split_ifs with hcomplete
    · have := length_rest_lt hcomplete
      rw [ih (by omega)]
    · rfl

theorem split_of_complete (h : F.Complete xs) :
    F.split xs = ((F.header xs, F.payload xs) :: (F.split (F.rest xs)).1, (F.split (F.rest xs)).2) := by
  have hlt := length_rest_lt h
  obtain ⟨more, hmore⟩ : ∃ more, xs.length = (F.rest xs).length + more + 1 :=
    ⟨xs.length - (F.rest xs).length - 1, by omega⟩
  rw [split, hmore, splitFuel, if_pos h, splitFuel_eq (le_refl _)]
  rfl

theorem split_of_not_complete (h : ¬ F.Complete xs) : F.split xs = ([], xs) := by
  unfold split
  cases xs.length with
  | zero => rfl
  | succ n => rw [splitFuel, if_neg h]

/-- Streams are taken apart frame by frame. -/
theorem stream_induction {motive : List α → Prop} (incomplete : ∀ xs, ¬ F.Complete xs → motive xs)
    (complete : ∀ xs, F.Complete xs → motive (F.rest xs) → motive xs) : ∀ xs, motive xs := by
  intro xs
  induction hn : xs.length using Nat.strongRecOn generalizing xs with
  | ind n ih =>
    by_cases h : F.Complete xs
    · exact complete xs h (ih _ (hn ▸ length_rest_lt h) _ rfl)
    · exact incomplete xs h

theorem not_complete_split (xs : List α) : ¬ F.Complete (F.split xs).2 := by
  induction xs using F.stream_induction with
  | incomplete xs h => rwa [split_of_not_complete h]
  | complete xs h ih => rwa [split_of_complete h]

/-! ### Longer streams -/

theorem header_append (h : F.headerLength ≤ xs.length) (ys : List α) : F.header (xs ++ ys) = F.header xs :=
  take_append_of_le_length h

theorem frameLength_append (h : F.headerLength ≤ xs.length) (ys : List α) :
    F.frameLength (xs ++ ys) = F.frameLength xs := by
  rw [frameLength, header_append h, frameLength]

section

variable (h : F.Complete xs) (ys : List α)

include h

theorem Complete.append : F.Complete (xs ++ ys) := by
  refine ⟨?_, ?_⟩
  · rw [length_append]
    exact Nat.le_add_right_of_le h.1
  · rw [frameLength_append h.1, length_append]
    exact Nat.le_add_right_of_le h.2

theorem payload_append : F.payload (xs ++ ys) = F.payload xs := by
  have hframe := h.2
  rw [frameLength] at hframe
  rw [payload, header_append h.1, drop_append_of_le_length h.1,
    take_append_of_le_length (by rw [length_drop]; omega), payload]

theorem rest_append : F.rest (xs ++ ys) = F.rest xs ++ ys := by
  rw [rest, frameLength_append h.1, drop_append_of_le_length h.2, rest]

end

section

variable {header payload : List α} (hheader : header.length = F.headerLength)
  (hpayload : F.payloadLength header = payload.length) (ys : List α)

include hheader hpayload

/-- A stream that starts with a frame. -/
theorem complete_frame : F.Complete (header ++ payload ++ ys) ∧ F.header (header ++ payload ++ ys) = header ∧
      F.payload (header ++ payload ++ ys) = payload ∧ F.rest (header ++ payload ++ ys) = ys := by
  have htake : F.header (header ++ payload ++ ys) = header := by
    rw [Framing.header, append_assoc, take_append_of_le_length (le_of_eq hheader.symm),
      take_of_length_le (le_of_eq hheader)]
  have hdrop : (header ++ payload ++ ys).drop F.headerLength = payload ++ ys := by
    rw [append_assoc, ← hheader, drop_left]
  have hlength : F.frameLength (header ++ payload ++ ys) = (header ++ payload).length := by
    rw [frameLength, htake, hpayload, length_append, hheader]
  refine ⟨⟨?_, ?_⟩, htake, ?_, ?_⟩
  · rw [length_append, length_append, hheader, add_assoc]
    exact Nat.le_add_right _ _
  · rw [hlength]
    exact List.IsPrefix.length_le ⟨ys, rfl⟩
  · rw [Framing.payload, htake, hdrop, hpayload, take_left]
  · rw [rest, hlength, drop_left]

/-- The frames of a stream that starts with a frame. -/
theorem split_frame : F.split (header ++ payload ++ ys) = ((header, payload) :: (F.split ys).1, (F.split ys).2) := by
  obtain ⟨hcomplete, hhead, hpay, hrest⟩ := complete_frame hheader hpayload ys
  rw [split_of_complete hcomplete, hhead, hpay, hrest]

end

end Framing

end YlongHttp.Codec
