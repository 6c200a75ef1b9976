/-
Writers into bounded buffers that stop when the buffer is full.

A destination has room for a number of items. A writer fills it; if the room does
not suffice it fails with what it still has to write, so that the caller can go on
in the next buffer. `Writes m xs rest` says that `m` writes `xs` in this way, where
`rest` reads off a failed writer what is left. Writers are composed by
`Writes.bind`, and a sequence of buffers receives the items in order
(`Writes.bind` for the next part, the drivers of a development for the next buffer).
-/

import YlongHttp.Rust.Outcome

namespace YlongHttp.Codec

open Rust List

/-- A buffer with the items written so far and the room left. -/
structure Dst (α : Type) where
  items : List α
  room : Nat
deriving DecidableEq, Repr

variable {α ε ε' : Type}

namespace Dst

def new (room : Nat) : Dst α := ⟨[], room⟩

def push (d : Dst α) (xs : List α) : Dst α := ⟨d.items ++ xs, d.room - xs.length⟩

variable (d : Dst α)

@[simp] theorem items_push (xs : List α) : (d.push xs).items = d.items ++ xs := rfl

@[simp] theorem room_push (xs : List α) : (d.push xs).room = d.room - xs.length := rfl

@[simp] theorem push_nil : d.push [] = d := by
  simp [push]

@[simp] theorem push_push (xs ys : List α) : (d.push xs).push ys = d.push (xs ++ ys) := by
  simp [push, Nat.sub_sub]

end Dst

/-- Write one item; without room the buffer is indexed out of range. -/
def put (x : α) : Method (Dst α) ε Unit := fun d =>
  if 0 < d.room then .ok () (d.push [x]) else .panic

/-- Write a field of a writer, if it is still there. On failure the writer `again`
keeps what is left of the field. -/
def putField {β : Type} (item : Option β) (enc : β → Method (Dst α) β Unit) (again : β → ε) : Method (Dst α) ε Unit :=
  match item with
  | some i => (enc i).mapErr again
  | none => pure ()

/-- `m` writes `xs`, or as much of it as fits, and then fails with a state from
which `rest` reads the items that are left. -/
structure Writes (m : Method (Dst α) ε Unit) (xs : List α) (rest : ε → List α) : Prop where
  all : ∀ d : Dst α, xs.length ≤ d.room → m d = .ok () (d.push xs)
  part : ∀ d : Dst α, d.room < xs.length → ∃ e, m d = .err e (d.push (xs.take d.room)) ∧ rest e = xs.drop d.room

namespace Writes

/-- Writing nothing. -/
theorem pure (rest : ε → List α) : Writes (Pure.pure () : Method (Dst α) ε Unit) [] rest where
  all d _ := by simp
  part d h := by simp at h

variable {m : Method (Dst α) ε Unit} {rest : ε → List α}
  {xs ys : List α} {rest' : ε' → List α} {f : ε → ε'} {β : Type}

/-- Writing one part and then the next: a failure in the first part still has the
next one to write. -/
theorem bind {m' : Method (Dst α) ε' Unit} (h : Writes m xs rest)
    (h' : Writes m' ys rest') (hf : ∀ e, rest' (f e) = rest e ++ ys) :
    Writes (m.mapErr f >>= fun _ => m') (xs ++ ys) rest' where
  all d hroom := by
    rw [length_append] at hroom
    have hm := h.all d (by omega)
    have hm' := h'.all (d.push xs) (by rw [Dst.room_push]; omega)
    simp [Method.mapErr, hm, hm']
  part d hroom := by
    rw [length_append] at hroom
    by_cases hfit : xs.length ≤ d.room
    · obtain ⟨e, hm', hrest⟩ := h'.part (d.push xs) (by rw [Dst.room_push]; omega)
      refine ⟨e, ?_, ?_⟩
      · simp [Method.mapErr, h.all d hfit, hm', take_append, take_of_length_le hfit]
      · rw [hrest, Dst.room_push, drop_append, drop_eq_nil_of_le hfit, nil_append]
    · obtain ⟨e, hm, hrest⟩ := h.part d (by omega)
      refine ⟨f e, ?_, ?_⟩
      · simp only [Method.bind_apply, Method.mapErr, hm, Outcome.bind_err,
          take_append_of_le_length (show d.room ≤ xs.length by omega)]
      · rw [hf, hrest, drop_append_of_le_length (by omega)]

/-- Renaming the failed writers. -/
theorem mapErr (h : Writes m xs rest) (hf : ∀ e, rest' (f e) = rest e) : Writes (m.mapErr f) xs rest' where
  all d hroom := by simp [Method.mapErr, h.all d hroom]
  part d hroom := by
    obtain ⟨e, hm, hrest⟩ := h.part d hroom
    exact ⟨f e, by simp [Method.mapErr, hm], by rw [hf, hrest]⟩

variable {enc : β → Method (Dst α) β Unit} {octets : β → List α} {again : β → ε}

/-- Writing a field that may already be written, and then the next part. -/
theorem putField (h : ∀ i, Writes (enc i) (octets i) octets) (hm : Writes m ys rest)
    (hagain : ∀ e, rest (again e) = octets e ++ ys) (item : Option β) :
    Writes (Codec.putField item enc again >>= fun _ => m) (item.elim [] octets ++ ys) rest := by
  cases item with
  | some i => exact (h i).bind hm hagain
  | none => exact hm

/-- Writing a last field. -/
theorem lastField (h : ∀ i, Writes (enc i) (octets i) octets)
    (hagain : ∀ e, rest (again e) = octets e) (item : Option β) :
    Writes (Codec.putField item enc again) (item.elim [] octets) rest := by
  cases item with
  | some i => exact (h i).mapErr hagain
  | none => exact Writes.pure rest

end Writes

end YlongHttp.Codec
