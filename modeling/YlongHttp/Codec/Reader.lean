/-
Readers that take items off the front of their input.

A reader `Reads` if it does not panic, leaves no more input than it was given, and
fails only with errors of a given kind. Readers are composed by `Reads.bind`.
-/

import YlongHttp.Rust.Outcome

namespace YlongHttp.Codec

open Rust

variable {α ε β γ : Type} {E : ε → Prop}

/-- An outcome that leaves at most `n` items, or an error of the kind `E`. -/
inductive Leaves (E : ε → Prop) (n : Nat) : Outcome (List α) ε β → Prop where
  | ok {v : β} {rest : List α} (h : rest.length ≤ n) : Leaves E n (.ok v rest)
  | err {e : ε} {rest : List α} (h : E e) : Leaves E n (.err e rest)

def Reads (E : ε → Prop) (m : Method (List α) ε β) : Prop := ∀ buf, Leaves E buf.length (m buf)

variable {f : β → Method (List α) ε γ} {e : ε}

namespace Leaves

variable {n k : Nat} {x : Outcome (List α) ε β}

theorem mono (h : Leaves E n x) (hle : n ≤ k) : Leaves E k x := by
  cases h with
  | ok h => exact .ok (Nat.le_trans h hle)
  | err h => exact .err h

theorem bind (h : Leaves E n x) (hf : ∀ v, Reads E (f v)) : Leaves E n (x.bind fun v rest => f v rest) := by
  cases h with
  | ok h => exact (hf _ _).mono h
  | err h => exact .err h

theorem ne_panic (h : Leaves E n x) : x ≠ .panic := by
  rintro rfl
  cases h

theorem length_le {v : β} {rest : List α} (h : Leaves E n (.ok v rest : Outcome (List α) ε β)) : rest.length ≤ n := by
  cases h with
  | ok h => exact h

theorem error {rest : List α} (h : Leaves E n (.err e rest : Outcome (List α) ε β)) : E e := by
  cases h with
  | err h => exact h

end Leaves

namespace Reads

theorem pure (v : β) : Reads E (Pure.pure v : Method (List α) ε β) :=
  fun buf => .ok (Nat.le_refl buf.length)

theorem throw (h : E e) : Reads E (MonadExcept.throw e : Method (List α) ε β) :=
  fun _ => .err h

variable {m : Method (List α) ε β}

theorem bind (hm : Reads E m) (hf : ∀ v, Reads E (f v)) : Reads E (m >>= f) :=
  fun buf => (hm buf).bind hf

theorem mapErr {ε' : Type} {E' : ε' → Prop} {f : ε → ε'} (hm : Reads E m)
    (hf : ∀ e, E' (f e)) : Reads E' (m.mapErr f) := by
  intro buf
  have hbuf := hm buf
  unfold Method.mapErr
  generalize m buf = out at hbuf ⊢
  cases hbuf with
  | ok h => exact .ok h
  | err _ => exact .err (hf _)

end Reads

end YlongHttp.Codec
