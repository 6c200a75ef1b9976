/-
Tables packed into one number.

A list of words of `w` bits is packed into a single natural number and read back
by a shift. The kernel computes on such numbers directly, so a check that looks
a table up thousands of times is cheap. `digit_pack` is the link to the list.
-/

import Mathlib

namespace YlongHttp.Codec

def pack (w : Nat) : List Nat → Nat
  | [] => 0
  | x :: xs => x + 2 ^ w * pack w xs

def digit (w packed i : Nat) : Nat := (packed >>> (w * i)) % 2 ^ w

theorem digit_pack {w : Nat} {xs : List Nat} (h : ∀ x ∈ xs, x < 2 ^ w) (i : Nat) :
    digit w (pack w xs) i = xs.getD i 0 := by
  induction xs generalizing i with
  | nil => simp [digit, pack]
  | cons x xs ih =>
    have hx : x < 2 ^ w := h x (by simp)
    have hxs : ∀ y ∈ xs, y < 2 ^ w := fun y hy => h y (by simp [hy])
    cases i with
    | zero =>
      rw [digit, mul_zero, Nat.shiftRight_zero, pack, Nat.add_mul_mod_self_left, Nat.mod_eq_of_lt hx]
      rfl
    | succ i =>
      have drop : (x + 2 ^ w * pack w xs) >>> w = pack w xs := by
        rw [Nat.shiftRight_eq_div_pow, Nat.add_mul_div_left _ _ (Nat.two_pow_pos w), Nat.div_eq_of_lt hx, zero_add]
      rw [digit, pack, Nat.mul_succ, add_comm (w * i), Nat.shiftRight_add, drop]
      simpa [digit] using ih hxs i

/-- The set of the members of a list as a bit mask. -/
def memberMask (xs : List Nat) : Nat := xs.foldl (fun m x => m ||| 2 ^ x) 0

theorem testBit_memberMask {xs : List Nat} {i : Nat} : (memberMask xs).testBit i = true ↔ i ∈ xs := by
  suffices h : ∀ m, (xs.foldl (fun m x => m ||| 2 ^ x) m).testBit i = true ↔ m.testBit i = true ∨ i ∈ xs by
    simpa [memberMask] using h 0
  induction xs with
  | nil => simp
  | cons x xs ih =>
    intro m
    rw [List.foldl_cons, ih, Nat.testBit_or, Nat.testBit_two_pow, Bool.or_eq_true,
      decide_eq_true_eq, List.mem_cons, or_assoc, eq_comm (a := x)]

end YlongHttp.Codec
