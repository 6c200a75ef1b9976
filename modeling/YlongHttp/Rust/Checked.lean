/-
Arithmetic on `i32`.

The values of an `i32` are integers within its bounds. An operation whose result leaves the
bounds panics. `i32` is the result of such an operation in a method that tells the panics
apart by the failure they are given.
-/

import YlongHttp.Rust.Keeps

namespace YlongHttp.Rust

def InI32 (n : Int) : Prop := -2 ^ 31 ≤ n ∧ n < 2 ^ 31

instance (n : Int) : Decidable (InI32 n) := inferInstanceAs (Decidable (_ ∧ _))

/-- `n as i32` for an `n` of type `u32`. -/
def asI32 (n : Nat) : Int := if n < 2 ^ 31 then n else n - 2 ^ 32

/-- `n as u32` for an `n` of type `i32`. -/
def asU32 (n : Int) : Nat := if n < 0 then (n + 2 ^ 32).toNat else n.toNat

theorem asI32_of_lt {n : Nat} (h : n < 2 ^ 31) : asI32 n = n := if_pos h

theorem asU32_of_nonneg {n : Int} (h : 0 ≤ n) : asU32 n = n.toNat := if_neg (Int.not_lt.mpr h)

variable {σ ε : Type}

/-- An `i32` operation with the mathematical result `n`. -/
def i32 (overflow : ε) (n : Int) : Method σ ε Int := if InI32 n then pure n else throw overflow

variable {overflow : ε}

theorem i32_eq_ok {n : Int} (h : InI32 n) (s : σ) : i32 overflow n s = .ok n s := by
  rw [i32, if_pos h]
  rfl

theorem i32_eq_err {n : Int} (h : ¬ InI32 n) (s : σ) : i32 overflow n s = .err overflow s := by
  rw [i32, if_neg h]
  rfl

theorem keeps_i32 {R : σ → σ → Prop} [IsPreorder σ R] {E : ε → Prop} (h : E overflow) (n : Int) :
    Keeps R E (i32 overflow n) :=
  .ite (.pure n) (.throw h)

end YlongHttp.Rust
