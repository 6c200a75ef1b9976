/-
Outcomes of method calls.

A call on a mutable receiver of type `σ` returns a value, fails with an error,
or panics. A failed call keeps the mutations made before the failure, because a
caller that goes on using the receiver sees them; a panic leaves no receiver.

`Method` is the state-passing monad over these outcomes. Indexing, slicing and
unsigned subtraction are partial: `index`, `slice` and `checkedSub` panic where
an out-of-range index or an underflow would. A loop that runs out of the fuel of
its model panics as well, so that a proof that a call does not panic also shows
that its fuel suffices.
-/

import Mathlib

namespace YlongHttp.Rust

inductive Outcome (σ ε α : Type) where
  | ok (value : α) (state : σ)
  | err (error : ε) (state : σ)
  | panic
deriving DecidableEq, Repr

/-- A method of a receiver `σ` that returns `α` or fails with `ε`. -/
def Method (σ ε α : Type) := σ → Outcome σ ε α

namespace Outcome

variable {σ ε α β : Type}

def bind (x : Outcome σ ε α) (f : α → σ → Outcome σ ε β) : Outcome σ ε β :=
  match x with
  | .ok a s => f a s
  | .err e s => .err e s
  | .panic => .panic

@[simp] theorem bind_ok (a : α) (s : σ) (f : α → σ → Outcome σ ε β) : (Outcome.ok a s).bind f = f a s := rfl

@[simp] theorem bind_err (e : ε) (s : σ) (f : α → σ → Outcome σ ε β) : (Outcome.err e s).bind f = .err e s := rfl

@[simp] theorem bind_panic (f : α → σ → Outcome σ ε β) : (Outcome.panic : Outcome σ ε α).bind f = .panic := rfl

theorem bind_bind {γ : Type} (x : Outcome σ ε α) (f : α → σ → Outcome σ ε β) (g : β → σ → Outcome σ ε γ) :
    (x.bind f).bind g = x.bind fun a s => (f a s).bind g := by
  cases x <;> rfl

variable {x : Outcome σ ε α} {τ : Type} {f : α → σ → Outcome σ ε β} {b : β}

/-- A successful sequence succeeded at its first call. -/
theorem bind_eq_ok {s' : σ} : x.bind f = .ok b s' ↔ ∃ a s, x = .ok a s ∧ f a s = .ok b s' := by
  cases x <;> simp [Outcome.bind]

/-- A sequence panics at its first call or after it. -/
theorem bind_eq_panic : x.bind f = .panic ↔ x = .panic ∨ ∃ a s, x = .ok a s ∧ f a s = .panic := by
  cases x <;> simp [Outcome.bind]

/-- The outcome seen by a caller that knows the receiver only through `f`. -/
def mapState {τ : Type} (f : σ → τ) : Outcome σ ε α → Outcome τ ε α
  | .ok a s => .ok a (f s)
  | .err e s => .err e (f s)
  | .panic => .panic

@[simp] theorem mapState_ok (f : σ → τ) (a : α) (s : σ) :
    (Outcome.ok a s : Outcome σ ε α).mapState f = .ok a (f s) := rfl

@[simp] theorem mapState_err (f : σ → τ) (e : ε) (s : σ) :
    (Outcome.err e s : Outcome σ ε α).mapState f = .err e (f s) := rfl

@[simp] theorem mapState_panic (f : σ → τ) : (Outcome.panic : Outcome σ ε α).mapState f = .panic := rfl

theorem mapState_mapState {υ : Type} (f : σ → τ) (g : τ → υ) (x : Outcome σ ε α) :
    (x.mapState f).mapState g = x.mapState fun s => g (f s) := by
  cases x <;> rfl

theorem mapState_eq_panic {f : σ → τ} : x.mapState f = .panic ↔ x = .panic := by
  cases x <;> simp

/-- The receiver a call leaves behind, if it leaves one. -/
def state? : Outcome σ ε α → Option σ
  | .ok _ s => some s
  | .err _ s => some s
  | .panic => none

/-- The call returned a value. -/
def isOk : Outcome σ ε α → Bool
  | .ok _ _ => true
  | _ => false

/-- What a call that returned leaves, as far as `f` shows it. -/
def value? (f : α → σ → β) : Outcome σ ε α → Option β
  | .ok a s => some (f a s)
  | _ => none

def error? : Outcome σ ε α → Option ε
  | .err e _ => some e
  | _ => none

theorem value?_eq_some {f : α → σ → β} : x.value? f = some b ↔ ∃ a s, x = .ok a s ∧ f a s = b := by
  cases x <;> simp [value?]

theorem error?_eq_some {e : ε} : x.error? = some e ↔ ∃ s, x = .err e s := by
  cases x <;> simp [error?]

theorem state?_eq_none : x.state? = none ↔ x = .panic := by
  cases x <;> simp [state?]

end Outcome

namespace Method

variable {σ τ ε α β : Type}

instance : Monad (Method σ ε) where
  pure a := fun s => .ok a s
  bind x f := fun s => (x s).bind f

instance : MonadStateOf σ (Method σ ε) where
  get := fun s => .ok s s
  set s := fun _ => .ok () s
  modifyGet f := fun s => .ok (f s).1 (f s).2

instance : MonadExceptOf ε (Method σ ε) where
  throw e := fun s => .err e s
  tryCatch x handle := fun s =>
    match x s with
    | .err e s' => handle e s'
    | out => out

/-- The Rust `panic!`: the caller gets nothing back. -/
def panicked : Method σ ε α := fun _ => .panic

/-- The operator `?` on a result that does not depend on the receiver. -/
def ofExcept : Except ε α → Method σ ε α
  | .ok a => fun s => .ok a s
  | .error e => fun s => .err e s

/-- Run a method of a component of the receiver. -/
def onField (proj : τ → σ) (inject : σ → τ → τ) (m : Method σ ε α) : Method τ ε α := fun t =>
  (m (proj t)).mapState (inject · t)

/-- `map_err`. -/
def mapErr {ε' : Type} (f : ε → ε') (m : Method σ ε α) : Method σ ε' α := fun s =>
  match m s with
  | .ok a s' => .ok a s'
  | .err e s' => .err (f e) s'
  | .panic => .panic

/-! ### Evaluation -/

variable (a : α) (s : σ)

@[simp] theorem pure_apply : (pure a : Method σ ε α) s = .ok a s := rfl

@[simp] theorem bind_apply (x : Method σ ε α) (f : α → Method σ ε β) (s : σ) :
    (x >>= f) s = (x s).bind fun a s' => f a s' := rfl

theorem bind_bind {γ : Type} (x : Method σ ε α) (f : α → Method σ ε β) (g : β → Method σ ε γ) :
    (x >>= f >>= g) = x >>= fun a => f a >>= g :=
  funext fun s => Outcome.bind_bind (x s) _ _

@[simp] theorem map_apply (f : α → β) (x : Method σ ε α) (s : σ) :
    (f <$> x) s = (x s).bind fun a s => .ok (f a) s := rfl

@[simp] theorem get_apply : (get : Method σ ε σ) s = .ok s s := rfl

@[simp] theorem set_apply (t s : σ) : (set t : Method σ ε PUnit) s = .ok () t := rfl

@[simp] theorem modify_apply (f : σ → σ) (s : σ) : (modify f : Method σ ε PUnit) s = .ok () (f s) := rfl

theorem get_bind (f : σ → Method σ ε α) (s : σ) : (get >>= f) s = f s s := rfl

theorem modify_bind (g : σ → σ) (f : PUnit → Method σ ε α) (s : σ) : (modify g >>= f) s = f () (g s) := rfl

@[simp] theorem throw_apply (e : ε) (s : σ) : (throw e : Method σ ε α) s = .err e s := rfl

@[simp] theorem ofExcept_ok : (ofExcept (.ok a) : Method σ ε α) s = .ok a s := rfl

@[simp] theorem panicked_apply : (panicked : Method σ ε α) s = .panic := rfl

@[simp] theorem ite_apply (c : Prop) [Decidable c] (x y : Method σ ε α) (s : σ) :
    (if c then x else y) s = if c then x s else y s := by
  split <;> rfl

end Method

/-! ### Partial operations -/

section Partial

variable {σ ε α : Type}

/-- `xs[i]`. -/
def index (xs : List α) (i : Nat) : Method σ ε α :=
  match xs[i]? with
  | some x => pure x
  | none => Method.panicked

/-- `&xs[start..stop]`. -/
def slice (xs : List α) (start stop : Nat) : Method σ ε (List α) :=
  if start ≤ stop ∧ stop ≤ xs.length then pure ((xs.take stop).drop start) else Method.panicked

/-- `&xs[..n]`. -/
def sliceTo (xs : List α) (n : Nat) : Method σ ε (List α) :=
  if n ≤ xs.length then pure (xs.take n) else Method.panicked

/-- `&xs[n..]`. -/
def sliceFrom (xs : List α) (n : Nat) : Method σ ε (List α) :=
  if n ≤ xs.length then pure (xs.drop n) else Method.panicked

/-- `a - b` on an unsigned type. -/
def checkedSub (a b : Nat) : Method σ ε Nat :=
  if b ≤ a then pure (a - b) else Method.panicked

variable {xs : List α} {n : Nat}

theorem slice_eq_ok {start stop : Nat} (h : start ≤ stop) (h' : stop ≤ xs.length)
    (s : σ) : (slice xs start stop : Method σ ε (List α)) s = .ok ((xs.take stop).drop start) s := by
  simp [slice, h, h']

theorem sliceTo_eq_ok (h : n ≤ xs.length) (s : σ) : (sliceTo xs n : Method σ ε (List α)) s = .ok (xs.take n) s := by
  simp [sliceTo, h]

theorem sliceFrom_eq_ok (h : n ≤ xs.length) (s : σ) : (sliceFrom xs n : Method σ ε (List α)) s = .ok (xs.drop n) s := by
  simp [sliceFrom, h]

theorem checkedSub_eq_ok {a b : Nat} (h : b ≤ a) (s : σ) : (checkedSub a b : Method σ ε Nat) s = .ok (a - b) s := by
  simp [checkedSub, h]

end Partial

end YlongHttp.Rust
