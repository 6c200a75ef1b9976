/-
Simulations between methods.

Two outcomes are related if they are of the same kind, give the same value or error,
and leave related receivers. Two methods are in simulation from `R` to `S` if related
receivers give outcomes that are related by `S`.
-/

import YlongHttp.Rust.Outcome

namespace YlongHttp.Rust

variable {σ τ ε α β : Type}

inductive Outcome.Related (R : σ → τ → Prop) : Outcome σ ε α → Outcome τ ε α → Prop where
  | ok (a : α) {s : σ} {t : τ} (h : R s t) : Related R (.ok a s) (.ok a t)
  | err (e : ε) {s : σ} {t : τ} (h : R s t) : Related R (.err e s) (.err e t)
  | panic : Related R .panic .panic

variable {a : α} {e : ε}

namespace Outcome.Related

variable {R S : σ → τ → Prop} {x : Outcome σ ε α} {y : Outcome τ ε α}

theorem bind {f : α → σ → Outcome σ ε β} {g : α → τ → Outcome τ ε β} (h : Related R x y)
    (hsub : ∀ {s t}, R s t → S s t) (hnext : ∀ a s t, R s t → Related S (f a s) (g a t)) :
    Related S (x.bind f) (y.bind g) := by
  cases h with
  | ok a h => exact hnext a _ _ h
  | err e h => exact .err e (hsub h)
  | panic => exact .panic

theorem mapState_right {υ : Type} {f : τ → υ} {T : σ → υ → Prop} (hsub : ∀ {s t}, R s t → T s (f t))
    (h : Related R x y) : Related T x (y.mapState f) := by
  cases h with
  | ok a h => exact .ok a (hsub h)
  | err e h => exact .err e (hsub h)
  | panic => exact .panic

/-- Outcomes related by a function are equal up to it. -/
theorem mapState_eq {f : σ → τ} (hsub : ∀ {s t}, R s t → f s = t) (h : Related R x y) : x.mapState f = y := by
  cases h with
  | ok a h => rw [mapState_ok, hsub h]
  | err e h => rw [mapState_err, hsub h]
  | panic => rfl

theorem eq_ok (h : Related R x y) {s : σ} (hx : x = .ok a s) : ∃ t, y = .ok a t ∧ R s t := by
  subst hx
  cases h with
  | ok a h => exact ⟨_, rfl, h⟩

theorem of_eq_ok (h : Related R x y) {t : τ} (hy : y = .ok a t) : ∃ s, x = .ok a s ∧ R s t := by
  subst hy
  cases h with
  | ok a h => exact ⟨_, rfl, h⟩

theorem of_eq_err (h : Related R x y) {t : τ} (hy : y = .err e t) : ∃ s, x = .err e s ∧ R s t := by
  subst hy
  cases h with
  | err e h => exact ⟨_, rfl, h⟩

end Outcome.Related

def Sim (R S : σ → τ → Prop) (m : Method σ ε α) (m' : Method τ ε α) : Prop :=
  ∀ s t, R s t → Outcome.Related S (m s) (m' t)

namespace Sim

variable {R S : σ → τ → Prop}

theorem pure (hsub : ∀ {s t}, R s t → S s t) (a : α) :
    Sim R S (Pure.pure a : Method σ ε α) (Pure.pure a : Method τ ε α) :=
  fun _ _ h => .ok a (hsub h)

theorem throw (hsub : ∀ {s t}, R s t → S s t) (e : ε) :
    Sim R S (MonadExcept.throw e : Method σ ε α) (MonadExcept.throw e : Method τ ε α) :=
  fun _ _ h => .err e (hsub h)

theorem panicked : Sim R S (Method.panicked : Method σ ε α) (Method.panicked : Method τ ε α) :=
  fun _ _ _ => .panic

variable {T : σ → τ → Prop} {m : Method σ ε α} {m' : Method τ ε α} {f : α → Method σ ε β} {c : Prop}

theorem bind {f' : α → Method τ ε β} (hm : Sim R S m m') (hsub : ∀ {s t}, S s t → T s t)
    (hf : ∀ a, Sim S T (f a) (f' a)) : Sim R T (m >>= f) (m' >>= f') :=
  fun s t h => (hm s t h).bind hsub fun a s t h => hf a s t h

theorem bind_pure (hm : Sim R S m m') (f : α → β) :
    Sim R S (m >>= fun a => Pure.pure (f a)) (m' >>= fun a => Pure.pure (f a)) :=
  hm.bind id fun _ => .pure id _

/-- A first call that only returns a value is left out. -/
theorem bind_left {m' : Method τ ε β}
    (hm : ∀ s t, R s t → m s = .ok a s) (hf : Sim R S (f a) m') : Sim R S (m >>= f) m' := by
  intro s t h
  rw [Method.bind_apply, hm s t h]
  exact hf s t h

/-- Methods that look at their receivers first. -/
theorem get_bind {f : σ → Method σ ε α} {g : τ → Method τ ε α}
    (h : ∀ s t, R s t → Sim R S (f s) (g t)) : Sim R S (get >>= f) (get >>= g) :=
  fun s t hr => h s t hr s t hr

theorem ite [Decidable c] {n : Method σ ε α} {n' : Method τ ε α}
    (hthen : Sim R S m m') (helse : Sim R S n n') : Sim R S (if c then m else n) (if c then m' else n') := by
  split
  · exact hthen
  · exact helse

section

variable (hsub : ∀ {s t}, R s t → S s t)

include hsub

/-- A check that fails, or goes on. -/
theorem check [Decidable c] {k : Unit → Method σ ε α} {k' : Unit → Method τ ε α} (hk : Sim R S (k ()) (k' ())) :
    Sim R S (if c then MonadExcept.throw e >>= k else k ()) (if c then MonadExcept.throw e >>= k' else k' ()) :=
  ite (fun _ _ h => .err e (hsub h)) hk

theorem index (xs : List α) (i : Nat) :
    Sim R S (Rust.index xs i : Method σ ε α) (Rust.index xs i : Method τ ε α) := by
  unfold Rust.index
  cases xs[i]? with
  | none => exact panicked
  | some x => exact pure hsub x

theorem slice (xs : List α) (start stop : Nat) :
    Sim R S (Rust.slice xs start stop : Method σ ε (List α)) (Rust.slice xs start stop) :=
  ite (pure hsub _) panicked

theorem sliceTo (xs : List α) (n : Nat) : Sim R S (Rust.sliceTo xs n : Method σ ε (List α)) (Rust.sliceTo xs n) :=
  ite (pure hsub _) panicked

theorem sliceFrom (xs : List α) (n : Nat) :
    Sim R S (Rust.sliceFrom xs n : Method σ ε (List α)) (Rust.sliceFrom xs n) :=
  ite (pure hsub _) panicked

theorem checkedSub (a b : Nat) : Sim R S (Rust.checkedSub a b : Method σ ε Nat) (Rust.checkedSub a b) :=
  ite (pure hsub _) panicked

end

end Sim

end YlongHttp.Rust
