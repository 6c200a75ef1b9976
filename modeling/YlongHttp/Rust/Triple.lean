/-
Pre- and postconditions of methods.

A triple has two postconditions, one for a method that returns and one for a method that
fails: the receiver that a failed call leaves is used further. Nothing is said about a
panic.
-/

import YlongHttp.Rust.Outcome

namespace YlongHttp.Rust

variable {σ τ ε α β : Type}

/-- How a call ends, if it does not panic. -/
inductive Outcome.Ends (Q : α → σ → Prop) (E : ε → σ → Prop) : Outcome σ ε α → Prop where
  | ok {a : α} {s : σ} (h : Q a s) : Ends Q E (.ok a s)
  | err {e : ε} {s : σ} (h : E e s) : Ends Q E (.err e s)
  | panic : Ends Q E .panic

variable {a : α} {e : ε} {R : β → σ → Prop}

namespace Outcome.Ends

variable {Q : α → σ → Prop} {E : ε → σ → Prop} {x : Outcome σ ε α} {s : σ} {f : α → σ → Outcome σ ε β}

section

variable (h : Ends Q E x)

include h

theorem of_ok (hx : x = .ok a s) : Q a s := by
  subst hx
  cases h with
  | ok h => exact h

theorem of_err (hx : x = .err e s) : E e s := by
  subst hx
  cases h with
  | err h => exact h

theorem mono {Q' : α → σ → Prop} {E' : ε → σ → Prop}
    (hQ : ∀ a s, Q a s → Q' a s) (hE : ∀ e s, E e s → E' e s) : Ends Q' E' x := by
  cases h with
  | ok h => exact .ok (hQ _ _ h)
  | err h => exact .err (hE _ _ h)
  | panic => exact .panic

theorem mapState {f : σ → τ} {Q' : α → τ → Prop} {E' : ε → τ → Prop}
    (hQ : ∀ a s, Q a s → Q' a (f s)) (hE : ∀ e s, E e s → E' e (f s)) : Ends Q' E' (x.mapState f) := by
  cases h with
  | ok h => exact .ok (hQ _ _ h)
  | err h => exact .err (hE _ _ h)
  | panic => exact .panic

theorem bind (hf : ∀ a s, Q a s → Ends R E (f a s)) : Ends R E (x.bind f) := by
  cases h with
  | ok h => exact hf _ _ h
  | err h => exact .err h
  | panic => exact .panic

end

end Outcome.Ends

def Triple (P : σ → Prop) (m : Method σ ε α) (Q : α → σ → Prop) (E : ε → σ → Prop) : Prop :=
  ∀ s, P s → (m s).Ends Q E

namespace Triple

variable {P : σ → Prop} {Q : α → σ → Prop} {E : ε → σ → Prop} {m : Method σ ε α}

/-- Nothing is asked of a method. -/
theorem any (m : Method σ ε α) : Triple P m (fun _ _ => True) (fun _ _ => True) := by
  intro s _
  cases m s with
  | ok a s' => exact .ok trivial
  | err e s' => exact .err trivial
  | panic => exact .panic

theorem pure (h : ∀ s, P s → Q a s) : Triple P (pure a : Method σ ε α) Q E :=
  fun s hs => .ok (h s hs)

theorem throw (h : ∀ s, P s → E e s) : Triple P (throw e : Method σ ε α) Q E :=
  fun s hs => .err (h s hs)

theorem panicked : Triple P (Method.panicked : Method σ ε α) Q E := fun _ _ => .panic

theorem modify {f : σ → σ} {R : PUnit → σ → Prop} (h : ∀ s, P s → R ⟨⟩ (f s)) :
    Triple P (modify f : Method σ ε PUnit) R E :=
  fun s hs => .ok (h s hs)

/-- The rule of sequence. -/
theorem bind {f : α → Method σ ε β} (hm : Triple P m Q E)
    (hf : ∀ a, Triple (Q a) (f a) R E) : Triple P (m >>= f) R E := by
  intro s hs
  exact (hm s hs).bind hf

/-- A method that looks at its receiver first. -/
theorem get_bind {f : σ → Method σ ε β} (hf : ∀ s, P s → Triple P (f s) R E) : Triple P (MonadState.get >>= f) R E :=
  fun s hs => hf s hs s hs

theorem ite {c : Prop} [Decidable c] {m' : Method σ ε α} (hpos : c → Triple P m Q E)
    (hneg : ¬ c → Triple P m' Q E) : Triple P (if c then m else m') Q E := by
  split
  next hc => exact hpos hc
  next hc => exact hneg hc

variable {proj : τ → σ} {inject : σ → τ → τ}

/-- A method of a component keeps what does not depend on the component. -/
theorem onField {P : τ → Prop} {E : ε → τ → Prop}
    (hinject : ∀ s t, P t → P (inject s t)) (hfail : ∀ e t, P t → E e t) :
    Triple P (Method.onField proj inject m) (fun _ => P) E := by
  intro t ht
  have hany : Triple (fun _ => True) m (fun _ _ => True) (fun _ _ => True) := any m
  exact (hany (proj t) trivial).mapState (fun _ s _ => hinject s t ht)
    (fun e s _ => hfail e _ (hinject s t ht))

/-- What is known of the value that a method of a component returns. -/
theorem onField_value {P : τ → Prop} {V : α → Prop}
    (h : Triple (fun _ => True) m (fun a _ => V a) (fun _ _ => True)) :
    Triple P (Method.onField proj inject m) (fun a _ => V a) (fun _ _ => True) :=
  fun t _ => (h (proj t) trivial).mapState (fun _ _ h => h) (fun _ _ h => h)

end Triple

end YlongHttp.Rust
