/-
Methods that keep a relation.

`Keeps R E m` says that the receiver a call of `m` leaves, whether it returns or fails, is related
by `R` to the one it was called on, and that it fails only with errors in `E`. For a preorder `R`
this is kept by sequences and loops, so that what a large method leaves alone is known from what
its smallest parts do.
-/

import YlongHttp.Rust.Triple

namespace YlongHttp.Rust

variable {σ τ ε α β : Type} {R : σ → σ → Prop} {E : ε → Prop}

def Keeps (R : σ → σ → Prop) (E : ε → Prop) (m : Method σ ε α) : Prop :=
  ∀ s, (m s).Ends (fun _ s' => R s s') (fun e s' => E e ∧ R s s')

/-- A method that keeps a relation, whatever its errors are. -/
abbrev Stays (R : σ → σ → Prop) (m : Method σ ε α) : Prop := Keeps R (fun _ => True) m

/-- Nothing is kept: only the errors of a method are told. -/
def Unrelated (_ _ : σ) : Prop := True

instance : IsPreorder σ Unrelated where
  refl _ := trivial
  trans _ _ _ _ _ := trivial

namespace Keeps

variable {m : Method σ ε α}

theorem of_ok (h : Keeps R E m) {a : α} {s s' : σ} (hm : m s = .ok a s') : R s s' :=
  (h s).of_ok hm

theorem mono {S : σ → σ → Prop} {F : ε → Prop} (h : Keeps R E m) (hsub : ∀ s s', R s s' → S s s')
    (herror : ∀ e, E e → F e) : Keeps S F m := by
  intro s
  exact (h s).mono (fun _ s' => hsub s s') fun e s' ⟨he, hs'⟩ => ⟨herror e he, hsub s s' hs'⟩

theorem modify {f : σ → σ} (h : ∀ s, R s (f s)) : Keeps R E (modify f : Method σ ε PUnit) :=
  fun s => .ok (h s)

/-- A method of a component keeps what the component keeps. -/
theorem onField {proj : τ → σ} {inject : σ → τ → τ} {S : τ → τ → Prop} (h : Keeps R E m)
    (hinject : ∀ s t, R (proj t) s → S t (inject s t)) : Keeps S E (Method.onField proj inject m) := by
  intro t
  exact (h (proj t)).mapState (fun _ s => hinject s t) fun _ s ⟨he, hs⟩ => ⟨he, hinject s t hs⟩

section Preorder

variable [IsPreorder σ R]

theorem pure (a : α) : Keeps R E (pure a : Method σ ε α) := fun s => .ok (Std.Refl.refl s)

theorem throw {e : ε} (h : E e) : Keeps R E (throw e : Method σ ε α) := fun s => .err ⟨h, Std.Refl.refl s⟩

/-- A method on a receiver that is already related to the one before. -/
theorem after {s mid : σ} (h : R s mid) (hm : Keeps R E m) :
    (m mid).Ends (fun _ s' => R s s') (fun e s' => E e ∧ R s s') :=
  (hm mid).mono (fun _ _ h' => IsTrans.trans _ _ _ h h') fun _ _ ⟨he, h'⟩ => ⟨he, IsTrans.trans _ _ _ h h'⟩

/-- What is related to a fixed receiver stays so. -/
theorem triple (h : Keeps R E m) (s₀ : σ) : Triple (R s₀) m (fun _ => R s₀) (fun e s => E e ∧ R s₀ s) :=
  fun _ hs => after hs h

theorem bind {f : α → Method σ ε β} (hm : Keeps R E m) (hf : ∀ a, Keeps R E (f a)) : Keeps R E (m >>= f) := by
  intro s
  exact (hm s).bind fun a _ h => after h (hf a)

/-- A sequence whose second method depends on what is known of the first value. -/
theorem bind_value {f : α → Method σ ε β} {V : α → Prop} (hm : Keeps R E m)
    (hvalue : Triple (fun _ => True) m (fun a _ => V a) (fun _ _ => True)) (hf : ∀ a, V a → Keeps R E (f a)) :
    Keeps R E (m >>= f) := by
  intro s
  have hends := hm s
  have hV := hvalue s trivial
  rw [Method.bind_apply]
  generalize m s = out at hends hV ⊢
  cases hends with
  | ok h => exact after h (hf _ (hV.of_ok rfl))
  | err h => exact .err h
  | panic => exact .panic

theorem of_triple {m : Method σ ε α} (h : ∀ s₀, Triple (R s₀) m (fun _ => R s₀) (fun e s => E e ∧ R s₀ s)) :
    Keeps R E m :=
  fun s => h s s (Std.Refl.refl s)

/-- A method that looks at its receiver first. -/
theorem get_bind {f : σ → Method σ ε α} (hf : ∀ s, Keeps R E (f s)) : Keeps R E (get >>= f) :=
  fun s => hf s s

theorem ite {c : Prop} [Decidable c] {m' : Method σ ε α} (hpos : Keeps R E m) (hneg : Keeps R E m') :
    Keeps R E (if c then m else m') := by
  split
  · exact hpos
  · exact hneg

theorem forM {f : α → Method σ ε PUnit} (hf : ∀ a, Keeps R E (f a)) : ∀ as : List α, Keeps R E (as.forM f)
  | [] => pure _
  | a :: as => bind (hf a) fun _ => forM hf as

end Preorder

end Keeps

end YlongHttp.Rust
