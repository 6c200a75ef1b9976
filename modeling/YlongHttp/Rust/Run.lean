/-
Runs of calls on one receiver.

`step s c` is the receiver that the call `c` leaves, or none if the call panics. A
run goes on after a call that failed. `Along step P` says that every call of a run
is made in a state where `P` holds, and `run_isSome_iff` turns a condition for one
call into one for a run.
-/

import YlongHttp.Rust.Outcome

namespace YlongHttp.Rust

variable {σ γ : Type}

def run (step : σ → γ → Option σ) : List γ → σ → Option σ
  | [], s => some s
  | c :: cs, s => (step s c).bind (run step cs)

def Along (step : σ → γ → Option σ) (P : σ → γ → Prop) : List γ → σ → Prop
  | [], _ => True
  | c :: cs, s => P s c ∧ ∀ s', step s c = some s' → Along step P cs s'

variable {step : σ → γ → Option σ} {P : σ → γ → Prop} {I : σ → Prop} {s : σ} {c : γ} {cs : List γ} {Q : σ → γ → Prop}

theorem along_cons_of_none (h : step s c = none) : Along step P (c :: cs) s ↔ P s c :=
  ⟨And.left, fun hP => ⟨hP, fun _ hs' => absurd (h.symm.trans hs') (by simp)⟩⟩

theorem along_cons_of_some {mid : σ} (h : step s c = some mid) :
    Along step P (c :: cs) s ↔ P s c ∧ Along step P cs mid := by
  refine and_congr_right fun _ => ⟨fun hrest => hrest mid h, ?_⟩
  rintro hrest s' hs'
  obtain rfl := Option.some.inj (h.symm.trans hs')
  exact hrest

instance decidableAlong [∀ s c, Decidable (P s c)] : ∀ cs s, Decidable (Along step P cs s)
  | [], _ => isTrue trivial
  | c :: cs, s =>
    match h : step s c with
    | none => decidable_of_iff _ (along_cons_of_none h).symm
    | some mid =>
      have := decidableAlong cs mid
      decidable_of_iff _ (along_cons_of_some h).symm

/-- A condition that the calls of a run meet in every state holds along it. -/
theorem along_of_mem : ∀ {cs : List γ}, (∀ c ∈ cs, ∀ s, P s c) → ∀ s : σ, Along step P cs s
  | [], _, _ => trivial
  | c :: _, h, s => ⟨h c List.mem_cons_self s, fun s' _ => along_of_mem (fun c hc => h c (List.mem_cons_of_mem _ hc)) s'⟩

/-- A condition that holds everywhere holds along every run. -/
theorem along_of_forall (h : ∀ s c, P s c) (cs : List γ) (s : σ) : Along step P cs s :=
  along_of_mem (fun c _ s => h s c) s

/-- An invariant that calls with the condition `P` keep holds after a run along `P`. -/
theorem run_invariant_along (hkeep : ∀ {s c s'}, I s → P s c → step s c = some s' → I s') :
    ∀ {cs : List γ} {s s' : σ}, I s → Along step P cs s → run step cs s = some s' → I s' := by
  intro cs
  induction cs with
  | nil =>
    rintro s s' hs _ ⟨⟩
    exact hs
  | cons c cs ih =>
    rintro s s' hs ⟨hP, halong⟩ h
    rw [run, Option.bind_eq_some_iff] at h
    obtain ⟨mid, hstep, hrest⟩ := h
    exact ih (hkeep hs hP hstep) (halong mid hstep) hrest

/-- An invariant of the calls holds after a run. -/
theorem run_invariant (hkeep : ∀ {s c s'}, I s → step s c = some s' → I s') {s' : σ} (hs : I s)
    (h : run step cs s = some s') : I s' :=
  run_invariant_along (P := fun _ _ => True) (fun hs _ => hkeep hs) hs (along_of_forall (fun _ _ => trivial) cs s) h

/-- If `P` says exactly when a call panics, a run has no panic exactly if `P` holds
along it. -/
theorem run_isSome_iff (hkeep : ∀ {s c s'}, I s → step s c = some s' → I s')
    (hstep : ∀ {s c}, I s → (step s c = none ↔ ¬ P s c)) :
    ∀ {cs : List γ} {s : σ}, I s → ((run step cs s).isSome ↔ Along step P cs s) := by
  intro cs
  induction cs with
  | nil =>
    intro s _
    exact ⟨fun _ => trivial, fun _ => rfl⟩
  | cons c cs ih =>
    intro s hs
    rw [run, Along]
    cases hnext : step s c with
    | none =>
      have hnot := (hstep hs).mp hnext
      exact ⟨fun h => absurd h (by simp), fun h => absurd h.1 hnot⟩
    | some s' =>
      have hP : P s c := by
        by_contra hnot
        rw [(hstep hs).mpr hnot] at hnext
        cases hnext
      rw [Option.bind_some, ih (hkeep hs hnext)]
      refine ⟨fun h => ⟨hP, ?_⟩, fun h => h.2 s' rfl⟩
      rintro s'' ⟨⟩
      exact h

/-- Two conditions on calls hold along the same runs if they agree wherever an invariant
holds that calls with the second one keep. -/
theorem along_congr (hkeep : ∀ {s c s'}, I s → Q s c → step s c = some s' → I s')
    (hiff : ∀ {s c}, I s → (P s c ↔ Q s c)) :
    ∀ {cs : List γ} {s : σ}, I s → (Along step P cs s ↔ Along step Q cs s) := by
  intro cs
  induction cs with
  | nil =>
    intro s _
    exact Iff.rfl
  | cons c cs ih =>
    intro s hs
    constructor
    · rintro ⟨hP, hrest⟩
      have hQ := (hiff hs).mp hP
      exact ⟨hQ, fun s' hstep => (ih (hkeep hs hQ hstep)).mp (hrest s' hstep)⟩
    · rintro ⟨hQ, hrest⟩
      exact ⟨(hiff hs).mpr hQ, fun s' hstep => (ih (hkeep hs hQ hstep)).mpr (hrest s' hstep)⟩

/-- If `P` says exactly when a call keeps an invariant, the invariant holds at every point of a
run exactly if `P` holds along it. -/
theorem points_iff (hiff : ∀ {s c s'}, I s → Q s c → step s c = some s' → (I s' ↔ P s c)) :
    ∀ {cs : List γ} {s last : σ}, I s → run step cs s = some last → Along step Q cs s →
      ((∀ done s', done <+: cs → run step done s = some s' → I s') ↔ Along step P cs s) := by
  intro cs
  induction cs with
  | nil =>
    intro s last hs _ _
    refine ⟨fun _ => trivial, ?_⟩
    rintro - done s' hdone h
    rw [List.prefix_nil.mp hdone] at h
    cases h
    exact hs
  | cons c cs ih =>
    intro s last hs hrun halong
    rw [run, Option.bind_eq_some_iff] at hrun
    obtain ⟨mid, hstep, hrest⟩ := hrun
    have hmid := hiff hs halong.1 hstep
    have htail : I mid → _ := fun h => ih h hrest (halong.2 mid hstep)
    constructor
    · intro hpoints
      have hI : I mid := by
        refine hpoints [c] mid ⟨cs, rfl⟩ ?_
        rw [run, hstep]
        rfl
      refine ⟨hmid.mp hI, fun s' hs' => ?_⟩
      obtain rfl := Option.some.inj (hstep.symm.trans hs')
      refine (htail hI).mp fun done s' hdone h => ?_
      refine hpoints (c :: done) s' (List.cons_prefix_cons.mpr ⟨rfl, hdone⟩) ?_
      rw [run, hstep]
      exact h
    · rintro ⟨hP, hQ⟩ done s' hdone h
      cases done with
      | nil =>
        cases h
        exact hs
      | cons d done =>
        obtain ⟨rfl, hrest⟩ := List.cons_prefix_cons.mp hdone
        rw [run, hstep] at h
        exact (htail (hmid.mpr hP)).mpr (hQ mid hstep) done s' hrest h

end YlongHttp.Rust
