/-
Scanners that take one byte at a time.

A step of a scanner takes a byte and goes on, is done, or fails. A scanner does not know
how its input was cut (`scan_append`), so a decoder that takes segments does not depend on
the cut either, as far as every call does what a scanner does with the bytes of the
segment: `Agrees` says so for one call and `agrees_feed` for the calls with one segment
after the other.
-/

import YlongHttp.Rust.Run

namespace YlongHttp.Codec

open Rust List

variable {S σ ε α : Type}

inductive Verdict (S ε α : Type) where
  | more (s : S)
  | done (a : α)
  | fail (e : ε)
deriving DecidableEq, Repr

/-- What a scanner has made of an input, with the bytes that it has not looked at. -/
inductive Scan (S ε α : Type) where
  | more (s : S)
  | done (a : α) (rest : List UInt8)
  | fail (e : ε)
deriving DecidableEq, Repr

def scan (step : S → UInt8 → Verdict S ε α) : S → List UInt8 → Scan S ε α
  | s, [] => .more s
  | s, b :: bytes =>
    match step s b with
    | .more s' => scan step s' bytes
    | .done a => .done a bytes
    | .fail e => .fail e

/-- What follows the verdict on a byte. -/
def Verdict.resume (step : S → UInt8 → Verdict S ε α) (v : Verdict S ε α) (bytes : List UInt8) : Scan S ε α :=
  match v with
  | .more s => scan step s bytes
  | .done a => .done a bytes
  | .fail e => .fail e

/-- Go on with further bytes. -/
def Scan.resume (step : S → UInt8 → Verdict S ε α) (x : Scan S ε α) (bytes : List UInt8) : Scan S ε α :=
  match x with
  | .more s => scan step s bytes
  | .done a rest => .done a (rest ++ bytes)
  | .fail e => .fail e

section Steps

variable {step : S → UInt8 → Verdict S ε α} {s s' : S} {b : UInt8}

@[simp] theorem scan_nil (s : S) : scan step s [] = .more s := rfl

theorem scan_cons (s : S) (b : UInt8) (bytes : List UInt8) :
    scan step s (b :: bytes) = (step s b).resume step bytes := rfl

theorem scan_more (h : step s b = .more s') (bytes : List UInt8) : scan step s (b :: bytes) = scan step s' bytes := by
  rw [scan, h]

theorem scan_done {a : α} (h : step s b = .done a) (bytes : List UInt8) : scan step s (b :: bytes) = .done a bytes := by
  rw [scan, h]

theorem scan_fail {e : ε} (h : step s b = .fail e) (bytes : List UInt8) : scan step s (b :: bytes) = .fail e := by
  rw [scan, h]

/-- States that treat the next byte alike scan alike. -/
theorem scan_congr (h : step s b = step s' b) (bytes : List UInt8) :
    scan step s (b :: bytes) = scan step s' (b :: bytes) := by
  rw [scan, scan, h]

/-- An input may be cut. -/
theorem scan_append (front back : List UInt8) : scan step s (front ++ back) = (scan step s front).resume step back := by
  induction front generalizing s with
  | nil => rfl
  | cons b front ih =>
    rw [cons_append, scan, scan]
    cases step s b with
    | more s' => exact ih
    | done | fail => rfl

/-- What the steps keep holds after an input. -/
theorem scan_invariant {P : S → Prop} (hkeep : ∀ {s b s'}, P s → step s b = .more s' → P s') :
    ∀ {bytes : List UInt8} {s s' : S}, P s → scan step s bytes = .more s' → P s' := by
  intro bytes
  induction bytes with
  | nil =>
    rintro s s' hs ⟨⟩
    exact hs
  | cons b bytes ih =>
    intro s s' hs h
    rw [scan_cons] at h
    cases hstep : step s b with
    | more mid =>
      rw [hstep] at h
      exact ih (hkeep hs hstep) h
    | done | fail =>
      rw [hstep] at h
      cases h

/-- Bytes that only take a scanner from one state of a family to another. -/
theorem scan_run (τ : List UInt8 → S) {P : UInt8 → Prop}
    (h : ∀ tok b, P b → step (τ tok) b = .more (τ (tok ++ [b]))) {bytes : List UInt8}
    (hbytes : ∀ b ∈ bytes, P b) (tok rest : List UInt8) :
    scan step (τ tok) (bytes ++ rest) = scan step (τ (tok ++ bytes)) rest := by
  induction bytes generalizing tok with
  | nil => rw [nil_append, append_nil]
  | cons b bytes ih =>
    rw [cons_append, scan_more (h tok b (hbytes b (mem_cons_self ..))),
      ih fun c hc => hbytes c (mem_cons_of_mem _ hc), append_assoc]
    rfl

end Steps

/-! ### Decoders of segments -/

/-- A call with a segment, which returns what was decoded and the rest of the segment, did
what a scanner does. -/
inductive Agrees (Rep : σ → S → Prop) : Outcome σ ε (Option (α × List UInt8)) → Scan S ε α → Prop where
  | more {d : σ} {s : S} (h : Rep d s) : Agrees Rep (.ok none d) (.more s)
  | done {d : σ} (a : α) (rest : List UInt8) : Agrees Rep (.ok (some (a, rest)) d) (.done a rest)
  | fail {d : σ} (e : ε) : Agrees Rep (.err e d) (.fail e)

/-- Calls that agree with the same scan have the same outcome, apart from the receiver. -/
theorem Agrees.same {Rep : σ → S → Prop} {x y : Outcome σ ε (Option (α × List UInt8))}
    {t : Scan S ε α} (hx : Agrees Rep x t) (hy : Agrees Rep y t) :
    x.mapState (fun _ => ()) = y.mapState fun _ => () := by
  cases hx <;> cases hy <;> rfl

/-- One call for each segment until something was decoded. The segments that are not taken
any more belong to the rest. -/
def feed (decode : List UInt8 → Method σ ε (Option (α × List UInt8))) :
    List (List UInt8) → Method σ ε (Option (α × List UInt8))
  | [] => return none
  | segment :: segments => do
    match ← decode segment with
    | none => feed decode segments
    | some (a, rest) => return some (a, rest ++ segments.flatten)

/-- The receiver that a call leaves, as long as nothing was decoded. -/
def undecided (decode : List UInt8 → Method σ ε (Option (α × List UInt8))) (d : σ) (segment : List UInt8) : Option σ :=
  match decode segment d with
  | .ok none d' => some d'
  | _ => none

/-- If every call that is `Safe` does what the scanner does, so do calls with one segment
after the other. -/
theorem agrees_feed {decode : List UInt8 → Method σ ε (Option (α × List UInt8))}
    {step : S → UInt8 → Verdict S ε α} {Rep : σ → S → Prop} {Safe : σ → List UInt8 → Prop}
    (hcall : ∀ {d s segment}, Rep d s → segment ≠ [] → Safe d segment →
      Agrees Rep (decode segment d) (scan step s segment)) :
    ∀ {segments : List (List UInt8)} {d : σ} {s : S}, Rep d s → (∀ g ∈ segments, g ≠ []) →
      Along (undecided decode) Safe segments d →
      Agrees Rep (feed decode segments d) (scan step s segments.flatten) := by
  intro segments
  induction segments with
  | nil =>
    intro d s hrep _ _
    exact .more hrep
  | cons segment segments ih =>
    intro d s hrep hne hsafe
    obtain ⟨hfirst, hlater⟩ := hsafe
    have hagree := hcall hrep (hne segment (mem_cons_self ..)) hfirst
    rw [flatten_cons, scan_append]
    simp only [feed, Method.bind_apply]
    generalize hout : decode segment d = out at hagree
    generalize scan step s segment = t at hagree
    cases hagree with
    | @more d' s' h =>
      have hnext : undecided decode d segment = some d' := by
        rw [undecided, hout]
      exact ih h (fun g hg => hne g (mem_cons_of_mem _ hg)) (hlater d' hnext)
    | done a rest => exact .done a _
    | fail e => exact .fail e

end YlongHttp.Codec
