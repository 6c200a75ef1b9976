/-
How large the dynamic table of a decoder gets.

The capacity of the table changes only through dynamic table size updates
(`maxSize_of_update`), and a table never exceeds its capacity. So the table stays within
the size it was configured with as long as no update asks for more, and nothing in the
decoder refuses an update that does: `keepsBound_iff` says that the bound is kept, and
every larger update refused, exactly if no larger update comes.
-/

import YlongHttp.H2.Hpack.Safety

namespace YlongHttp.H2.Hpack

open Rust

/-! ### The points of a run -/

/-- The representations that a call comes to, each with the decoder that it is applied to. -/
def applications : Nat → ReprDecoder → HpackDecoder → List (HpackDecoder × Representation)
  | 0, _, _ => []
  | fuel + 1, r, d =>
    match r.decode with
    | .ok (some repr) r =>
      (d, repr) :: match Updater.update repr d with
        | .ok _ d => applications fuel r d
        | _ => []
    | _ => []

def Call.applications (d : HpackDecoder) : Call → List (HpackDecoder × Representation)
  | .decode buf => Hpack.applications (buf.length + 2) ⟨buf, d.holder⟩ { d with holder := none }
  | .finish => []

/-- The entries take at most `bound` bytes after the representation, and a size update
beyond the bound is an error. -/
structure KeepsBound (bound : Nat) (point : HpackDecoder × Representation) : Prop where
  size : ∀ d', (Updater.update point.2 point.1).state? = some d' → tableSize d'.table.queue ≤ bound
  rejects : ∀ maxSize, point.2 = .sizeUpdate maxSize → bound < maxSize →
    ∃ e d', Updater.update point.2 point.1 = .err e d'

def Representation.UpdatesWithin (bound : Nat) : Representation → Prop
  | .sizeUpdate maxSize => maxSize ≤ bound
  | _ => True

/-! ### The capacity -/

/-- What a representation can do to the capacity of the table. -/
inductive LineOf (table : DynamicTable) (repr : Representation) : Line → Prop where
  | resize {maxSize : Nat} (update : repr = .sizeUpdate maxSize) :
      LineOf table repr (.resize (table.updateSize maxSize))
  | field {f : Field} {table' : DynamicTable} (same : table'.maxSize = table.maxSize) :
      LineOf table repr (.field f table')
  | unknown : LineOf table repr .unknown

theorem lineOf (table : DynamicTable) (repr : Representation) : LineOf table repr (repr.line table) := by
  cases repr with
  | sizeUpdate maxSize => exact .resize rfl
  | indexed | literalWithoutIndexing | literalNeverIndexed =>
    simp only [Representation.line]
    split
    · exact .field rfl
    · exact .unknown
  | literalWithIndexing name value =>
    simp only [Representation.line]
    split
    · exact .field (DynamicTable.maxSize_update _ _ _)
    · exact .unknown

variable {repr : Representation} {d d' : HpackDecoder} {bound : Nat}

/-- Whether a representation is taken or refused, only a size update changes the capacity. -/
theorem maxSize_of_update (h : (Updater.update repr d).state? = some d') :
    d'.table.maxSize = d.table.maxSize ∨ repr = .sizeUpdate d'.table.maxSize := by
  rw [update_eq_apply] at h
  have hline := lineOf d.table repr
  generalize repr.line d.table = line at h hline
  cases hline with
  | unknown =>
    cases h
    exact .inl rfl
  | resize update =>
    cases h
    exact .inr update
  | field same =>
    simp only [Line.apply] at h
    split at h
    · split at h
      · cases h
        exact .inl rfl
      · split at h
        · cases h
          exact .inl same
        · cases h
    · cases h

theorem capacity_of_update (hmax : d.table.maxSize ≤ bound) (hwithin : repr.UpdatesWithin bound)
    (h : (Updater.update repr d).state? = some d') : d'.table.maxSize ≤ bound := by
  rcases maxSize_of_update h with heq | heq
  · rw [heq]
    exact hmax
  · rwa [heq] at hwithin

/-- The bound is kept at a point whose table has the capacity for it, exactly if the
representation is not a larger update: nothing refuses one. -/
theorem keepsBound_point (hmax : d.table.maxSize ≤ bound) : KeepsBound bound (d, repr) ↔ repr.UpdatesWithin bound := by
  constructor
  · intro hkeeps
    cases repr with
    | sizeUpdate maxSize =>
      by_contra hlarge
      obtain ⟨e, d', hrefused⟩ := hkeeps.rejects maxSize rfl (Nat.lt_of_not_le hlarge)
      cases hrefused
    | _ => trivial
  · intro hwithin
    constructor
    · intro d' hnext
      calc tableSize d'.table.queue = d'.table.currSize := d'.table.currSize_eq.symm
        _ ≤ d'.table.maxSize := d'.table.currSize_le
        _ ≤ bound := capacity_of_update hmax hwithin hnext
    · rintro maxSize rfl hlarge
      exact absurd hwithin (Nat.not_le.mpr hlarge)

/-! ### Calls -/

theorem decodeLoop_capacity {fuel : Nat} : ∀ {r : ReprDecoder} {d : HpackDecoder}, d.table.maxSize ≤ bound →
      ((∀ point ∈ applications fuel r d, KeepsBound bound point) ↔
        ∀ point ∈ applications fuel r d, point.2.UpdatesWithin bound) ∧
      ((∀ point ∈ applications fuel r d, point.2.UpdatesWithin bound) →
        ∀ d', (HpackDecoder.decodeLoop fuel r d).state? = some d' → d'.table.maxSize ≤ bound) := by
  induction fuel with
  | zero =>
    intro r d _
    exact ⟨by simp [applications], fun _ d' h => by cases h⟩
  | succ fuel ih =>
    intro r d hmax
    rw [applications, HpackDecoder.decodeLoop]
    cases hread : r.decode with
    | panic => exact ⟨by simp, fun _ d' h => by cases h⟩
    | err e r' =>
      refine ⟨by simp, ?_⟩
      rintro - d' ⟨⟩
      exact hmax
    | ok found r' =>
      cases found with
      | none =>
        refine ⟨by simp, ?_⟩
        rintro - d' ⟨⟩
        exact hmax
      | some repr =>
        simp only [Method.bind_apply, List.forall_mem_cons, keepsBound_point hmax]
        have hnext : ∀ d', repr.UpdatesWithin bound → (Updater.update repr d).state? = some d' →
            d'.table.maxSize ≤ bound := fun d' => capacity_of_update hmax
        cases hupdate : Updater.update repr d with
        | panic => exact ⟨by simp, fun _ d' h => by cases h⟩
        | err e d₁ =>
          refine ⟨by simp, ?_⟩
          rintro ⟨hwithin, -⟩ d' ⟨⟩
          exact hnext d₁ hwithin (by rw [hupdate]; rfl)
        | ok u d₁ =>
          constructor
          · constructor
            · rintro ⟨hwithin, hrest⟩
              exact ⟨hwithin, (ih (hnext d₁ hwithin (by rw [hupdate]; rfl))).1.mp hrest⟩
            · rintro ⟨hwithin, hrest⟩
              exact ⟨hwithin, (ih (hnext d₁ hwithin (by rw [hupdate]; rfl))).1.mpr hrest⟩
          · rintro ⟨hwithin, hrest⟩ d' hstate
            exact (ih (hnext d₁ hwithin (by rw [hupdate]; rfl))).2 hrest d' hstate

theorem finish_capacity (h : (HpackDecoder.finish d).state? = some d') : d'.table = d.table := by
  unfold HpackDecoder.finish at h
  split at h
  · cases h
    rfl
  · cases h
    rfl

/-! ### Runs -/

/-- The blocks that a decoder receives keep its table within the size it was configured
with, and updates beyond it are errors, exactly if no update goes beyond it. -/
theorem keepsBound_iff (headerTableSize maxHeaderListSize : Nat) (calls : List Call) :
    Along (fun d (c : Call) => c.step d)
        (fun d c => ∀ point ∈ c.applications d, KeepsBound headerTableSize point) calls
        (.withMaxSize headerTableSize maxHeaderListSize) ↔
      Along (fun d (c : Call) => c.step d)
        (fun d c => ∀ point ∈ c.applications d, point.2.UpdatesWithin headerTableSize) calls
        (.withMaxSize headerTableSize maxHeaderListSize) := by
  refine along_congr (I := fun d => d.table.maxSize ≤ headerTableSize) ?_ ?_ (Nat.le_refl _)
  · intro d c d' hmax hwithin hstep
    cases c with
    | decode buf =>
      have hempty : { d with holder := none }.table.maxSize ≤ headerTableSize := hmax
      exact (decodeLoop_capacity hempty).2 hwithin d' hstep
    | finish =>
      rw [finish_capacity hstep]
      exact hmax
  · intro d c hmax
    cases c with
    | decode buf =>
      have hempty : { d with holder := none }.table.maxSize ≤ headerTableSize := hmax
      exact (decodeLoop_capacity hempty).1
    | finish =>
      constructor <;> rintro - point ⟨⟩

/-- A decoder with room for nothing: an update to 4096 bytes and a field with indexing. -/
def raised : List UInt8 := [0x3f, 0xe1, 0x1f, 0x40, 1, 0x61, 1, 0x62]

/-- The peer raises the bound: after the two representations the table holds 34 bytes. -/
theorem raised_exceeds :
    (∃ d', (HpackDecoder.decode raised (.withMaxSize 0 16384)) = .ok () d' ∧ tableSize d'.table.queue = 34) ∧
      ¬ Along (fun d (c : Call) => c.step d)
        (fun d c => ∀ point ∈ c.applications d, KeepsBound 0 point) [.decode raised]
        (.withMaxSize 0 16384) := by
  have hsize : (HpackDecoder.decode raised (.withMaxSize 0 16384)).value? (fun _ d => tableSize d.table.queue) = some 34 := by
    decide +kernel
  obtain ⟨_, d', hdecode, hqueue⟩ := Outcome.value?_eq_some.mp hsize
  refine ⟨⟨d', hdecode, hqueue⟩, ?_⟩
  rintro ⟨hkeeps, -⟩
  have hpoint : ({ HpackDecoder.withMaxSize 0 16384 with holder := none }, Representation.sizeUpdate 4096) ∈
      Call.applications (.withMaxSize 0 16384) (.decode raised) := List.mem_cons_self
  obtain ⟨e, d', hrefused⟩ := (hkeeps _ hpoint).rejects 4096 rfl (Nat.succ_pos _)
  cases hrefused

end YlongHttp.H2.Hpack
