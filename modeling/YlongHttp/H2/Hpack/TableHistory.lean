/-
The dynamic table and the fields that were inserted into it.

`fit_size` leaves the longest run of newest entries that the capacity allows
(`prefix_fitSize`). Over a history of calls a run of insertions is therefore still there
exactly if after every call the part of it that had been inserted by then fitted the capacity
of that time (`Allowed`): what a smaller capacity evicts does not come back with a larger one,
and a field larger than the table leaves it empty (`kept_after`).
-/

import YlongHttp.H2.Hpack.Table

namespace YlongHttp.H2.Hpack

open List

/-! ### Histories -/

inductive TableCall where
  | update (header : Header) (value : List UInt8)
  | updateSize (maxSize : Nat)
deriving DecidableEq, Repr

def DynamicTable.call (t : DynamicTable) : TableCall → DynamicTable
  | .update header value => t.update header value
  | .updateSize maxSize => t.updateSize maxSize

namespace TableCall

def field? : TableCall → Option Field
  | .update header value => some (header, value)
  | .updateSize _ => none

/-- The fields that calls insert, the newest first. -/
def inserted (calls : List TableCall) : List Field := calls.reverse.filterMap field?

def resize (maxSize : Nat) : TableCall → Nat
  | .update _ _ => maxSize
  | .updateSize maxSize => maxSize

/-- The capacity after calls on a table that was created with `maxSize`. -/
def capacity (maxSize : Nat) (calls : List TableCall) : Nat :=
  calls.foldl resize maxSize

/-- After every call, what had been inserted of the run by then fitted the table. -/
def Allowed (maxSize : Nat) (calls : List TableCall) (run : List Field) : Prop :=
  ∀ before after, calls = before ++ after → tableSize (run.drop (inserted after).length) ≤ capacity maxSize before

theorem inserted_append (before after : List TableCall) :
    inserted (before ++ after) = inserted after ++ inserted before := by
  rw [inserted, reverse_append, filterMap_append]
  rfl

variable {maxSize : Nat} {calls : List TableCall} {run : List Field}

theorem allowed_concat (c : TableCall) : Allowed maxSize (calls ++ [c]) run ↔
    tableSize run ≤ capacity maxSize (calls ++ [c]) ∧ Allowed maxSize calls (run.drop (inserted [c]).length) := by
  constructor
  · intro h
    refine ⟨h (calls ++ [c]) [] (append_nil _).symm, ?_⟩
    rintro before after rfl
    have hpart := h before (after ++ [c]) (append_assoc ..)
    rwa [inserted_append, length_append, ← drop_drop] at hpart
  · rintro ⟨hsize, h⟩ before after heq
    rcases eq_nil_or_concat after with rfl | ⟨after, c', rfl⟩
    · rw [append_nil] at heq
      rwa [← heq]
    · rw [concat_eq_append, ← append_assoc] at heq
      obtain ⟨hcalls, hc⟩ := append_inj' heq rfl
      obtain rfl := singleton_inj.mp hc
      rw [concat_eq_append, inserted_append, length_append, ← drop_drop]
      exact h before after hcalls

end TableCall

/-! ### Eviction -/

namespace DynamicTable

open TableCall

theorem tableSize_mono {run queue : List Field} (h : run <+: queue) : tableSize run ≤ tableSize queue := by
  obtain ⟨rest, rfl⟩ := h
  simp [tableSize]

/-- The loop takes entries from the end, and stops as soon as the table fits. -/
theorem fitLoop_longest (maxSize : Nat) : ∀ (fuel : Nat) {queue : List Field} {currSize : Nat},
    currSize = tableSize queue → (fitLoop maxSize fuel queue currSize).1 <+: queue ∧ ∀ run, run <+: queue →
      tableSize run ≤ maxSize → run <+: (fitLoop maxSize fuel queue currSize).1
  | 0, _, _, _ => ⟨prefix_rfl, fun _ h _ => h⟩
  | fuel + 1, queue, currSize, hsize => by
    rw [fitLoop]
    split_ifs with hbig
    · cases hlast : queue.getLast? with
      | none => exact ⟨prefix_rfl, fun _ h _ => h⟩
      | some f =>
        have hless : currSize - f.size = tableSize queue.dropLast := by
          rw [hsize, tableSize_dropLast hlast, Nat.add_sub_cancel]
        obtain ⟨hsub, hlongest⟩ := fitLoop_longest maxSize fuel hless
        refine ⟨hsub.trans ( dropLast_prefix queue), fun run h hrun => hlongest run ?_ hrun⟩
        refine prefix_of_prefix_length_le h ( dropLast_prefix queue) ?_
        by_contra hlong
        rw [length_dropLast] at hlong
        rw [h.eq_of_length (by have := h.length_le; omega)] at hrun
        omega
    · exact ⟨prefix_rfl, fun _ h _ => h⟩

/-- A run of newest entries survives exactly if it fits. -/
theorem prefix_fitSize {queue run : List Field} {currSize maxSize : Nat} (h : currSize = tableSize queue) :
    run <+: (fitSize queue currSize maxSize h).queue ↔ run <+: queue ∧ tableSize run ≤ maxSize := by
  constructor
  · intro hrun
    refine ⟨hrun.trans (fitLoop_longest maxSize _ h).1, (tableSize_mono hrun).trans ?_⟩
    rw [← (fitSize queue currSize maxSize h).currSize_eq]
    exact (fitSize queue currSize maxSize h).currSize_le
  · rintro ⟨hrun, hsize⟩
    exact (fitLoop_longest maxSize _ h).2 run hrun hsize

theorem prefix_call (t : DynamicTable) (c : TableCall) (run : List Field) :
    run <+: (t.call c).queue ↔ run <+: inserted [c] ++ t.queue ∧ tableSize run ≤ (t.call c).maxSize := by
  cases c with
  | update header value => exact prefix_fitSize (tableSize_push t header value)
  | updateSize maxSize => exact prefix_fitSize t.currSize_eq

/-! ### The entries that are left -/

/-- What a table holds after a history of calls. -/
structure Kept (maxSize : Nat) (calls : List TableCall) (t : DynamicTable) : Prop where
  size : t.currSize = (t.queue.map fun f => f.1.intoString.length + f.2.length + 32).sum
  fits : t.currSize ≤ t.maxSize
  current : t.maxSize = capacity maxSize calls
  recent : t.queue <+: inserted calls
  longest : ∀ run, run <+: inserted calls → (run <+: t.queue ↔ Allowed maxSize calls run)
  header : ∀ i, t.header i = if i < t.queue.length then (inserted calls)[i]? else none

/-- A run reaches into what follows `new` by what is left of it behind `new`. -/
theorem prefix_append_iff {new old queue run : List Field} (h : run <+: new ++ old) :
    run <+: new ++ queue ↔ run.drop new.length <+: queue := by
  rcases Nat.le_total run.length new.length with hle | hle
  · have hnew : run <+: new := prefix_of_prefix_length_le h (prefix_append ..) hle
    rw [drop_eq_nil_of_le hle]
    exact ⟨fun _ => nil_prefix, fun _ => hnew.trans (prefix_append ..)⟩
  · obtain ⟨rest, rfl⟩ := prefix_of_prefix_length_le (prefix_append ..) h hle
    rw [drop_left, prefix_append_right_inj]

theorem size_eq (f : Field) : f.size = f.1.intoString.length + f.2.length + 32 := by
  obtain ⟨header, value⟩ := f
  cases header <;> rfl

/-- The table after calls on a new one. -/
def after (maxSize : Nat) (calls : List TableCall) : DynamicTable := calls.foldl call (withMaxSize maxSize)

theorem maxSize_after (maxSize : Nat) (calls : List TableCall) :
    (after maxSize calls).maxSize = capacity maxSize calls := by
  refine (foldl_hom DynamicTable.maxSize fun t c => ?_).symm
  cases c <;> rfl

theorem prefix_after (maxSize : Nat) (calls : List TableCall) : (after maxSize calls).queue <+: inserted calls ∧
    ∀ run, run <+: inserted calls → (run <+: (after maxSize calls).queue ↔ Allowed maxSize calls run) := by
  induction calls using reverseRecOn with
  | nil =>
    refine ⟨prefix_rfl, fun run hrun => ⟨fun _ before after heq => ?_, fun _ => hrun⟩⟩
    rw [prefix_nil.mp hrun, drop_nil]
    exact Nat.zero_le _
  | append_singleton calls c ih =>
    obtain ⟨hrecent, hlongest⟩ := ih
    have hstep : after maxSize (calls ++ [c]) = (after maxSize calls).call c := foldl_concat ..
    rw [inserted_append]
    constructor
    · rw [hstep]
      have hqueue := ((prefix_call (after maxSize calls) c _).mp prefix_rfl).1
      exact hqueue.trans ((prefix_append_right_inj _).mpr hrecent)
    · intro run hrun
      have hold := (prefix_append_iff hrun).mp hrun
      rw [hstep, prefix_call, ← hstep, maxSize_after, prefix_append_iff hrun, hlongest _ hold, allowed_concat, and_comm]

theorem kept_after (maxSize : Nat) (calls : List TableCall) : Kept maxSize calls (after maxSize calls) := by
  obtain ⟨hrecent, hlongest⟩ := prefix_after maxSize calls
  refine ⟨?_, currSize_le _, maxSize_after maxSize calls, hrecent, hlongest, fun i => ?_⟩
  · rw [currSize_eq, tableSize, funext size_eq]
  · rw [← getElem?_take, ← prefix_iff_eq_take.mp hrecent]
    rfl

end DynamicTable

end YlongHttp.H2.Hpack
