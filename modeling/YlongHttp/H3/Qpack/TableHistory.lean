/-
The dynamic table and the fields that were inserted into it.

Only `update` adds to the table. Every other operation leaves a later part of what is there, the
counters with it (`Ages`), so that the table holds the insertions from `removeCount` on. `field`
subtracts that count from the index: an entry that is gone is not reported as absent, the
subtraction underflows (`tells_iff`).
-/

import YlongHttp.H3.Qpack.Table
import YlongHttp.Rust.Keeps
import YlongHttp.Rust.Run

namespace YlongHttp.H3.Qpack.DynamicTable

open Rust Method List

theorem popFront_eq_none {t : DynamicTable} (h : t.popFront = none) : t.queue = [] := by
  unfold popFront at h
  split at h
  · assumption
  · cases h

/-- The oldest entry goes, and nothing else changes. -/
theorem popFront_eq_some {t t' : DynamicTable} (h : t.popFront = some t') :
    ∃ f, t.queue = f :: t'.queue ∧ t.usedCap = t'.usedCap + f.size ∧ t'.capacity = t.capacity ∧
      t'.insertCount = t.insertCount ∧ t'.removeCount = t.removeCount + 1 ∧
      t'.knownReceivedCount = t.knownReceivedCount := by
  unfold popFront at h
  split at h
  · cases h
  · rename_i f queue hqueue
    obtain rfl := Option.some.inj h
    have hused : f.size ≤ t.usedCap := by
      have heq := t.usedCap_eq
      rw [hqueue] at heq
      rw [heq]
      exact Nat.le_add_right _ _
    exact ⟨f, hqueue, (Nat.sub_add_cancel hused).symm, rfl, rfl, rfl, rfl⟩

/-! ### What eviction and tracking keep -/

section Keeps

variable {σ ε : Type} {E : ε → Prop}

section Untouched

variable {S : σ → σ → Prop} [IsPreorder σ S]

theorem keeps_checkedSub (a b : Nat) : Keeps S E (checkedSub a b : Method σ ε Nat) :=
  .ite (.pure _) fun _ => .panic

theorem keeps_canEvictLoop (t : DynamicTable) (bound : Nat) :
    ∀ fuel usedCap n, Keeps S E (canEvictLoop t bound fuel usedCap n : Method σ ε (Option Nat))
  | 0, _, _ => fun _ => .panic
  | fuel + 1, usedCap, n => by
    refine .ite ?_ (.pure _)
    cases t.queue.head? with
    | none => exact .pure _
    | some f => exact .ite (.pure _) (.bind (keeps_checkedSub _ _) fun _ => keeps_canEvictLoop t bound fuel _ _)

theorem keeps_canEvict (t : DynamicTable) (required : Nat) :
    Keeps S E (t.canEvict required : Method σ ε (Option Nat)) :=
  .ite (.pure _) (keeps_canEvictLoop t _ _ _ _)

end Untouched

/-- A relation of tables that holds across the changes to one that are not insertions. -/
class Lasting (R : DynamicTable → DynamicTable → Prop) : Prop extends IsPreorder DynamicTable R where
  pop : ∀ {t t'}, t.popFront = some t' → R t t'
  resize : ∀ t capacity, R t { t with capacity := capacity }
  retrack : ∀ t i count, R t (t.retrack i count)

variable {R : DynamicTable → DynamicTable → Prop} [Lasting R]

theorem keeps_evictDrained : ∀ n, Keeps R E (evictDrained n : Method DynamicTable ε Unit)
  | 0 => .pure _
  | n + 1 => fun t => by
    simp only [evictDrained]
    cases hpop : t.popFront with
    | none => exact .panic
    | some t' => exact Keeps.after (Lasting.pop hpop) (keeps_evictDrained n)

theorem keeps_trackField (index : Nat) : Keeps R E (trackField index : Method DynamicTable ε Unit) := by
  intro t
  refine (keeps_checkedSub (S := R) index t.removeCount t).bind fun i _ _ => ?_
  cases t.queue[i]? with
  | none => exact .panic
  | some f => exact .ok (Lasting.retrack t i _)

theorem keeps_untrackedField (index : Nat) : Keeps R E (untrackedField index : Method DynamicTable ε Unit) := by
  intro t
  refine (keeps_checkedSub (S := R) index t.removeCount t).bind fun i _ _ => ?_
  cases t.queue[i]? with
  | none => exact .panic
  | some f =>
    simp only [Method.ite_apply]
    split
    · exact .ok (Lasting.retrack t i _)
    · exact .panic

theorem keeps_updateCapacity (newCap : Nat) :
    Keeps R E (updateCapacity newCap : Method DynamicTable ε (Option Nat)) := by
  intro t
  simp only [updateCapacity, get_bind, Method.ite_apply]
  split
  · refine Keeps.bind (R := R) (keeps_canEvict t _) (fun found => ?_) t
    cases found with
    | none => exact .pure _
    | some size =>
      exact .bind (keeps_evictDrained size) fun _ => .bind (.modify fun t => Lasting.resize t _) fun _ => .pure _
  · exact .ok (Lasting.resize t _)

end Keeps

/-! ### The part of the history that is left -/

/-- The entries of `t'` are those of `t` without the oldest ones. -/
def Ages (t t' : DynamicTable) : Prop :=
  ∃ n, t'.removeCount = t.removeCount + n ∧ t'.queue.map DynamicField.field = (t.queue.map DynamicField.field).drop n ∧
    t'.insertCount = t.insertCount

instance : IsPreorder DynamicTable Ages where
  refl _ := ⟨0, rfl, rfl, rfl⟩
  trans := by
    rintro t mid t' ⟨n, hremove, hqueue, hinsert⟩ ⟨m, hremove', hqueue', hinsert'⟩
    refine ⟨n + m, ?_, ?_, hinsert'.trans hinsert⟩
    · rw [hremove', hremove, Nat.add_assoc]
    · rw [hqueue', hqueue, drop_drop]

theorem ages_popFront {t t' : DynamicTable} (h : t.popFront = some t') : Ages t t' := by
  obtain ⟨f, hqueue, -, -, hinsert, hremove, -⟩ := popFront_eq_some h
  refine ⟨1, hremove, ?_, hinsert⟩
  rw [hqueue]
  rfl

theorem map_field_modify (count : Nat → Nat) (queue : List DynamicField) (i : Nat) :
    (queue.modify i (DynamicField.retrack count)).map DynamicField.field = queue.map DynamicField.field := by
  apply ext_getElem?
  intro k
  rw [getElem?_map, getElem?_map, getElem?_modify]
  split <;> cases queue[k]? <;> rfl

instance : Lasting Ages where
  pop := ages_popFront
  resize _ _ := ⟨0, rfl, rfl, rfl⟩
  retrack t i count := ⟨0, rfl, map_field_modify count t.queue i, rfl⟩

theorem ages_fitLoop : ∀ (fuel : Nat) (t : DynamicTable), Ages t (fitLoop fuel t)
  | 0, t => Std.Refl.refl t
  | fuel + 1, t => by
    rw [fitLoop]
    split
    · cases hpop : t.popFront with
      | none => exact Std.Refl.refl t
      | some t' => exact IsTrans.trans _ _ _ (ages_popFront hpop) (ages_fitLoop fuel t')
    · exact Std.Refl.refl t

theorem keeps_increaseKnownReceiveCount {ε : Type} {E : ε → Prop} (increment : Nat) :
    Keeps Ages E (increaseKnownReceiveCount increment : Method DynamicTable ε Unit) := by
  intro t
  refine (keeps_checkedSub (S := Ages) increment 1 t).bind fun more _ _ => ?_
  split
  · exact .ok ⟨0, rfl, rfl, rfl⟩
  · exact .panic

/-! ### Histories -/

inductive Operation where
  | update (name : NameField) (value : List UInt8)
  | updateCapacity (newCap : Nat)
  | updateSize (maxSize : Nat)
  | evictDrained (size : Nat)
  | trackField (index : Nat)
  | untrackedField (index : Nat)
  | increaseKnownReceiveCount (increment : Nat)

namespace Operation

def apply (t : DynamicTable) : Operation → Option DynamicTable
  | update name value => some (t.update name value)
  | updateCapacity newCap => (DynamicTable.updateCapacity (ε := Empty) newCap t).value? fun _ t => t
  | updateSize maxSize => some (t.updateSize maxSize)
  | evictDrained size => (DynamicTable.evictDrained (ε := Empty) size t).value? fun _ t => t
  | trackField index => (DynamicTable.trackField (ε := Empty) index t).value? fun _ t => t
  | untrackedField index => (DynamicTable.untrackedField (ε := Empty) index t).value? fun _ t => t
  | increaseKnownReceiveCount increment =>
    (DynamicTable.increaseKnownReceiveCount (ε := Empty) increment t).value? fun _ t => t

def inserted : Operation → List Field
  | update name value => [(name, value)]
  | _ => []

/-- A table beside all the fields that were inserted, the first one first. -/
def advance (s : DynamicTable × List Field) (op : Operation) : Option (DynamicTable × List Field) :=
  (op.apply s.1).map fun t => (t, s.2 ++ op.inserted)

end Operation

/-- The table holds the insertions from `removeCount` on. -/
def Remembers (t : DynamicTable) (history : List Field) : Prop :=
  history.length = t.insertCount ∧ history.drop t.removeCount = t.queue.map DynamicField.field

section Remembers

variable {t t' : DynamicTable} {history : List Field} (h : Remembers t history)
include h

theorem Remembers.ages (hages : Ages t t') : Remembers t' history := by
  obtain ⟨n, hremove, hqueue, hinsert⟩ := hages
  refine ⟨h.1.trans hinsert.symm, ?_⟩
  rw [hremove, hqueue, ← drop_drop, h.2]

theorem Remembers.update (name : NameField) (value : List UInt8) :
    Remembers (t.update name value) (history ++ [(name, value)]) := by
  have hle : t.removeCount ≤ history.length := by
    rw [h.1, t.insertCount_eq]
    exact Nat.le_add_right _ _
  constructor
  · rw [length_append, h.1]
    rfl
  · change (history ++ _).drop t.removeCount = (t.queue ++ _).map _
    rw [drop_append_of_le_length hle, h.2, map_append]
    rfl

theorem Remembers.advance {op : Operation} {s' : DynamicTable × List Field}
    (hop : Operation.advance (t, history) op = some s') : Remembers s'.1 s'.2 := by
  obtain ⟨t', hcall, rfl⟩ := Option.map_eq_some_iff.mp hop
  have hkeeps : ∀ {α : Type} {m : Method DynamicTable Empty α}, Stays Ages m →
      (m t).value? (fun _ t => t) = some t' → Remembers t' (history ++ []) := by
    intro α m hm hvalue
    obtain ⟨a, _, hok, rfl⟩ := Outcome.value?_eq_some.mp hvalue
    rw [append_nil]
    exact h.ages (hm.of_ok hok)
  cases op with
  | update name value =>
    cases hcall
    exact h.update name value
  | updateSize maxSize =>
    cases hcall
    refine (append_nil history).symm ▸ h.ages ?_
    exact IsTrans.trans _ _ _ (Lasting.resize t maxSize) (ages_fitLoop _ _)
  | updateCapacity newCap => exact hkeeps (keeps_updateCapacity newCap) hcall
  | evictDrained size => exact hkeeps (keeps_evictDrained size) hcall
  | trackField index => exact hkeeps (keeps_trackField index) hcall
  | untrackedField index => exact hkeeps (keeps_untrackedField index) hcall
  | increaseKnownReceiveCount increment => exact hkeeps (keeps_increaseKnownReceiveCount increment) hcall

end Remembers

/-! ### What the table tells of an index -/

theorem numbered_getElem? : ∀ {queue : List DynamicField} {first i : Nat} {f : DynamicField},
    Numbered first queue → queue[i]? = some f → f.index = first + i
  | _ :: _, _, 0, _, ⟨hhead, _⟩, hf => Option.some.inj hf ▸ hhead
  | _ :: queue, first, i + 1, f, ⟨_, htail⟩, hf => by
    rw [numbered_getElem? htail hf]
    omega

/-- The counters are those of the queue, and `field` gives the insertion of the index, none if it
is gone or still to come. -/
structure Tells (t : DynamicTable) (history : List Field) (j : Nat) : Prop where
  count : t.insertCount - t.removeCount = t.queue.length
  index : ∀ i f, t.queue[i]? = some f → f.index = t.removeCount + i
  size : t.usedCap = (t.queue.map DynamicField.size).sum
  field : (t.field j : Method Unit Empty (Option Field)) () = .ok (if t.removeCount ≤ j then history[j]? else none) ()

/-- After any operations the table tells of exactly those indices that it has not gone past. -/
theorem tells_iff {ops : List Operation} {t : DynamicTable} {history : List Field}
    (hrun : run Operation.advance ops (withEmpty, []) = some (t, history)) (j : Nat) :
    Tells t history j ↔ t.removeCount ≤ j := by
  have hholds : Remembers t history :=
    run_invariant (I := fun s => Remembers s.1 s.2) (fun h hop => h.advance hop) ⟨rfl, rfl⟩ hrun
  constructor
  · intro h
    have hfield := h.field
    by_contra hlt
    rw [DynamicTable.field, checkedSub, if_neg hlt] at hfield
    cases hfield
  · intro hle
    refine ⟨?_, fun i f => numbered_getElem? t.numbered, t.usedCap_eq, ?_⟩
    · rw [t.insertCount_eq, Nat.add_sub_cancel_left]
    · have hget : t.queue[j - t.removeCount]?.map DynamicField.field = history[j]? := by
        rw [← getElem?_map, ← hholds.2, getElem?_drop, Nat.add_sub_cancel' hle]
      rw [DynamicTable.field, checkedSub, if_pos hle, if_pos hle, ← hget]
      rfl

/-- One field is inserted, and evicted again. -/
def comesAndGoes : List Operation := [.update .path [47], .updateSize 0]

theorem evicted_entry_underflows : ((run Operation.advance comesAndGoes (withEmpty, [])).map fun s =>
    (s.1.field 0 : Method Unit Empty (Option Field)) ()) = some .panic := by
  decide +kernel

theorem tells_of_the_next_entry :
    ∃ t history, run Operation.advance comesAndGoes (withEmpty, []) = some (t, history) ∧ Tells t history 1 := by
  have hrun : (run Operation.advance comesAndGoes (withEmpty, [])).isSome := by decide +kernel
  refine ⟨_, _, (Option.some_get hrun).symm, (tells_iff (Option.some_get hrun).symm 1).mpr ?_⟩
  decide +kernel

end YlongHttp.H3.Qpack.DynamicTable
