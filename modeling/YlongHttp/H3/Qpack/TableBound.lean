/-
How large the dynamic table of a QPACK decoder gets.

The capacity stays within the maximum of the decoder, because a larger one is refused, and a
change of the capacity evicts until the entries fit (`updateSize_spec`). An insertion evicts
nothing and is never refused for its size. So the entries stay within the capacity exactly as
long as every insertion fits into what is left of it: `keepsBound_iff_fits`.
-/

import YlongHttp.H3.Qpack.Section
import YlongHttp.H3.Qpack.TableHistory

namespace YlongHttp.H3.Qpack

open Rust

/-! ### Eviction -/

namespace DynamicTable

theorem usedCap_of_empty {t : DynamicTable} (h : t.queue = []) : t.usedCap = 0 := by
  rw [t.usedCap_eq, h]
  rfl

theorem fitLoop_spec : ∀ {fuel : Nat} {t : DynamicTable}, t.queue.length ≤ fuel →
    (fitLoop fuel t).usedCap ≤ t.capacity ∧ (fitLoop fuel t).capacity = t.capacity := by
  intro fuel
  induction fuel with
  | zero =>
    intro t hlen
    have hempty := usedCap_of_empty (List.length_eq_zero_iff.mp (Nat.le_zero.mp hlen))
    rw [fitLoop, hempty]
    exact ⟨Nat.zero_le _, rfl⟩
  | succ fuel ih =>
    intro t hlen
    rw [fitLoop]
    split_ifs with hbig
    · cases hpop : t.popFront with
      | none =>
        rw [usedCap_of_empty (popFront_eq_none hpop)] at hbig
        exact absurd hbig (Nat.not_lt_zero _)
      | some t' =>
        obtain ⟨f, hqueue, -, hcapacity, -⟩ := popFront_eq_some hpop
        rw [hqueue] at hlen
        rw [← hcapacity]
        exact ih (Nat.le_of_succ_le_succ hlen)
    · exact ⟨Nat.le_of_not_gt hbig, rfl⟩

/-- A change of the capacity leaves entries that fit. -/
theorem updateSize_spec (t : DynamicTable) (maxSize : Nat) :
    (t.updateSize maxSize).usedCap ≤ maxSize ∧ (t.updateSize maxSize).capacity = maxSize :=
  fitLoop_spec le_rfl

end DynamicTable

/-! ### The points of a run -/

/-- The instructions that a call comes to, each with the table that it is applied to. -/
def instructions (maxTableCapacity : Nat) : Nat → Reading InstDecodeState → DynamicTable →
    List (DynamicTable × EncoderInstruction)
  | 0, _, _ => []
  | fuel + 1, r, t =>
    if r.buf.isEmpty then []
    else
      match EncInstDecoder.decode r with
      | .ok (some inst) r =>
        (t, inst) :: match Updater.apply maxTableCapacity inst t with
          | .ok _ t => instructions maxTableCapacity fuel r t
          | _ => []
      | _ => []

def Call.instructions (d : QpackDecoder) : Call → List (DynamicTable × EncoderInstruction)
  | .ins buf => Qpack.instructions d.maxTableCapacity (buf.length + 2) ⟨buf, d.instState⟩ d.table
  | _ => []

/-- The entries take at most the capacity after the instruction, and the capacity is at most
`bound`. An inserted entry comes after what is left of the older ones, and one that is larger
than the capacity is an error. -/
structure KeepsBound (bound : Nat) (point : DynamicTable × EncoderInstruction) : Prop where
  size : ∀ t', (Updater.apply bound point.2 point.1).state? = some t' →
    usedSize t'.queue ≤ t'.capacity ∧ t'.capacity ≤ bound
  evicts : ∀ f t', point.2.effect bound point.1 = .insert f →
    Updater.apply bound point.2 point.1 = .ok () t' →
      ∃ n, t'.queue.map DynamicField.field = (point.1.queue.map DynamicField.field).drop n ++ [f]
  rejects : ∀ f, point.2.effect bound point.1 = .insert f → point.1.capacity < f.size →
    ∃ e t', Updater.apply bound point.2 point.1 = .err e t'

/-- An entry that the instruction inserts fits into what is left of the capacity. -/
def Fits (bound : Nat) (point : DynamicTable × EncoderInstruction) : Prop :=
  ∀ f, point.2.effect bound point.1 = .insert f → usedSize point.1.queue + f.size ≤ point.1.capacity

/-- What a table of a decoder with the maximum `bound` keeps. -/
def Within (bound : Nat) (t : DynamicTable) : Prop := t.usedCap ≤ t.capacity ∧ t.capacity ≤ bound

theorem usedSize_update (t : DynamicTable) (f : Field) :
    usedSize (t.update f.1 f.2).queue = usedSize t.queue + f.size := by
  simp only [DynamicTable.update, usedSize, List.map_append, List.map_singleton, List.sum_append, List.sum_singleton]
  rfl

variable {bound : Nat} {t : DynamicTable} {inst : EncoderInstruction}

/-- An instruction that fits keeps the table within the bound. -/
theorem within_of_fits {t' : DynamicTable} (hwithin : Within bound t) (hfits : Fits bound (t, inst))
    (h : (Updater.apply bound inst t).state? = some t') : Within bound t' := by
  rw [apply_eq] at h
  cases heffect : inst.effect bound t with
  | fault =>
    rw [heffect] at h
    cases h
  | refused e =>
    rw [heffect] at h
    cases h
    exact hwithin
  | insert f =>
    rw [heffect] at h
    cases h
    refine ⟨?_, hwithin.2⟩
    rw [DynamicTable.usedCap_eq, usedSize_update]
    exact hfits f heffect
  | resize capacity =>
    rw [heffect] at h
    cases h
    have hspec := t.updateSize_spec capacity
    have hle : capacity ≤ bound := by
      cases inst with
      | setCap asked =>
        simp only [EncoderInstruction.effect] at heffect
        split at heffect
        · cases heffect
        · cases heffect
          omega
      | insertWithIndex | insertWithLiteral | duplicate =>
        simp only [EncoderInstruction.effect, Found.effect] at heffect
        split at heffect <;> cases heffect
    exact ⟨hspec.2.symm ▸ hspec.1, hspec.2.symm ▸ hle⟩

/-- At a point whose table is within the bound, the bound is kept exactly if what the
instruction inserts fits: nothing is evicted for it and nothing refuses it. -/
theorem keepsBound_point (hwithin : Within bound t) : KeepsBound bound (t, inst) ↔ Fits bound (t, inst) := by
  have hinsert : ∀ f, inst.effect bound t = .insert f → Updater.apply bound inst t = .ok () (t.update f.1 f.2) := by
    intro f heffect
    rw [apply_eq, heffect]
    rfl
  constructor
  · intro hkeeps f heffect
    have hsize := (hkeeps.size (t.update f.1 f.2) (by rw [hinsert f heffect]; rfl)).1
    rwa [usedSize_update] at hsize
  · intro hfits
    constructor
    · intro t' hnext
      have hwithin' := within_of_fits hwithin hfits hnext
      exact ⟨t'.usedCap_eq ▸ hwithin'.1, hwithin'.2⟩
    · intro f t' heffect happly
      obtain ⟨⟩ := (hinsert f heffect).symm.trans happly
      exact ⟨0, by simp [DynamicTable.update, DynamicField.field]⟩
    · intro f heffect hlarge
      have hfit := hfits f heffect
      exact absurd hlarge (not_lt.mpr (le_trans (Nat.le_add_left _ _) hfit))

/-! ### Calls -/

theorem insLoop_bound (fuel : Nat) :
    ∀ {r : Reading InstDecodeState} {d : QpackDecoder}, d.maxTableCapacity = bound → Within bound d.table →
      ((∀ point ∈ instructions bound fuel r d.table, KeepsBound bound point) ↔
        ∀ point ∈ instructions bound fuel r d.table, Fits bound point) ∧
      ((∀ point ∈ instructions bound fuel r d.table, Fits bound point) →
        ∀ d', (QpackDecoder.insLoop fuel r d).state? = some d' →
          d'.maxTableCapacity = bound ∧ Within bound d'.table) := by
  induction fuel with
  | zero =>
    intro r d _ _
    exact ⟨by simp [instructions], fun _ d' h => by cases h⟩
  | succ fuel ih =>
    intro r d hmax hwithin
    subst hmax
    rw [instructions, QpackDecoder.insLoop]
    by_cases hempty : r.buf.isEmpty = true
    · simp only [hempty, ↓reduceIte]
      refine ⟨by simp, ?_⟩
      rintro - d' ⟨⟩
      exact ⟨rfl, hwithin⟩
    · simp only [hempty, Bool.false_eq_true, ↓reduceIte]
      cases hread : EncInstDecoder.decode r with
      | panic => exact ⟨by simp, fun _ d' h => by cases h⟩
      | err e r' =>
        refine ⟨by simp, ?_⟩
        rintro - d' ⟨⟩
        exact ⟨rfl, hwithin⟩
      | ok found r' =>
        cases found with
        | none =>
          refine ⟨by simp, ?_⟩
          rintro - d' ⟨⟩
          exact ⟨rfl, hwithin⟩
        | some inst =>
          simp only [Method.bind_apply, Method.onField, List.forall_mem_cons, keepsBound_point hwithin]
          have hnext : ∀ t', Fits d.maxTableCapacity (d.table, inst) →
              (Updater.apply d.maxTableCapacity inst d.table).state? = some t' → Within d.maxTableCapacity t' :=
            fun t' hfits => within_of_fits hwithin hfits
          cases happly : Updater.apply d.maxTableCapacity inst d.table with
          | panic => exact ⟨by simp, fun _ d' h => by cases h⟩
          | err e t' =>
            refine ⟨by simp, ?_⟩
            rintro ⟨hfits, -⟩ d' ⟨⟩
            exact ⟨rfl, hnext t' hfits (by rw [happly]; rfl)⟩
          | ok u t' =>
            have hstep : Fits d.maxTableCapacity (d.table, inst) → _ := fun hfits =>
              ih (r := r') (d := { d with table := t' }) rfl (hnext t' hfits (by rw [happly]; rfl))
            constructor
            · constructor
              · rintro ⟨hfits, hrest⟩
                exact ⟨hfits, (hstep hfits).1.mp hrest⟩
              · rintro ⟨hfits, hrest⟩
                exact ⟨hfits, (hstep hfits).1.mpr hrest⟩
            · rintro ⟨hfits, hrest⟩ d' hstate
              exact (hstep hfits).2 hrest d' hstate

theorem call_bound {d : QpackDecoder} {c : Call} (hmax : d.maxTableCapacity = bound)
    (hwithin : Within bound d.table) :
    ((∀ point ∈ c.instructions d, KeepsBound bound point) ↔ ∀ point ∈ c.instructions d, Fits bound point) ∧
      ((∀ point ∈ c.instructions d, Fits bound point) →
        ∀ d', c.step d = some d' → d'.maxTableCapacity = bound ∧ Within bound d'.table) := by
  cases c with
  | repr buf streamId =>
    refine ⟨Iff.rfl.trans (by simp [Call.instructions]), fun _ d' hstep => ?_⟩
    have hframe := QpackDecoder.decodeRepr_frame hstep
    rw [hframe.maxTableCapacity, hframe.table]
    exact ⟨hmax, hwithin⟩
  | finish streamId =>
    refine ⟨Iff.rfl.trans (by simp [Call.instructions]), fun _ d' hstep => ?_⟩
    have hframe := QpackDecoder.finish_frame hstep
    rw [hframe.maxTableCapacity, hframe.table]
    exact ⟨hmax, hwithin⟩
  | ins buf =>
    subst hmax
    have hloop := insLoop_bound (buf.length + 2) (r := ⟨buf, d.instState⟩)
      (d := { d with instState := none }) rfl hwithin
    refine ⟨hloop.1, fun hfits d' hstep => ?_⟩
    simp only [Call.step, QpackDecoder.decodeIns, Method.bind_apply] at hstep
    cases hins : QpackDecoder.insLoop (buf.length + 2) ⟨buf, d.instState⟩ { d with instState := none } with
    | panic =>
      rw [hins] at hstep
      cases hstep
    | err e d₁ =>
      rw [hins] at hstep
      cases hstep
      exact hloop.2 hfits d' (by rw [hins]; rfl)
    | ok u d₁ =>
      rw [hins] at hstep
      cases hstep
      exact hloop.2 hfits d₁ (by rw [hins]; rfl)

/-! ### Runs -/

/-- The calls on a decoder keep the entries of its table within the capacity, and the capacity
within its maximum, exactly if every entry that is inserted fits into what is left of the
capacity. -/
theorem keepsBound_iff_fits (maxBlockedStreams maxTableCapacity : Nat) (calls : List Call) :
    Along (fun d (c : Call) => c.step d)
        (fun d c => ∀ point ∈ c.instructions d, KeepsBound maxTableCapacity point) calls
        (.new maxBlockedStreams maxTableCapacity) ↔
      Along (fun d (c : Call) => c.step d)
        (fun d c => ∀ point ∈ c.instructions d, Fits maxTableCapacity point) calls
        (.new maxBlockedStreams maxTableCapacity) := by
  refine along_congr (I := fun d => d.maxTableCapacity = maxTableCapacity ∧ Within maxTableCapacity d.table)
    ?_ ?_ ?_
  · rintro d c d' ⟨hmax, hwithin⟩ hfits hstep
    exact (call_bound hmax hwithin).2 hfits d' hstep
  · rintro d c ⟨hmax, hwithin⟩
    exact (call_bound hmax hwithin).1
  · exact ⟨rfl, le_rfl, Nat.zero_le _⟩

/-- A decoder that allows no dynamic table inserts the entry `a: b` all the same. -/
theorem insertion_into_nothing :
    (((QpackDecoder.new 0 0).decodeIns [0x41, 0x61, 0x01, 0x62]).value? fun _ d =>
      (d.table.capacity, usedSize d.table.queue)) = some (0, 34) := by
  decide +kernel

end YlongHttp.H3.Qpack
