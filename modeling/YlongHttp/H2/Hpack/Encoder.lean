/-
The HPACK encoder (`h2/hpack/encoder.rs`).

`block` is what encoding a list of fields amounts to: the bytes of their
representations and the dynamic table they end in. An encoder in the middle of a
block has `pending` bytes to write, and `encode_spec` says that a call writes as
many of them as fit and leaves the others, whatever the length of the buffer. The
table at the end of the block does not depend on the buffers either.
-/

import YlongHttp.H2.Hpack.ReprEncoder

namespace YlongHttp.H2.Hpack

open Rust Codec List

/-- The bytes of a list of fields and the dynamic table after them. -/
def block (useHuffman : Bool) : DynamicTable → List Field → List UInt8 × DynamicTable
  | table, [] => ([], table)
  | table, f :: fields =>
    let next := represent useHuffman table f
    let rest := block useHuffman next.2 fields
    (next.1.octets ++ rest.1, rest.2)

namespace ReprEncoder

variable (useHuffman : Bool)

/-- The bytes still to be written. -/
def pending (r : ReprEncoder) : List UInt8 :=
  r.state.elim [] ReprEncodeState.octets ++ r.iter.elim [] fun iter => (block useHuffman r.table iter.fields).1

/-- The dynamic table at the end of the block. -/
def lastTable (r : ReprEncoder) : DynamicTable :=
  r.iter.elim r.table fun iter => (block useHuffman r.table iter.fields).2

/-- What a call has done that was given a buffer `dst` with bytes `xs` to write and
`table` as the table at the end: all of it, or what fits. -/
structure Wrote (len : Nat) (dst : Dst UInt8) (xs : List UInt8) (table : DynamicTable)
    (out : Outcome (ReprEncoder × Dst UInt8) Empty Nat) : Prop where
  all : xs.length ≤ dst.room → out = .ok (dst.items.length + xs.length) (⟨table, none, none⟩, dst.push xs)
  part : dst.room < xs.length → ∃ r : ReprEncoder, out = .ok len (r, dst.push (xs.take dst.room)) ∧
    r.pending useHuffman = xs.drop dst.room ∧ r.lastTable useHuffman = table ∧ r.state ≠ none

variable {useHuffman} {len : Nat} {dst : Dst UInt8} {table : DynamicTable}

/-- A call that first wrote `ys` in full. -/
theorem Wrote.after {xs ys : List UInt8}
    {out : Outcome (ReprEncoder × Dst UInt8) Empty Nat} (hfit : ys.length ≤ dst.room)
    (h : Wrote useHuffman len (dst.push ys) xs table out) : Wrote useHuffman len dst (ys ++ xs) table out where
  all hroom := by
    rw [length_append] at hroom
    rw [h.all (by rw [Dst.room_push]; omega)]
    simp [add_assoc]
  part hroom := by
    rw [length_append] at hroom
    obtain ⟨r, hout, hpending, htable, hstate⟩ := h.part (by rw [Dst.room_push]; omega)
    refine ⟨r, ?_, ?_, htable, hstate⟩
    · rw [hout, Dst.push_push, Dst.room_push, take_append, take_of_length_le hfit]
    · rw [hpending, Dst.room_push, drop_append, drop_eq_nil_of_le hfit, nil_append]

/-- A call whose first representation does not fit. -/
theorem wrote_of_part {s s' : ReprEncodeState} (iter : Option PartsIter) (hpart : dst.room < s.octets.length)
    (hrest : s'.octets = s.octets.drop dst.room) : Wrote useHuffman len dst
      (s.octets ++ iter.elim [] fun iter => (block useHuffman table iter.fields).1)
      (iter.elim table fun iter => (block useHuffman table iter.fields).2)
      (.ok len (⟨table, iter, some s'⟩, dst.push (s.octets.take dst.room))) where
  all hroom := by
    rw [length_append] at hroom
    omega
  part _ := by
    refine ⟨⟨table, iter, some s'⟩, ?_, ?_, rfl, by simp⟩
    · rw [take_append_of_le_length hpart.le]
    · rw [pending, drop_append_of_le_length hpart.le]
      simp [hrest]

theorem encodeIter_spec (len : Nat) (fuel : Nat) :
    ∀ {iter : PartsIter} {table : DynamicTable} {dst : Dst UInt8}, iter.fields.length < fuel →
      Wrote useHuffman len dst (block useHuffman table iter.fields).1 (block useHuffman table iter.fields).2
        (encodeIter useHuffman len fuel iter table dst) := by
  induction fuel with
  | zero =>
    intro iter table dst hfuel
    exact absurd hfuel (Nat.not_lt_zero _)
  | succ fuel ih =>
    intro iter table dst hfuel
    obtain ⟨hhead, htail⟩ := iter.next_spec
    cases hfields : iter.fields with
    | nil =>
      have hnext : iter.next = (none, iter.next.2) := Prod.ext (by rw [hhead, hfields]; rfl) rfl
      rw [encodeIter, hnext]
      exact ⟨fun _ => by simp [block], fun h => absurd h (Nat.not_lt_zero _)⟩
    | cons f fields =>
      rw [hfields] at hhead htail hfuel
      have hnext : iter.next = (some f, iter.next.2) := Prod.ext hhead rfl
      rw [tail_cons] at htail
      rw [encodeIter, hnext, ← htail]
      simp only
      have hwrites := (represent useHuffman table f).1.writes_encode
      by_cases hfit : (represent useHuffman table f).1.octets.length ≤ dst.room
      · rw [hwrites.all dst hfit]
        exact (ih (by rw [htail]; exact Nat.lt_of_succ_lt_succ hfuel)).after hfit
      · obtain ⟨s', herr, hrest⟩ := hwrites.part dst (Nat.lt_of_not_le hfit)
        rw [herr]
        exact wrote_of_part (some iter.next.2) (Nat.lt_of_not_le hfit) hrest

theorem encodeRest_spec (r : ReprEncoder) (len : Nat) (dst : Dst UInt8) : Wrote useHuffman len dst
      (r.iter.elim [] fun iter => (block useHuffman r.table iter.fields).1)
      (r.lastTable useHuffman) (r.encodeRest useHuffman len dst) := by
  obtain ⟨table, iter, state⟩ := r
  cases iter with
  | none => exact ⟨fun _ => by simp [encodeRest, lastTable], fun h => absurd h (Nat.not_lt_zero _)⟩
  | some iter =>
    have hfuel := iter.length_fields_le
    exact encodeIter_spec len _ (by omega)

/-- A call with a non-empty destination writes what is pending, as far as it fits. -/
theorem encode_spec (r : ReprEncoder) (hlen : 0 < len) :
    Wrote useHuffman len (Dst.new len) (r.pending useHuffman) (r.lastTable useHuffman) (r.encode useHuffman len) := by
  obtain ⟨table, iter, state⟩ := r
  cases state with
  | none =>
    rw [encode, if_neg hlen.ne']
    exact encodeRest_spec ⟨table, iter, none⟩ len (Dst.new len)
  | some s =>
    have hwrites := s.writes_encode
    by_cases hfit : s.octets.length ≤ len
    · have hencode : encode ⟨table, iter, some s⟩ useHuffman len =
          encodeRest ⟨table, iter, some s⟩ useHuffman len ((Dst.new len).push s.octets) := by
        rw [encode, if_neg hlen.ne']
        simp only [hwrites.all (Dst.new len) hfit]
      rw [hencode]
      exact (encodeRest_spec ⟨table, iter, some s⟩ len _).after hfit
    · obtain ⟨s', herr, hrest⟩ := hwrites.part (Dst.new len) (Nat.lt_of_not_le hfit)
      have hencode : encode ⟨table, iter, some s⟩ useHuffman len =
          .ok len (⟨table, iter, some s'⟩, (Dst.new len).push (s.octets.take (Dst.new len : Dst UInt8).room)) := by
        rw [encode, if_neg hlen.ne']
        simp only [herr]
      rw [hencode]
      exact wrote_of_part iter (Nat.lt_of_not_le hfit) hrest

end ReprEncoder

/-! ### The encoder between calls -/

structure ReprEncStateHolder where
  iter : Option PartsIter
  state : Option ReprEncodeState

namespace ReprEncStateHolder

def new : ReprEncStateHolder := ⟨none, none⟩

def isEmpty (holder : ReprEncStateHolder) : Bool := holder.iter.isNone && holder.state.isNone

end ReprEncStateHolder

structure HpackEncoder where
  table : DynamicTable
  holder : ReprEncStateHolder
  useHuffman : Bool

namespace HpackEncoder

def new (maxSize : Nat) (useHuffman : Bool) : HpackEncoder :=
  ⟨.withMaxSize maxSize, .new, useHuffman⟩

def setParts (e : HpackEncoder) (parts : Parts) : HpackEncoder :=
  { e with holder := { e.holder with iter := some (.new parts) } }

/-- `encode` into a buffer of length `len`: the number of bytes it returns and the
bytes it has written. -/
def encode (e : HpackEncoder) (len : Nat) : Outcome HpackEncoder Empty (Nat × List UInt8) :=
  match ReprEncoder.encode ⟨e.table, e.holder.iter, e.holder.state⟩ e.useHuffman len with
  | .ok size (r, dst) =>
    if size = len then
      .ok (size, dst.items) { e with table := r.table, holder := ⟨r.iter, r.state⟩ }
    else .ok (size, dst.items) { e with table := r.table, holder := .new }
  | .panic => .panic

def isFinished (e : HpackEncoder) : Bool := e.holder.isEmpty

/-- The bytes of the block that are still to be written. -/
def pending (e : HpackEncoder) : List UInt8 :=
  ReprEncoder.pending e.useHuffman ⟨e.table, e.holder.iter, e.holder.state⟩

/-- The dynamic table at the end of the block. -/
def lastTable (e : HpackEncoder) : DynamicTable :=
  ReprEncoder.lastTable e.useHuffman ⟨e.table, e.holder.iter, e.holder.state⟩

/-- A finished encoder stands at the end of its block. -/
theorem eq_of_isFinished {e : HpackEncoder} (h : e.isFinished = true) :
    e = ⟨e.lastTable, .new, e.useHuffman⟩ ∧ e.pending = [] := by
  obtain ⟨table, ⟨iter, state⟩, useHuffman⟩ := e
  simp only [isFinished, ReprEncStateHolder.isEmpty, Bool.and_eq_true, Option.isNone_iff_eq_none] at h
  obtain ⟨rfl, rfl⟩ := h
  exact ⟨rfl, rfl⟩

/-- One call: the bytes written are those pending, as far as they fit. -/
theorem encode_spec (e : HpackEncoder) {len : Nat} (hlen : 0 < len) :
    ∃ e' : HpackEncoder, e.encode len = .ok (min e.pending.length len, e.pending.take len) e' ∧
      e'.pending = e.pending.drop len ∧ e'.lastTable = e.lastTable ∧
      e'.useHuffman = e.useHuffman ∧ (e'.isFinished = true ↔ e.pending.length ≤ len) := by
  have hspec : ReprEncoder.Wrote e.useHuffman len (Dst.new len) e.pending e.lastTable
      (ReprEncoder.encode ⟨e.table, e.holder.iter, e.holder.state⟩ e.useHuffman len) :=
    ReprEncoder.encode_spec _ hlen
  by_cases hfit : e.pending.length ≤ len
  · have hall := hspec.all hfit
    refine ⟨⟨e.lastTable, .new, e.useHuffman⟩, ?_, ?_, rfl, rfl, ?_⟩
    · rw [encode, hall, min_eq_left hfit, take_of_length_le hfit]
      by_cases heq : e.pending.length = len <;> simp [Dst.new, pending, lastTable, ReprEncStateHolder.new]
    · rw [drop_eq_nil_of_le hfit]
      rfl
    · exact ⟨fun _ => hfit, fun _ => rfl⟩
  · obtain ⟨r, hout, hpending, htable, hstate⟩ := hspec.part (Nat.lt_of_not_le hfit)
    refine ⟨⟨r.table, ⟨r.iter, r.state⟩, e.useHuffman⟩, ?_, hpending, htable, rfl, ?_⟩
    · rw [encode, hout, min_eq_right (Nat.le_of_not_le hfit)]
      simp [Dst.new, pending]
    · refine ⟨fun hfin => ?_, fun h => absurd h hfit⟩
      simp only [isFinished, ReprEncStateHolder.isEmpty, Bool.and_eq_true, Option.isNone_iff_eq_none] at hfin
      exact absurd hfin.2 hstate

/-! ### Writing a block through buffers -/

/-- Call `encode` with the buffers `buffer i`, `buffer (i + 1)`, … until the
encoder is finished. -/
def drive (buffer : Nat → Nat) : Nat → Nat → HpackEncoder → Outcome HpackEncoder Empty (List UInt8)
  | 0, _, _ => .panic
  | fuel + 1, i, e =>
    if e.isFinished then .ok [] e
    else
      match e.encode (buffer i) with
      | .ok (_, bytes) e =>
        match drive buffer fuel (i + 1) e with
        | .ok rest e => .ok (bytes ++ rest) e
        | .panic => .panic
      | .panic => .panic

/-- However the buffers are chosen, the bytes are those pending at the start. -/
theorem drive_eq {buffer : Nat → Nat} (hpos : ∀ i, 0 < buffer i) (fuel : Nat) :
    ∀ {i : Nat} {e e' : HpackEncoder} {bytes : List UInt8}, drive buffer fuel i e = .ok bytes e' →
      bytes = e.pending ∧ e' = ⟨e.lastTable, .new, e.useHuffman⟩ := by
  induction fuel with
  | zero =>
    rintro i e e' bytes ⟨⟩
  | succ fuel ih =>
    intro i e e' bytes h
    rw [drive] at h
    split_ifs at h with hfin
    · cases h
      obtain ⟨heq, hnil⟩ := eq_of_isFinished hfin
      exact ⟨hnil.symm, heq⟩
    · obtain ⟨e₁, hstep, hpending, htable, hhuffman, -⟩ := e.encode_spec (hpos i)
      rw [hstep] at h
      simp only at h
      cases hrest : drive buffer fuel (i + 1) e₁ with
      | ok rest e₂ =>
        rw [hrest] at h
        cases h
        obtain ⟨rfl, rfl⟩ := ih hrest
        exact ⟨by rw [hpending, take_append_drop], by rw [htable, hhuffman]⟩
      | err e _ => exact nomatch e
      | panic =>
        rw [hrest] at h
        cases h

/-- Enough calls finish the block. -/
theorem drive_finishes {buffer : Nat → Nat} (hpos : ∀ i, 0 < buffer i) (fuel : Nat) :
    ∀ {i : Nat} {e : HpackEncoder}, e.pending.length + 1 < fuel → ∃ bytes e', drive buffer fuel i e = .ok bytes e' := by
  induction fuel with
  | zero =>
    intro i e h
    exact absurd h (Nat.not_lt_zero _)
  | succ fuel ih =>
    intro i e h
    rw [drive]
    by_cases hfin : e.isFinished = true
    · exact ⟨[], e, if_pos hfin⟩
    · obtain ⟨e₁, hstep, hpending, -, -, hdone⟩ := e.encode_spec (hpos i)
      rw [if_neg hfin, hstep]
      by_cases hfit : e.pending.length ≤ buffer i
      · cases fuel with
        | zero => omega
        | succ fuel =>
          simp only [drive, hdone.mpr hfit, ↓reduceIte]
          exact ⟨_, _, rfl⟩
      · have hless : e₁.pending.length + 1 < fuel := by
          have := hpos i
          rw [hpending, length_drop]
          omega
        obtain ⟨rest, e₂, hrest⟩ := ih (i := i + 1) hless
        simp only [hrest]
        exact ⟨_, _, rfl⟩

/-- Setting the parts of an idle encoder makes their block pending. -/
theorem pending_setParts (table : DynamicTable) (useHuffman : Bool) (parts : Parts) :
    (setParts ⟨table, .new, useHuffman⟩ parts).pending = (block useHuffman table parts.fields).1 ∧
      (setParts ⟨table, .new, useHuffman⟩ parts).lastTable = (block useHuffman table parts.fields).2 :=
  ⟨rfl, rfl⟩

end HpackEncoder

end YlongHttp.H2.Hpack
