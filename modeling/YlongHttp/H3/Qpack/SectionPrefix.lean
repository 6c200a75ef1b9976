/-
The prefix of a section, from the encoder to the decoder.

The Required Insert Count travels modulo twice the number of entries that fit into the table, and
the decoder finds it again from the insertions it has seen (`requireInsertCount_wire`). The encoder
passes the largest reference on as a number and takes 0 for "no reference", so that a section that
refers to the entry 0 alone announces no insertion at all. Every other prefix is read back:
`prefixReturns_iff`.
-/

import YlongHttp.H3.Qpack.Encoder
import YlongHttp.H3.Qpack.RoundTrip

namespace YlongHttp.H3.Qpack

open Rust
open H2.Hpack (usizeSize)

/-- In front of lines, a decoder with the table reads `start` as a prefix with these numbers. -/
def PrefixReads (table : DynamicTable) (start : List UInt8) (required base : Nat) : Prop :=
  ∀ content, content ≠ [] → ∃ encoded signal deltaBase,
    ReprDecoder.decode ⟨start ++ content, none⟩ =
      .ok (some (.fieldSectionPrefix encoded signal deltaBase)) ⟨content, some (.reprIndex .firstByte)⟩ ∧
    requireInsertCount table encoded = some required ∧ sectionBase required signal deltaBase = some base

/-- The prefix that an encoder with the table `t` writes for a Required Insert Count is read back
with its Base, and so is the prefix for no reference. -/
def PrefixReturns (r : ReprEncoder) (t table : DynamicTable) (required : Nat) : Prop :=
  ∀ e, (∃ start, r.getPrefix t (required - 1) e = .ok start e ∧ PrefixReads table start required r.base) ∧
    ∃ start base, r.getPrefix t 0 e = .ok start e ∧ PrefixReads table start 0 base

variable {r : ReprEncoder} {t table : DynamicTable} {required : Nat}

/-- The count is the only one with its remainder among those the decoder can expect. -/
theorem requireInsertCount_wire (hpos : 0 < required) (hlow : table.insertCount < required + table.maxEntries)
    (hhigh : required ≤ table.insertCount + table.maxEntries) :
    requireInsertCount table (required % (2 * table.maxEntries) + 1) = some required := by
  obtain ⟨range, hrange⟩ : ∃ range, range = 2 * table.maxEntries := ⟨_, rfl⟩
  obtain ⟨top, htop⟩ : ∃ top, top = table.insertCount + table.maxEntries := ⟨_, rfl⟩
  have hmod : required % range < range := Nat.mod_lt _ (by omega)
  have hsplit : range * (required / range) + required % range = required := Nat.div_add_mod _ _
  have hsplit' : range * (top / range) + top % range = top := Nat.div_add_mod _ _
  have hle : required / range ≤ top / range := Nat.div_le_div_right (htop ▸ hhigh)
  have hge : top / range ≤ required / range + 1 := by
    rw [← Nat.add_div_right _ (Nat.zero_lt_of_lt hmod)]
    exact Nat.div_le_div_right (by omega)
  simp only [requireInsertCount, ← hrange, ← htop, Nat.mul_comm (top / range)]
  rw [if_neg (Nat.succ_ne_zero _), if_neg (Nat.not_lt.mpr hmod)]
  -- the largest count is in the same range as the required one, or in the next one
  rcases Nat.lt_or_eq_of_le hle with hnext | hsame
  · have hmul : range * (top / range) = range * (required / range) + range := by
      rw [Nat.le_antisymm hge hnext, Nat.mul_succ]
    rw [if_pos (by omega), if_neg (by omega), if_neg (by omega)]
    congr 1
    omega
  · rw [← hsame] at hsplit' ⊢
    rw [if_neg (by omega), if_neg (by omega)]
    congr 1

theorem getPrefix_eq {maxRef : Nat} (hentries : 0 < t.maxEntries) (href : maxRef ≠ 0) (e : Encoding) :
    ∃ signal deltaBase, deltaBase ≤ max r.base maxRef ∧
      r.getPrefix t maxRef e = .ok (prefixOctets ((maxRef + 1) % (2 * t.maxEntries) + 1) signal deltaBase) e ∧
      (r.base < usizeSize → sectionBase (maxRef + 1) signal deltaBase = some r.base) := by
  simp only [ReprEncoder.getPrefix, if_pos href, if_neg (Nat.ne_of_gt hentries)]
  by_cases hbase : r.base ≥ maxRef + 1
  · refine ⟨false, r.base - (maxRef + 1), by omega, by rw [if_pos hbase]; rfl, fun hsize => ?_⟩
    simp only [sectionBase, Bool.false_eq_true, ↓reduceIte, Nat.add_sub_cancel' hbase, if_pos hsize]
  · refine ⟨true, maxRef + 1 - r.base - 1, by omega, by rw [if_neg hbase]; rfl, fun _ => ?_⟩
    simp only [sectionBase, ↓reduceIte]
    rw [if_pos (by omega)]
    congr 1
    omega

theorem prefixReads_none : PrefixReads table (prefixOctets 0 false 0) 0 0 := by
  intro content hcontent
  exact ⟨0, false, 0, decode_prefixOctets false (by decide) (by decide) hcontent, rfl, rfl⟩

theorem not_prefixReads_none {base : Nat} (hpos : 0 < required) :
    ¬ PrefixReads table (prefixOctets 0 false 0) required base := by
  intro h
  obtain ⟨encoded, signal, deltaBase, hread, hrequired, -⟩ := h [0] (List.cons_ne_nil _ _)
  cases hread
  cases hrequired
  exact absurd hpos (Nat.lt_irrefl 0)

/-- The prefix of a section returns exactly if the section needs more than the first insertion. -/
theorem prefixReturns_iff (hsize : t.capacity < usizeSize) (hentries : 1 ≤ t.maxEntries)
    (hcapacity : table.capacity = t.capacity) (hpos : 1 ≤ required) (hrequired : required < usizeSize)
    (hbase : r.base < usizeSize) (hlow : table.insertCount < required + t.maxEntries)
    (hhigh : required ≤ table.insertCount + t.maxEntries) : PrefixReturns r t table required ↔ required ≠ 1 := by
  have hnone : ∀ e, r.getPrefix t 0 e = .ok (prefixOctets 0 false 0) e := fun _ => rfl
  have hsame : table.maxEntries = t.maxEntries := by
    rw [DynamicTable.maxEntries, hcapacity, DynamicTable.maxEntries]
  constructor
  · rintro h rfl
    obtain ⟨start, hstart, hread⟩ := (h ⟨t, [], [], []⟩).1
    cases hstart
    exact not_prefixReads_none Nat.one_pos hread
  · intro hne e
    refine ⟨?_, _, 0, hnone e, prefixReads_none⟩
    obtain ⟨maxRef, rfl⟩ := Nat.exists_eq_add_of_le' hpos
    obtain ⟨signal, deltaBase, hdelta, hwrite, hread⟩ := getPrefix_eq (r := r) hentries (Nat.succ_ne_succ_iff.mp hne) e
    refine ⟨_, hwrite, fun content hcontent => ?_⟩
    have hmod : (maxRef + 1) % (2 * t.maxEntries) < 2 * t.maxEntries := Nat.mod_lt _ (by omega)
    have hfits : 2 * t.maxEntries < usizeSize := by
      rw [DynamicTable.maxEntries]
      omega
    refine ⟨_, signal, deltaBase, decode_prefixOctets signal (by omega) (by omega) hcontent, ?_, hread hbase⟩
    rw [← hsame] at hlow hhigh ⊢
    exact requireInsertCount_wire hpos hlow hhigh

/-- A table for two entries after one insertion. -/
def oneInserted : DynamicTable := { DynamicTable.withEmpty with capacity := 64 }.update .authority []

/-- A section with one line, which refers to the entry 0. -/
theorem prefix_of_first_entry_is_lost : ¬ PrefixReturns ⟨1, false, true⟩ oneInserted oneInserted 1 := by
  intro h
  obtain ⟨start, hstart, hread⟩ := (h ⟨oneInserted, [], [], []⟩).1
  cases hstart
  exact not_prefixReads_none Nat.one_pos hread

theorem prefixReturns_second_entry : PrefixReturns ⟨1, false, true⟩ oneInserted oneInserted 2 :=
  (prefixReturns_iff (by decide) (by decide) rfl (by decide) (by decide) (by decide) (by decide) (by decide)).mpr
    (by decide)

end YlongHttp.H3.Qpack
