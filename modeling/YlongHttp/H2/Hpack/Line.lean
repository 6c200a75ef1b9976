/-
What a representation does to the decoder.

Under a dynamic table a representation names a field, which then passes the charge
to the header list, may enter the table and is added to the parts; or it changes the
size of the table; or it names nothing. `Line` are these three cases, and
`update_eq_apply` says that the updater does nothing else.
-/

import YlongHttp.H2.Hpack.Decoder

namespace YlongHttp.H2.Hpack

open Rust Method

/-- What a representation stands for, with the dynamic table that it leaves. -/
inductive Line where
  | field (f : Field) (table : DynamicTable)
  | resize (table : DynamicTable)
  | unknown

def Name.resolve (table : DynamicTable) : Name → Option Header
  | .index i => TableSearcher.searchHeaderName table i
  | .literal octets => some (.other octets)

def Representation.line (table : DynamicTable) : Representation → Line
  | .indexed index =>
    match TableSearcher.searchHeader table index with
    | some f => .field f table
    | none => .unknown
  | .literalWithIndexing name value =>
    match name.resolve table with
    | some h => .field (h, value) (table.update h value)
    | none => .unknown
  | .literalWithoutIndexing name value | .literalNeverIndexed name value =>
    match name.resolve table with
    | some h => .field (h, value) table
    | none => .unknown
  | .sizeUpdate maxSize => .resize (table.updateSize maxSize)

/-- The decoder with a field charged to the header list. -/
def HpackDecoder.charge (d : HpackDecoder) (f : Field) : HpackDecoder :=
  { d with lines := { d.lines with headerSize := d.lines.headerSize + f.size } }

def Line.apply : Line → Method HpackDecoder H2Error Unit
  | .field f table => fun d =>
    if d.lines.headerSize + f.size < usizeSize then
      if d.headerListSize < d.lines.headerSize + f.size then
        .err (.connectionError .connectError) (d.charge f)
      else
        match d.lines.parts.update f.1 f.2 with
        | some parts =>
          .ok () { d with table := table, lines := ⟨parts, d.lines.headerSize + f.size⟩ }
        | none => .panic
    else .panic
  | .resize table => modify fun d => { d with table := table }
  | .unknown => throw (.connectionError .compressionError)

theorem checkHeaderListSize_apply (f : Field) (d : HpackDecoder) : Updater.checkHeaderListSize f d =
      if d.lines.headerSize + f.size < usizeSize then if d.headerListSize < d.lines.headerSize + f.size then
          .err (.connectionError .connectError) (d.charge f) else .ok () (d.charge f) else .panic := by
  simp only [Updater.checkHeaderListSize, Updater.updateSize, bind_apply]
  split
  · simp only [Outcome.bind_ok, get_apply, Method.ite_apply, throw_apply, pure_apply, gt_iff_lt]
    rfl
  · rfl

theorem checkHeaderListSize_bind (f : Field) (next : Method HpackDecoder H2Error Unit) (d : HpackDecoder) :
    (Updater.checkHeaderListSize f >>= fun _ => next) d = if d.lines.headerSize + f.size < usizeSize then
        if d.headerListSize < d.lines.headerSize + f.size then .err (.connectionError .connectError) (d.charge f)
        else next (d.charge f) else .panic := by
  rw [bind_apply, checkHeaderListSize_apply]
  split
  · split <;> rfl
  · rfl

theorem getHeaderByNameAndValue_apply (name : Name) (value : List UInt8) (d : HpackDecoder) :
    Updater.getHeaderByNameAndValue name value d = match name.resolve d.table with
      | some h => .ok (h, value) d
      | none => .err (.connectionError .compressionError) d := by
  cases name with
  | literal octets => rfl
  | index index =>
    simp only [Updater.getHeaderByNameAndValue, get_bind, Name.resolve]
    cases TableSearcher.searchHeaderName d.table index <;> rfl

/-- The updater does what the representation stands for. -/
theorem update_eq_apply (repr : Representation) (d : HpackDecoder) :
    Updater.update repr d = (repr.line d.table).apply d := by
  have hplain : ∀ f : Field, (Updater.checkHeaderListSize f >>= fun _ => Updater.updateParts f :
      Method HpackDecoder H2Error Unit) d = (Line.field f d.table).apply d :=
    fun f => checkHeaderListSize_bind f _ d
  have hwithout : ∀ (name : Name) (value : List UInt8),
      Updater.updateLiteralWithoutIndexing name value d =
        ((Representation.literalWithoutIndexing name value).line d.table).apply d := by
    intro name value
    rw [Updater.updateLiteralWithoutIndexing, bind_apply, getHeaderByNameAndValue_apply, Representation.line]
    cases name.resolve d.table with
    | none => rfl
    | some h => exact hplain (h, value)
  cases repr with
  | indexed index =>
    simp only [Updater.update, Updater.updateIndexed, get_bind, Representation.line]
    cases TableSearcher.searchHeader d.table index with
    | none => rfl
    | some f => exact hplain f
  | literalWithIndexing name value =>
    rw [Updater.update, Updater.updateLiteralWithIndexing, bind_apply,
      getHeaderByNameAndValue_apply, Representation.line]
    cases name.resolve d.table with
    | none => rfl
    | some h => exact checkHeaderListSize_bind (h, value) _ d
  | literalWithoutIndexing name value | literalNeverIndexed name value => exact hwithout name value
  | sizeUpdate maxSize => rfl

variable {f : Field} {table : DynamicTable} {d : HpackDecoder}

/-- A field that is taken changes the table, the size and the parts. -/
theorem Line.apply_field_ok {d' : HpackDecoder} {u : Unit} (h : (Line.field f table).apply d = .ok u d') :
    ∃ parts, d.lines.parts.update f.1 f.2 = some parts ∧
      d' = { d with table := table, lines := ⟨parts, d.lines.headerSize + f.size⟩ } := by
  simp only [Line.apply] at h
  split at h
  · split at h
    · cases h
    · split at h
      · rename_i parts hparts
        cases h
        exact ⟨parts, hparts, rfl⟩
      · cases h
  · cases h

/-- A field is fatal if the size of the header list overflows, or if it fits but the
parts refuse it. -/
theorem Line.apply_field_eq_panic : (Line.field f table).apply d = .panic ↔
      ¬ (d.lines.headerSize + f.size < usizeSize ∧
        (d.lines.headerSize + f.size ≤ d.headerListSize → Parts.Accepts f)) := by
  simp only [Line.apply]
  split_ifs with hsum hover
  · simp [hsum, Nat.not_le.mpr hover]
  · by_cases haccepts : Parts.Accepts f
    · obtain ⟨parts, hparts⟩ := Parts.update_of_accepts haccepts d.lines.parts
      simp [hparts, hsum, haccepts]
    · simp [Parts.update_of_not_accepts haccepts, hsum, haccepts, Nat.le_of_not_lt hover]
  · simp [hsum]

end YlongHttp.H2.Hpack
