/-
What instructions and field lines refer to.

A reference into a table finds something, finds nothing, or does not get as far: the
subtraction that makes the index absolute or takes the evicted entries off underflows, or the
sum with the Base overflows. `Found` are these cases. `apply_eq` and `search_eq` say that the
updater and the searcher do nothing but what is found demands.
-/

import YlongHttp.H3.Qpack.Decoder

namespace YlongHttp.H3.Qpack

open Rust Method
open YlongHttp.H2 (Parts)
open H2.Hpack (Name usizeSize)

inductive Found (α : Type) where
  | found (a : α)
  | unknown
  | fault
deriving DecidableEq, Repr

namespace Found

variable {α β σ : Type}

def ofOption : Option α → Found α
  | some a => .found a
  | none => .unknown

def map (g : α → β) : Found α → Found β
  | .found a => .found (g a)
  | .unknown => .unknown
  | .fault => .fault

/-- What is found is returned, and what is not found is the error `e`. -/
def get (e : QpackError) : Found α → Method σ QpackError α
  | .found a => pure a
  | .unknown => throw e
  | .fault => Method.panicked

theorem ofOption_ne_fault (x : Option α) : ofOption x ≠ .fault := by
  cases x <;> simp [ofOption]

theorem okOr_eq (e : QpackError) (x : Option α) : (okOr e x : Method σ QpackError α) = (ofOption x).get e := by
  cases x <;> rfl

end Found

/-! ### References -/

namespace DynamicTable

/-- The entry of an absolute index. -/
def find (t : DynamicTable) (index : Nat) : Found Field :=
  if t.removeCount ≤ index then .ofOption (t.queue[index - t.removeCount]?.map DynamicField.field)
  else .fault

/-- The entry `index + 1` below `count`. -/
def relative (t : DynamicTable) (count index : Nat) : Found Field :=
  if index < count then t.find (count - index - 1) else .fault

/-- The entry `index` above the Base. -/
def postBase (t : DynamicTable) (base index : Nat) : Found Field :=
  if base + index < usizeSize then t.find (base + index) else .fault

end DynamicTable

def literalName (octets : List UInt8) : Found NameField :=
  if isUtf8 octets then .found (.other octets) else .unknown

/-- The name of a line or an instruction whose index is static or relative to `count`. -/
def Reference.name (t : DynamicTable) (count : Nat) (midBit : MidBit) : Name → Found NameField
  | .index index =>
    if midBit.t = some true then .ofOption (StaticTable.fieldName index)
    else (t.relative count index).map Prod.fst
  | .literal octets => literalName octets

/-- The name of a line whose index is counted from the Base. -/
def Reference.postName (t : DynamicTable) (base : Nat) : Name → Found NameField
  | .index index => (t.postBase base index).map Prod.fst
  | .literal octets => literalName octets

def Found.withValue (value : List UInt8) : Found NameField → Found Field
  | .found name => if isUtf8 value then .found (name, value) else .unknown
  | .unknown => .unknown
  | .fault => .fault

section Lookup

variable {σ : Type} (e : QpackError)

variable (t : DynamicTable) (base count index : Nat)

theorem field_eq : (t.field index >>= okOr e : Method σ QpackError Field) = (t.find index).get e := by
  funext s
  unfold DynamicTable.field DynamicTable.find checkedSub
  split
  · simp only [bind_apply, pure_apply, Outcome.bind_ok, Found.okOr_eq]
  · rfl

theorem fieldName_eq :
    (t.fieldName index >>= okOr e : Method σ QpackError NameField) = ((t.find index).map Prod.fst).get e := by
  funext s
  unfold DynamicTable.fieldName DynamicTable.find checkedSub
  split
  · simp only [bind_apply, pure_apply, Outcome.bind_ok, Found.okOr_eq]
    cases t.queue[index - t.removeCount]? <;> rfl
  · rfl

/-- An index relative to `count` is made absolute before it is looked up. -/
theorem absoluteIndex_bind {α : Type} (next : Nat → Method σ QpackError α) :
    (Updater.absoluteIndex count index >>= next) =
      if index < count then next (count - index - 1) else Method.panicked := by
  funext s
  simp only [Updater.absoluteIndex, bind_apply, checkedSub]
  by_cases hlt : index < count
  · have hone : 1 ≤ count - index := Nat.sub_pos_of_lt hlt
    simp [hlt, le_of_lt hlt, hone]
  · by_cases hle : index ≤ count
    · have hone : ¬ 1 ≤ count - index := by omega
      simp [hlt, hle, hone]
    · simp [hlt, hle]

theorem usizeAdd_bind {α : Type} (next : Nat → Method σ QpackError α) :
    (usizeAdd base index >>= next) = if base + index < usizeSize then next (base + index) else Method.panicked := by
  funext s
  simp only [usizeAdd, bind_apply]
  split <;> rfl

theorem relative_eq :
    (Updater.absoluteIndex count index >>= fun i => t.field i >>= okOr e : Method σ QpackError Field) =
      (t.relative count index).get e := by
  simp only [absoluteIndex_bind, field_eq, DynamicTable.relative]
  split <;> rfl

theorem relativeName_eq :
    (Updater.absoluteIndex count index >>= fun i => t.fieldName i >>= okOr e : Method σ QpackError NameField) =
      ((t.relative count index).map Prod.fst).get e := by
  simp only [absoluteIndex_bind, fieldName_eq, DynamicTable.relative]
  split <;> rfl

theorem postBase_eq : (usizeAdd base index >>= fun i => t.field i >>= okOr e : Method σ QpackError Field) =
      (t.postBase base index).get e := by
  simp only [usizeAdd_bind, field_eq, DynamicTable.postBase]
  split <;> rfl

theorem postName_eq : (usizeAdd base index >>= fun i => t.fieldName i >>= okOr e : Method σ QpackError NameField) =
      ((t.postBase base index).map Prod.fst).get e := by
  simp only [usizeAdd_bind, fieldName_eq, DynamicTable.postBase]
  split <;> rfl

theorem literalName_eq (octets : List UInt8) :
    (H2.Hpack.Header.other <$> fromUtf8 e octets : Method σ QpackError NameField) = (literalName octets).get e := by
  unfold fromUtf8 literalName
  split <;> rfl

/-- The value is checked after the name has been found. -/
theorem withValue_eq (value : List UInt8) (x : Found NameField) :
    (x.get e >>= fun h => fromUtf8 e value >>= fun v => pure (h, v) : Method σ QpackError Field) =
      (x.withValue value).get e := by
  cases x with
  | found name =>
    unfold Found.withValue fromUtf8
    split <;> rfl
  | unknown | fault => rfl

end Lookup

/-! ### Encoder instructions -/

/-- What an instruction asks of the table. -/
inductive Effect where
  | insert (f : Field)
  | resize (capacity : Nat)
  | refused (e : QpackError)
  | fault

def Found.effect : Found Field → Effect
  | .found f => .insert f
  | .unknown => .refused Updater.encoderStreamError
  | .fault => .fault

def EncoderInstruction.effect (maxTableCapacity : Nat) (t : DynamicTable) : EncoderInstruction → Effect
  | .setCap capacity =>
    if capacity > maxTableCapacity then .refused decompressionFailed else .resize capacity
  | .insertWithIndex midBit name value | .insertWithLiteral midBit name value =>
    ((Reference.name t t.insertCount midBit name).withValue value).effect
  | .duplicate index => (t.relative t.insertCount index).effect

def Effect.apply : Effect → Method DynamicTable QpackError Unit
  | .insert f => modify fun t => t.update f.1 f.2
  | .resize capacity => modify fun t => t.updateSize capacity
  | .refused e => throw e
  | .fault => Method.panicked

variable {σ : Type} {repr : Representation} {s : Searcher} {f : Field} {lines : FiledLines}

theorem getFieldByNameAndValue_eq (t : DynamicTable) (midBit : MidBit) (name : Name) (value : List UInt8) :
    (Updater.getFieldByNameAndValue t midBit name value : Method σ QpackError Field) =
      ((Reference.name t t.insertCount midBit name).withValue value).get Updater.encoderStreamError := by
  rw [← withValue_eq]
  unfold Updater.getFieldByNameAndValue Reference.name
  cases name with
  | literal octets => rw [← literalName_eq]
  | index index =>
    dsimp only
    split
    · rw [Found.okOr_eq]
    · simp only [← relativeName_eq, bind_bind]

theorem effect_apply (x : Found Field) :
    (x.get Updater.encoderStreamError >>= fun f => modify fun t => t.update f.1 f.2 :
      Method DynamicTable QpackError Unit) = x.effect.apply := by
  cases x <;> rfl

/-- The updater does what the instruction asks. -/
theorem apply_eq (maxTableCapacity : Nat) (inst : EncoderInstruction) (t : DynamicTable) :
    Updater.apply maxTableCapacity inst t = (inst.effect maxTableCapacity t).apply t := by
  have hupdate : ∀ midBit name value, Updater.updateTable midBit name value t =
      (((Reference.name t t.insertCount midBit name).withValue value).effect).apply t := by
    intro midBit name value
    rw [← effect_apply, ← getFieldByNameAndValue_eq]
    rfl
  cases inst with
  | setCap capacity =>
    simp only [Updater.apply, EncoderInstruction.effect]
    split <;> rfl
  | insertWithIndex midBit name value | insertWithLiteral midBit name value => exact hupdate midBit name value
  | duplicate index =>
    rw [EncoderInstruction.effect, ← effect_apply, ← relative_eq]
    simp only [Updater.apply, Updater.duplicate, bind_apply, get_apply, Outcome.bind_ok, Outcome.bind_bind]

/-! ### Field lines -/

def Searcher.find (s : Searcher) : Representation → Found Field
  | .fieldSectionPrefix _ _ _ => .unknown
  | .indexed midBit index =>
    if midBit.t = some true then .ofOption (StaticTable.field index) else s.table.relative s.base index
  | .indexedWithPostIndex index => s.table.postBase s.base index
  | .literalWithIndexing midBit name value => (Reference.name s.table s.base midBit name).withValue value
  | .literalWithPostIndexing _ name value | .literalWithLiteralName _ name value =>
    (Reference.postName s.table s.base name).withValue value

/-- The lines that are not charged to the size of the section. -/
def Representation.isIndexed : Representation → Bool
  | .indexed _ _ => true
  | _ => false

def Representation.isPrefix : Representation → Bool
  | .fieldSectionPrefix _ _ _ => true
  | _ => false

/-- A field that was found is charged, unless its line is an indexed one, and added to the
parts. -/
def Searcher.take (s : Searcher) (repr : Representation) (f : Field) : Method FiledLines QpackError Unit := do
  if repr.isIndexed = false then s.checkFieldListSize f
  Searcher.updateParts repr f

theorem searcherField_eq (s : Searcher) (midBit : MidBit) (name : Name) (value : List UInt8) :
    (s.getFieldByNameAndValue midBit name value .literalWithIndexing : Method σ QpackError Field) =
      ((Reference.name s.table s.base midBit name).withValue value).get decompressionFailed := by
  rw [← withValue_eq]
  unfold Searcher.getFieldByNameAndValue Reference.name
  cases name with
  | literal octets => rw [← literalName_eq]
  | index index =>
    simp only [↓reduceIte]
    split
    · rw [Found.okOr_eq]
    · simp only [← relativeName_eq, bind_bind]

theorem searcherPostField_eq (s : Searcher) (midBit : MidBit) (name : Name) (value : List UInt8)
    (kind : ReprPrefixBit) (hkind : kind ≠ .literalWithIndexing) :
    (s.getFieldByNameAndValue midBit name value kind : Method σ QpackError Field) =
      ((Reference.postName s.table s.base name).withValue value).get decompressionFailed := by
  rw [← withValue_eq]
  unfold Searcher.getFieldByNameAndValue Reference.postName
  cases name with
  | literal octets => rw [← literalName_eq]
  | index index =>
    simp only [hkind, ↓reduceIte, ← postName_eq, bind_bind]

/-- The searcher looks the field of a line up and takes it. -/
theorem search_eq (s : Searcher) (hline : repr.isPrefix = false) :
    s.search repr = ((s.find repr).get decompressionFailed >>= s.take repr) := by
  funext lines
  cases repr with
  | fieldSectionPrefix ric signal deltaBase => cases hline
  | indexed midBit index =>
    simp only [Searcher.search, Searcher.searchIndexed, Searcher.find]
    split
    · rw [← Found.okOr_eq]
      rfl
    · rw [← relative_eq]
      simp only [bind_apply, Outcome.bind_bind]
      rfl
  | indexedWithPostIndex index =>
    rw [Searcher.find, ← postBase_eq]
    simp only [Searcher.search, Searcher.searchPostIndexed, bind_apply, Outcome.bind_bind]
    rfl
  | literalWithIndexing midBit name value =>
    rw [Searcher.find, ← searcherField_eq]
    rfl
  | literalWithPostIndexing midBit name value =>
    rw [Searcher.find, ← searcherPostField_eq s midBit name value .literalWithPostIndexing (by decide)]
    rfl
  | literalWithLiteralName midBit name value =>
    rw [Searcher.find, ← searcherPostField_eq s midBit name value .literalWithLiteralName (by decide)]
    rfl

/-! ### Taking a field -/

/-- What a line is charged. -/
def Representation.charge (repr : Representation) (f : Field) : Nat := if repr.isIndexed then 0 else f.size

/-- The lines after a field has been taken. -/
def FiledLines.taken (lines : FiledLines) (repr : Representation) (f : Field) (parts : H2.Parts) : FiledLines :=
  ⟨parts, lines.headerSize + repr.charge f, lines.decoded ++ [(repr, f)]⟩

theorem checkFieldListSize_apply (s : Searcher) (f : Field) (lines : FiledLines) : s.checkFieldListSize f lines =
      if lines.headerSize + f.size < usizeSize then if s.maxFieldSectionSize < lines.headerSize + f.size then
          .err decompressionFailed { lines with headerSize := lines.headerSize + f.size }
        else .ok () { lines with headerSize := lines.headerSize + f.size } else .panic := by
  simp only [Searcher.checkFieldListSize, Searcher.updateSize, bind_apply, get_apply, Outcome.bind_ok, usizeAdd]
  split
  · simp only [pure_apply, Outcome.bind_ok, set_apply, Method.ite_apply, throw_apply, gt_iff_lt]
  · rfl

variable {lines' : FiledLines} {u : Unit}

/-- A field is taken exactly if the limit allows what it is charged and the parts accept it. -/
theorem take_eq_ok : s.take repr f lines = .ok u lines' ↔
      ∃ parts, lines.parts.update f.1 f.2 = some parts ∧ lines' = lines.taken repr f parts ∧ (repr.isIndexed = false →
          lines'.headerSize < usizeSize ∧ lines'.headerSize ≤ s.maxFieldSectionSize) := by
  cases hindexed : repr.isIndexed with
  | true =>
    simp only [Searcher.take, hindexed, Bool.true_eq_false, ↓reduceIte, Searcher.updateParts, FiledLines.taken, Representation.charge, add_zero,
      false_implies, and_true]
    cases lines.parts.update f.1 f.2 with
    | none => simp
    | some parts =>
      simp only [Outcome.ok.injEq, true_and, Option.some.injEq, exists_eq_left']
      exact eq_comm
  | false =>
    simp only [Searcher.take, hindexed, ↓reduceIte, bind_apply, checkFieldListSize_apply,
      FiledLines.taken, Representation.charge, Bool.false_eq_true, true_implies]
    split_ifs with hsum hover
    · constructor
      · rintro ⟨⟩
      · rintro ⟨parts, -, rfl, -, hle⟩
        exact absurd hover (not_lt.mpr hle)
    · simp only [Outcome.bind_ok, Searcher.updateParts]
      cases lines.parts.update f.1 f.2 with
      | none => simp
      | some parts =>
        constructor
        · rintro ⟨⟩
          exact ⟨parts, rfl, rfl, hsum, Nat.le_of_not_lt hover⟩
        · rintro ⟨parts', hparts, rfl, -⟩
          cases hparts
          rfl
    · constructor
      · rintro ⟨⟩
      · rintro ⟨parts, -, rfl, hlt, -⟩
        exact absurd hlt hsum

/-- A field that does no harm: its charge does not overflow, and the parts accept it if the
limit does not refuse it before. -/
structure Harmless (s : Searcher) (repr : Representation) (f : Field) (lines : FiledLines) : Prop where
  sum : repr.isIndexed = false → lines.headerSize + f.size < usizeSize
  accepts : (repr.isIndexed = false → lines.headerSize + f.size ≤ s.maxFieldSectionSize) → Parts.Accepts f

theorem updateParts_eq_panic : Searcher.updateParts repr f lines = .panic ↔ ¬ Parts.Accepts f := by
  unfold Searcher.updateParts
  by_cases haccepts : Parts.Accepts f
  · obtain ⟨parts, hparts⟩ := Parts.update_of_accepts haccepts lines.parts
    simp [hparts, haccepts]
  · simp [Parts.update_of_not_accepts haccepts, haccepts]

theorem take_eq_panic : s.take repr f lines = .panic ↔ ¬ Harmless s repr f lines := by
  cases hindexed : repr.isIndexed with
  | true =>
    have hharmless : Harmless s repr f lines ↔ Parts.Accepts f :=
      ⟨fun h => h.accepts fun hfalse => absurd (hindexed.symm.trans hfalse) (by decide),
        fun h => ⟨fun hfalse => absurd (hindexed.symm.trans hfalse) (by decide), fun _ => h⟩⟩
    simp only [Searcher.take, hindexed, Bool.true_eq_false, ↓reduceIte, updateParts_eq_panic, hharmless]
  | false =>
    have hharmless : Harmless s repr f lines ↔ lines.headerSize + f.size < usizeSize ∧
        (lines.headerSize + f.size ≤ s.maxFieldSectionSize → Parts.Accepts f) :=
      ⟨fun h => ⟨h.sum hindexed, fun hle => h.accepts fun _ => hle⟩,
        fun h => ⟨fun _ => h.1, fun hle => h.2 (hle hindexed)⟩⟩
    rw [hharmless]
    simp only [Searcher.take, hindexed, ↓reduceIte, bind_apply, checkFieldListSize_apply]
    split_ifs with hsum hover
    · simp [hsum, not_le.mpr hover]
    · simp [hsum, Nat.le_of_not_lt hover, updateParts_eq_panic]
    · simp [hsum]

/-- A line that is searched is one whose field is found and taken. -/
theorem search_eq_ok (hline : repr.isPrefix = false) :
    s.search repr lines = .ok u lines' ↔ ∃ f, s.find repr = .found f ∧ s.take repr f lines = .ok u lines' := by
  rw [search_eq s hline, bind_apply]
  cases s.find repr with
  | found f =>
    simp only [Found.get, pure_apply, Outcome.bind_ok, Found.found.injEq, exists_eq_left']
  | unknown | fault => simp [Found.get]

/-- A line panics if its reference does, or if its field does harm. -/
theorem search_eq_panic (hline : repr.isPrefix = false) : s.search repr lines = .panic ↔
      s.find repr = .fault ∨ ∃ f, s.find repr = .found f ∧ ¬ Harmless s repr f lines := by
  rw [search_eq s hline]
  cases s.find repr with
  | found f => simp [Found.get, take_eq_panic]
  | unknown | fault => simp [Found.get]

end YlongHttp.H3.Qpack
