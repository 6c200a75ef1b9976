/-
When the HPACK decoder panics.

Reading representations never panics (`reads_decode`), so the only panics are those
of applying one: the charge to the size of the header list overflows, or the header
map refuses the field. `charges` are the fields a call comes to with the sizes they
bring the header list to, and `decode_eq_panic` says that a call panics exactly
if one of them is not `Harmless`.
-/

import YlongHttp.Codec.Reader
import YlongHttp.H2.Hpack.Line
import YlongHttp.Rust.Run

namespace YlongHttp.H2.Hpack

open Rust Codec Method Outcome

/-! ### Reading representations -/

/-- Readers of representations fail only with connection errors. -/
abbrev ReadsRepr {β : Type} (m : Method (List UInt8) H2Error β) : Prop :=
  Reads H2Error.IsConnectionError m

variable {e : H2Error} {buf : List UInt8} {d d' : HpackDecoder}

theorem nextByte_error {int : IntegerDecoder} {byte : UInt8}
    (h : int.nextByte byte = .error e) : e.IsConnectionError := by
  unfold IntegerDecoder.nextByte at h
  split at h
  · cases h
    exact ⟨_, rfl⟩
  · split at h <;> cases h

theorem reads_decodeTrailing (int : IntegerDecoder) : ReadsRepr int.decodeTrailing := by
  have hloop : ∀ (buf : List UInt8) (int : IntegerDecoder),
      Leaves H2Error.IsConnectionError buf.length (int.trailingLoop buf) := by
    intro buf
    induction buf with
    | nil =>
      intro int
      exact .ok le_rfl
    | cons byte buf ih =>
      intro int
      rw [IntegerDecoder.trailingLoop]
      split
      next int' _ => exact (ih int').mono (Nat.le_succ _)
      next => exact .ok (Nat.le_succ _)
      next e he => exact .err (nextByte_error he)
  exact fun buf => hloop buf int

theorem ascii_of_le {s : AsciiStringBytes} (h : s.length ≤ buf.length + s.octets.length) :
    s.decode buf = .ok (.decoded (s.octets ++ buf.take (s.length - s.octets.length)))
      (buf.drop (s.length - s.octets.length)) := by
  have hpos : s.length - s.octets.length ≤ buf.length := by omega
  simp only [AsciiStringBytes.decode, ge_iff_le, h, ↓reduceDIte, bind_apply,
    checkedSub_eq_ok s.octets_le, bind_ok, sliceTo_eq_ok hpos, sliceFrom_eq_ok hpos,
    set_apply, pure_apply]

theorem huffman_of_le {s : HuffmanStringBytes} (h : s.length ≤ buf.length + s.read) : s.decode buf =
      match s.huffman.decode (buf.take (s.length - s.read)) with
      | .error _ => .err (.connectionError .compressionError) buf
      | .ok huffman =>
        match huffman.finish with
        | .ok vec => .ok (.decoded vec) (buf.drop (s.length - s.read))
        | .error _ => .err (.connectionError .compressionError) (buf.drop (s.length - s.read)) := by
  have hpos : s.length - s.read ≤ buf.length := by omega
  simp only [HuffmanStringBytes.decode, ge_iff_le, h, ↓reduceDIte, bind_apply,
    checkedSub_eq_ok s.read_le, bind_ok, sliceTo_eq_ok hpos]
  cases s.huffman.decode (buf.take (s.length - s.read)) with
  | error e => rfl
  | ok huffman =>
    simp only [bind_apply, sliceFrom_eq_ok hpos, bind_ok, set_apply]
    cases huffman.finish <;> rfl

theorem reads_ascii (s : AsciiStringBytes) : ReadsRepr s.decode := by
  intro buf
  by_cases hlen : s.length ≤ buf.length + s.octets.length
  · rw [ascii_of_le hlen]
    exact .ok (by rw [List.length_drop]; exact Nat.sub_le _ _)
  · simp only [AsciiStringBytes.decode, ge_iff_le, hlen, ↓reduceDIte]
    exact .ok (Nat.zero_le _)

theorem reads_huffman (s : HuffmanStringBytes) : ReadsRepr s.decode := by
  intro buf
  by_cases hlen : s.length ≤ buf.length + s.read
  · rw [huffman_of_le hlen]
    split
    · exact .err ⟨_, rfl⟩
    · split
      · exact .ok (by rw [List.length_drop]; exact Nat.sub_le _ _)
      · exact .err ⟨_, rfl⟩
  · simp only [HuffmanStringBytes.decode, ge_iff_le, hlen, ↓reduceDIte]
    split
    · exact .err ⟨_, rfl⟩
    · exact .ok (Nat.zero_le _)

variable (byte : UInt8) (isHuffman : Bool) (inner : IndexInner) (repr : PrefixBit)

theorem reads_decodeOctets (length : Nat) : ReadsRepr (LiteralString.decodeOctets isHuffman length) := by
  cases isHuffman
  · exact reads_ascii _
  · exact reads_huffman _

theorem reads_lengthTrailingBytes (length : IntegerDecoder) :
    ReadsRepr (LengthTrailingBytes.decode isHuffman length) := by
  refine (reads_decodeTrailing length).bind fun r => ?_
  cases r with
  | decoded length => exact reads_decodeOctets isHuffman length
  | needMore length => exact Reads.pure _

theorem reads_lengthFirstByte : ReadsRepr LengthFirstByte.decode := by
  intro buf
  cases buf with
  | nil => exact .ok le_rfl
  | cons byte buf =>
    rw [LengthFirstByte.decode]
    split
    · exact (reads_decodeOctets _ _ buf).mono (Nat.le_succ _)
    · exact (reads_lengthTrailingBytes _ _ buf).mono (Nat.le_succ _)

theorem reads_literalString (s : LiteralString) : ReadsRepr s.decode := by
  cases s with
  | lengthFirstByte => exact reads_lengthFirstByte
  | lengthTrailingBytes isHuffman length => exact reads_lengthTrailingBytes isHuffman length
  | asciiStringBytes s => exact reads_ascii s
  | huffmanStringBytes s => exact reads_huffman s

theorem reads_trailingBytes (index : IntegerDecoder) : ReadsRepr (TrailingBytes.decode repr index) := by
  refine (reads_decodeTrailing index).bind fun r => ?_
  cases r <;> exact Reads.pure _

/-- The first byte of a representation is always taken. -/
theorem firstByte_leaves (buf : List UInt8) :
    Leaves H2Error.IsConnectionError buf.length (FirstByte.decode (byte :: buf)) := by
  rw [FirstByte.decode]
  split
  · exact .ok le_rfl
  · exact reads_trailingBytes _ _ buf

theorem reads_indexInner : ReadsRepr inner.decode := by
  cases inner with
  | trailingBytes repr index => exact reads_trailingBytes repr index
  | firstByte =>
    intro buf
    cases buf with
    | nil => exact .ok le_rfl
    | cons byte buf => exact (firstByte_leaves byte buf).mono (Nat.le_succ _)

theorem reads_valueString (name : Name) (inner : LiteralString) : ReadsRepr (ValueString.decode repr name inner) := by
  refine (reads_literalString inner).bind fun r => ?_
  cases r <;> cases repr <;> exact Reads.pure _

theorem reads_nameString (inner : LiteralString) : ReadsRepr (NameString.decode repr inner) := by
  refine (reads_literalString inner).bind fun r => ?_
  cases r with
  | decoded octets => exact reads_valueString _ _ _
  | needMore inner => exact Reads.pure _

/-- What follows the index only reads on. -/
theorem index_decode_eq : ∃ next, (∀ r, ReadsRepr (next r)) ∧ Index.decode inner = inner.decode >>= next := by
  refine ⟨_, fun r => ?_, rfl⟩
  rcases r with ⟨repr, index⟩ | inner
  · by_cases hzero : index = 0
    · cases repr <;> simp only [hzero, ↓reduceIte]
      · exact Reads.throw ⟨_, rfl⟩
      all_goals first | exact Reads.pure _ | exact reads_nameString _ _
    · cases repr <;> simp only [hzero, ↓reduceIte]
      all_goals first | exact Reads.pure _ | exact reads_valueString _ _ _
  · exact Reads.pure _

theorem reads_index : ReadsRepr (Index.decode inner) := by
  obtain ⟨next, hnext, heq⟩ := index_decode_eq inner
  rw [heq]
  exact (reads_indexInner inner).bind hnext

theorem index_firstByte_leaves (buf : List UInt8) :
    Leaves H2Error.IsConnectionError buf.length (Index.decode .firstByte (byte :: buf)) := by
  obtain ⟨next, hnext, heq⟩ := index_decode_eq .firstByte
  rw [heq]
  exact (firstByte_leaves byte buf).bind hnext

theorem reads_decode (state : ReprDecodeState) : ReadsRepr state.decode := by
  cases state with
  | index inner => exact reads_index inner
  | nameString repr inner => exact reads_nameString repr inner
  | valueString repr name inner => exact reads_valueString repr name inner

/-- The calls of the reader that may still follow: one for each byte, one for a
representation that the saved state completes, and one that finds nothing more. -/
def ReprDecoder.measure (r : ReprDecoder) : Nat :=
  r.buf.length + if r.state.isSome then 2 else 1

theorem reprDecode_ne_panic (r : ReprDecoder) : r.decode ≠ .panic := by
  intro h
  simp only [ReprDecoder.decode] at h
  split at h
  · cases h
  · split at h
    case h_4 hpanic => exact (reads_decode _ _).ne_panic hpanic
    all_goals cases h

theorem reprDecode_error {r r' : ReprDecoder} (h : r.decode = .err e r') : e.IsConnectionError := by
  simp only [ReprDecoder.decode] at h
  split at h
  · cases h
  · split at h
    case h_3 herr =>
      cases h
      exact (herr ▸ reads_decode _ _).error
    all_goals cases h

theorem measure_lt {r r' : ReprDecoder} {repr : Representation}
    (h : r.decode = .ok (some repr) r') : r'.measure < r.measure := by
  obtain ⟨buf, state⟩ := r
  cases buf with
  | nil => cases h
  | cons byte buf =>
    simp only [ReprDecoder.decode, List.isEmpty_cons, Bool.false_eq_true, ↓reduceIte] at h
    split at h
    case h_2 repr' rest hread =>
      cases h
      cases state with
      | none =>
        have hleaves := index_firstByte_leaves byte buf
        rw [show Index.decode .firstByte (byte :: buf) = _ from hread] at hleaves
        have := hleaves.length_le
        simp only [ReprDecoder.measure, List.length_cons, Option.isSome_none]
        omega
      | some state =>
        have := (hread ▸ reads_decode state (byte :: buf)).length_le
        simp only [ReprDecoder.measure, List.length_cons, Option.isSome_none,
          Option.isSome_some, Bool.false_eq_true, ↓reduceIte] at this ⊢
        omega
    all_goals cases h

/-! ### Applying representations -/

/-- The fields that a call comes to, each with the size it brings the header list to.
The field that exceeds the limit is the last one. -/
def charges (limit : Nat) : Nat → ReprDecoder → DynamicTable → Nat → List (Nat × Field)
  | 0, _, _, _ => []
  | fuel + 1, r, table, size =>
    match r.decode with
    | .ok (some repr) r =>
      match repr.line table with
      | .field f table =>
        (size + f.size, f) :: if limit < size + f.size then [] else charges limit fuel r table (size + f.size)
      | .resize table => charges limit fuel r table size
      | .unknown => []
    | _ => []

/-- A field that does no harm: the size of the header list does not overflow, and the
parts take the field if it fits. -/
def Harmless (limit : Nat) (c : Nat × Field) : Prop :=
  c.1 < usizeSize ∧ (c.1 ≤ limit → Parts.Accepts c.2)

/-- The bytes bring the decoder to no harmful field. -/
def HpackDecoder.Safe (d : HpackDecoder) (buf : List UInt8) : Prop :=
  ∀ c ∈ charges d.headerListSize (buf.length + 2) ⟨buf, d.holder⟩ d.table d.lines.headerSize,
    Harmless d.headerListSize c

theorem decodeLoop_eq_panic {fuel : Nat} : ∀ {r : ReprDecoder} {d : HpackDecoder}, r.measure ≤ fuel →
      (HpackDecoder.decodeLoop fuel r d = .panic ↔ ¬ ∀ c ∈ charges d.headerListSize fuel r d.table d.lines.headerSize,
          Harmless d.headerListSize c) := by
  induction fuel with
  | zero =>
    intro r d hfuel
    unfold ReprDecoder.measure at hfuel
    split at hfuel <;> omega
  | succ fuel ih =>
    intro r d hfuel
    rw [HpackDecoder.decodeLoop, charges]
    cases hread : r.decode with
    | panic => exact absurd hread (reprDecode_ne_panic r)
    | err e r' => simp
    | ok found r' =>
      cases found with
      | none => simp
      | some repr =>
        have hfuel' : r'.measure ≤ fuel := by
          have := measure_lt hread
          omega
        simp only [bind_apply, update_eq_apply]
        cases hline : repr.line d.table with
        | unknown => simp [Line.apply]
        | resize table =>
          exact ih hfuel'
        | field f table =>
          simp only [List.forall_mem_cons]
          by_cases hharm : Harmless d.headerListSize (d.lines.headerSize + f.size, f)
          · -- The field is refused with an error or taken.
            simp only [hharm, true_and]
            by_cases hover : d.headerListSize < d.lines.headerSize + f.size
            · simp [Line.apply, hharm.1, hover]
            · obtain ⟨parts, hparts⟩ :=
                Parts.update_of_accepts (hharm.2 (Nat.le_of_not_lt hover)) d.lines.parts
              simp only [Line.apply, hharm.1, hover, ↓reduceIte, hparts, bind_ok]
              exact ih hfuel'
          · simp only [hharm, false_and, not_false_eq_true, iff_true]
            rw [Line.apply_field_eq_panic.mpr hharm, bind_panic]

theorem decode_eq_panic (buf : List UInt8) (d : HpackDecoder) : d.decode buf = .panic ↔ ¬ d.Safe buf := by
  refine decodeLoop_eq_panic ?_
  unfold ReprDecoder.measure
  split <;> simp

theorem finish_ne_panic (d : HpackDecoder) : HpackDecoder.finish d ≠ .panic := by
  unfold HpackDecoder.finish
  split <;> simp

/-! ### Errors -/

theorem Line.apply_error {line : Line} (h : line.apply d = .err e d') : e.IsConnectionError := by
  cases line with
  | field f table =>
    simp only [Line.apply] at h
    split at h
    · split at h
      · cases h
        exact ⟨_, rfl⟩
      · split at h <;> cases h
    · cases h
  | resize table => cases h
  | unknown =>
    cases h
    exact ⟨_, rfl⟩

theorem decodeLoop_error {fuel : Nat} : ∀ {r : ReprDecoder} {d d' : HpackDecoder} {e : H2Error},
    HpackDecoder.decodeLoop fuel r d = .err e d' → e.IsConnectionError := by
  induction fuel with
  | zero =>
    rintro r d d' e ⟨⟩
  | succ fuel ih =>
    intro r d d' e h
    rw [HpackDecoder.decodeLoop] at h
    split at h
    next repr r' _ =>
      simp only [bind_apply, update_eq_apply] at h
      cases hline : (repr.line d.table).apply d with
      | ok u d₁ =>
        rw [hline] at h
        exact ih h
      | err e₁ d₁ =>
        rw [hline] at h
        cases h
        exact Line.apply_error hline
      | panic =>
        rw [hline] at h
        cases h
    next => cases h
    next e₁ r' hread =>
      cases h
      exact reprDecode_error hread
    next => cases h

theorem finish_error (h : HpackDecoder.finish d = .err e d') : e.IsConnectionError := by
  unfold HpackDecoder.finish at h
  split at h
  · cases h
    exact ⟨_, rfl⟩
  · cases h

/-! ### Runs -/

inductive Call where
  | decode (buf : List UInt8)
  | finish

/-- The decoder a call leaves. -/
def Call.step (d : HpackDecoder) : Call → Option HpackDecoder
  | .decode buf => (d.decode buf).state?
  | .finish => (HpackDecoder.finish d).state?

def Call.Safe (d : HpackDecoder) : Call → Prop
  | .decode buf => d.Safe buf
  | .finish => True

theorem step_eq_none {c : Call} : c.step d = none ↔ ¬ c.Safe d := by
  cases c with
  | decode buf => rw [Call.step, state?_eq_none, decode_eq_panic, Call.Safe]
  | finish => simp [Call.step, Call.Safe, state?_eq_none, finish_ne_panic]

/-- Calls of `decode` and `finish` on one decoder never panic exactly if every call of
`decode` is given bytes that bring the decoder to no harmful field. -/
theorem run_isSome_iff_safe (headerTableSize maxHeaderListSize : Nat) (calls : List Call) :
    (run (fun d (c : Call) => c.step d) calls
        (.withMaxSize headerTableSize maxHeaderListSize)).isSome ↔
      Along (fun d (c : Call) => c.step d) (fun d (c : Call) => c.Safe d) calls
        (.withMaxSize headerTableSize maxHeaderListSize) :=
  run_isSome_iff (I := fun _ => True) (fun _ _ => trivial) (fun _ => step_eq_none) trivial

/-- A literal field named `:path` panics: the header map refuses its name. -/
theorem literalPath_panics :
    run (fun d (c : Call) => c.step d)
      [.decode ([0x40, 5] ++ ascii ":path" ++ [1] ++ ascii "/"), .finish]
      (.withMaxSize 4096 16384) = none :=
  rfl

end YlongHttp.H2.Hpack
