/-
The lines of a section.

Once its prefix has been read, a section depends on the decoder only through the searcher:
`lineLoop` is the loop over its lines alone, and `reprLoop_eq_lineLoop` says that the decoder
runs it. Likewise `instLoop` is the loop over the instructions of the encoder stream on the
table alone (`insLoop_eq_instLoop`).
-/

import YlongHttp.H3.Qpack.Section

namespace YlongHttp.H3.Qpack

open Rust
open H2.Hpack (DecResult LiteralString Name)

/-! ### No second prefix -/

/-- Every value that a reader returns has the property. -/
def Yields {β : Type} (P : β → Prop) (m : Decoding β) : Prop := ∀ buf v rest, m buf = .ok v rest → P v

namespace Yields

variable {β γ : Type} {P : γ → Prop}

theorem pure {v : γ} (h : P v) : Yields P (Pure.pure v : Decoding γ) := by
  rintro buf w rest ⟨⟩
  exact h

theorem throw (e : QpackError) : Yields P (MonadExcept.throw e : Decoding γ) := by
  rintro buf w rest ⟨⟩

theorem bind {m : Decoding β} {f : β → Decoding γ} (h : ∀ v, Yields P (f v)) : Yields P (m >>= f) := by
  intro buf w rest heq
  obtain ⟨v, mid, -, hv⟩ := Outcome.bind_eq_ok.mp heq
  exact h v mid w rest hv

end Yields

/-- Not the prefix of a section. -/
def IsLine : DecResult Representation ReprDecodeState → Prop
  | .decoded repr => repr.isPrefix = false
  | .needMore _ => True

variable (repr : ReprPrefixBit) (midBit : MidBit) (inner : LiteralString)

theorem yields_reprValueString (name : Name) (inner : LiteralString) :
    Yields IsLine (ReprValueString.decode repr midBit name inner) := by
  apply Yields.bind
  intro r
  cases r with
  | decoded value => cases repr <;> first | exact Yields.pure rfl | exact Yields.throw _
  | needMore inner => cases repr <;> exact Yields.pure trivial

theorem yields_reprNameAndValue : Yields IsLine (ReprNameAndValue.decode repr midBit inner) := by
  apply Yields.bind
  intro r
  cases r with
  | decoded octets => exact yields_reprValueString _ _ _ _
  | needMore inner => exact Yields.pure trivial

theorem yields_reprIndex (inner : ReprIndexInner) : Yields IsLine (ReprIndex.decode inner) := by
  apply Yields.bind
  rintro (⟨⟨repr, midBit⟩, index⟩ | inner)
  · cases repr with
    | indexed | indexedWithPostIndex => exact Yields.pure rfl
    | literalWithIndexing | literalWithPostIndexing => exact yields_reprValueString _ _ _ _
    | literalWithLiteralName => exact yields_reprNameAndValue _ _ _
  · exact Yields.pure trivial

def ReprDecodeState.isPrefix : ReprDecodeState → Bool
  | .filedSectionPrefix => true
  | _ => false

theorem yields_repr {state : ReprDecodeState} (h : state.isPrefix = false) : Yields IsLine state.decode := by
  cases state with
  | filedSectionPrefix => cases h
  | reprIndex inner => exact yields_reprIndex inner
  | reprValueString repr midBit name inner => exact yields_reprValueString repr midBit name inner
  | reprNameAndValue repr midBit inner => exact yields_reprNameAndValue repr midBit inner

/-- The reader is past the prefix, or has nothing to read. -/
def InLines (r : Reading ReprDecodeState) : Prop :=
  r.buf = [] ∨ ∃ state, r.state = some state ∧ state.isPrefix = false

theorem InLines.decode {r r' : Reading ReprDecodeState} {repr : Representation} (h : InLines r)
    (hread : ReprDecoder.decode r = .ok (some repr) r') : repr.isPrefix = false ∧ InLines r' := by
  obtain ⟨buf, saved⟩ := r
  cases buf with
  | nil => cases hread
  | cons byte buf =>
    obtain ⟨state, rfl, hstate⟩ : ∃ state, saved = some state ∧ state.isPrefix = false := by
      rcases h with hnil | hsome
      · cases hnil
      · exact hsome
    simp only [ReprDecoder.decode, List.isEmpty_cons, Bool.false_eq_true, ↓reduceIte, Option.getD_some] at hread
    split at hread
    case h_2 repr' rest hdecode =>
      cases hread
      refine ⟨yields_repr hstate _ _ _ hdecode, ?_⟩
      cases rest with
      | nil => exact .inl rfl
      | cons next rest => exact .inr ⟨_, rfl, rfl⟩
    all_goals cases hread

/-! ### The loop over lines -/

/-- The loop of `decode_buffered_repr` past the prefix, on the state of the reader and the lines. -/
def lineLoop (s : Searcher) : Nat → List UInt8 → Method (Option ReprDecodeState × FiledLines) QpackError Unit
  | 0, _ => Method.panicked
  | fuel + 1, buf => fun p =>
    match ReprDecoder.decode ⟨buf, p.1⟩ with
    | .ok (some repr) r =>
      ((s.search repr p.2).mapState fun lines => (r.state, lines)).bind fun _ => lineLoop s fuel r.buf
    | .ok none r => .ok () (r.state, p.2)
    | .err e _ => .err e p
    | .panic => .panic

theorem lineLoop_succ {s : Searcher} {fuel : Nat} {buf : List UInt8} {p : Option ReprDecodeState × FiledLines} :
    lineLoop s (fuel + 1) buf p = match ReprDecoder.decode ⟨buf, p.1⟩ with
      | .ok (some repr) r =>
        ((s.search repr p.2).mapState fun lines => (r.state, lines)).bind fun _ => lineLoop s fuel r.buf
      | .ok none r => .ok () (r.state, p.2)
      | .err e _ => .err e p
      | .panic => .panic :=
  rfl

/-- The message after the lines. -/
def ReprMessage.withLines (message : ReprMessage) (p : Option ReprDecodeState × FiledLines) : ReprMessage :=
  { message with reprState := p.1, lines := p.2 }

namespace QpackDecoder

theorem reprLoop_eq_lineLoop {streamId base : Nat} {d : QpackDecoder} :
    ∀ {fuel : Nat} {buf : List UInt8} (message : ReprMessage), InLines ⟨buf, message.reprState⟩ →
      reprLoop streamId fuel buf base (d, message) =
        ((lineLoop ⟨d.maxFieldSectionSize, d.table, base⟩ fuel buf (message.reprState, message.lines)).mapState
          fun p => (d, message.withLines p)).bind fun _ s => .ok .decoded s := by
  intro fuel
  induction fuel with
  | zero =>
    intro buf message _
    rfl
  | succ fuel ih =>
    intro buf message hlines
    simp only [reprLoop_succ, lineLoop_succ]
    cases hread : ReprDecoder.decode ⟨buf, message.reprState⟩ with
    | panic | err => rfl
    | ok found r =>
      cases found with
      | none => rfl
      | some repr =>
        obtain ⟨hline, hnext⟩ := hlines.decode hread
        dsimp only
        rw [round_line hline, Method.bind_apply, searchLine]
        cases Searcher.search ⟨d.maxFieldSectionSize, d.table, base⟩ repr message.lines with
        | panic | err => rfl
        | ok u lines => exact ih { message with reprState := r.state, lines := lines } hnext

end QpackDecoder

/-! ### The loop over instructions -/

/-- The loop of `decode_ins` on the table, which it leaves with the state of the reader. -/
def instLoop (maxTableCapacity : Nat) : Nat → Reading InstDecodeState →
    Method DynamicTable QpackError (Option InstDecodeState)
  | 0, _ => Method.panicked
  | fuel + 1, r =>
    if r.buf.isEmpty then pure r.state
    else
      match EncInstDecoder.decode r with
      | .ok (some inst) r => Updater.apply maxTableCapacity inst >>= fun _ => instLoop maxTableCapacity fuel r
      | .ok none r => pure r.state
      | .err e _ => throw e
      | .panic => Method.panicked

theorem insLoop_eq_instLoop : ∀ {fuel : Nat} {r : Reading InstDecodeState} {d : QpackDecoder},
    QpackDecoder.insLoop fuel r d =
      ((instLoop d.maxTableCapacity fuel r d.table).mapState fun table => { d with table := table }).bind
        fun state d => .ok () { d with instState := state } := by
  intro fuel
  induction fuel with
  | zero =>
    intro r d
    rfl
  | succ fuel ih =>
    intro r d
    rw [QpackDecoder.insLoop, instLoop]
    by_cases hempty : r.buf.isEmpty = true
    · simp only [hempty, ↓reduceIte]
      rfl
    · simp only [hempty, Bool.false_eq_true, ↓reduceIte]
      cases EncInstDecoder.decode r with
      | panic | err => rfl
      | ok found r' =>
        cases found with
        | none => rfl
        | some inst =>
          simp only [Method.bind_apply, Method.onField]
          cases Updater.apply d.maxTableCapacity inst d.table with
          | panic | err => rfl
          | ok u t =>
            simp only [Outcome.mapState_ok, Outcome.bind_ok, ih]

end YlongHttp.H3.Qpack
