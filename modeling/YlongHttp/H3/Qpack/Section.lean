/-
Decoding a field section.

A section leaves the table and the other streams alone (`decodeRepr_frame`), and the loop
over its lines does not depend on the fuel that its model is given, as long as it covers the
bytes (`reprLoop_fuel`).
-/

import YlongHttp.H3.Qpack.Line
import YlongHttp.H3.Qpack.Reading
import YlongHttp.Rust.Keeps

namespace YlongHttp.H3.Qpack

open Rust Method Outcome

namespace QpackDecoder

/-! ### Rounds of the loop -/

variable {streamId base encoded deltaBase : Nat} {next : List UInt8 → Nat → Working FieldDecodeState}
  {line : Representation} {rest buf : List UInt8} {signal : Bool} {s s' : QpackDecoder × ReprMessage}
  {d d' : QpackDecoder} {state : FieldDecodeState}

theorem round_line (hline : line.isPrefix = false) :
    round streamId base next line rest = searchLine base line >>= fun _ => next rest base := by
  cases line with
  | fieldSectionPrefix encoded signal deltaBase => cases hline
  | _ => rfl

theorem round_start : round streamId base next (.fieldSectionPrefix encoded signal deltaBase) rest =
      readPrefix streamId encoded signal deltaBase rest >>= afterPrefix (next rest) :=
  rfl

theorem reprLoop_succ {fuel : Nat} : reprLoop streamId (fuel + 1) buf base s =
      match ReprDecoder.decode ⟨buf, s.2.reprState⟩ with
      | .ok (some repr) r =>
        round streamId base (reprLoop streamId fuel) repr r.buf (s.1, { s.2 with reprState := r.state })
      | .ok none r => .ok .decoded (s.1, { s.2 with reprState := r.state })
      | .err e _ => .err e s
      | .panic => .panic :=
  rfl

/-! ### What a section leaves alone -/

/-- The section changes nothing of the decoder but whether its stream is blocked. -/
def Frame (streamId : Nat) (s s' : QpackDecoder × ReprMessage) : Prop :=
  ∃ blocked : AList fun _ : Nat => Nat,
    s'.1 = { s.1 with blocked := blocked } ∧ ∀ other, other ≠ streamId → blocked.lookup other = s.1.blocked.lookup other

instance (streamId : Nat) : IsPreorder (QpackDecoder × ReprMessage) (Frame streamId) where
  refl s := ⟨s.1.blocked, rfl, fun _ _ => rfl⟩
  trans := by
    rintro s mid s' ⟨blocked, hmid, hblocked⟩ ⟨blocked', hs', hblocked'⟩
    refine ⟨blocked', by rw [hs', hmid], ?_⟩
    intro other hne
    rw [hblocked' other hne, hmid]
    exact hblocked other hne

section Keeps

variable {streamId : Nat}

theorem keeps_readPrefix (encoded : Nat) (signal : Bool) (deltaBase : Nat) (rest : List UInt8) :
    Stays (Frame streamId) (readPrefix streamId encoded signal deltaBase rest) := by
  rintro ⟨d, message⟩
  have hsame : ∀ message', Frame streamId (d, message) (d, message') :=
    fun _ => ⟨d.blocked, rfl, fun _ _ => rfl⟩
  simp only [readPrefix]
  split
  · exact .err ⟨trivial, hsame _⟩
  · split
    · exact .panic
    · split
      · split
        · exact .err ⟨trivial, hsame _⟩
        · exact .ok ⟨_, rfl, fun other hne => AList.lookup_insert_ne hne⟩
      · exact .ok (hsame _)

theorem keeps_searchLine (base : Nat) (line : Representation) : Stays (Frame streamId) (searchLine base line) := by
  intro s
  have hsame : ∀ lines, Frame streamId s (s.1, { s.2 with lines := lines }) :=
    fun _ => ⟨s.1.blocked, rfl, fun _ _ => rfl⟩
  unfold searchLine
  cases Searcher.search ⟨s.1.maxFieldSectionSize, s.1.table, base⟩ line s.2.lines with
  | ok u lines => exact .ok (hsame lines)
  | err e lines => exact .err ⟨trivial, hsame lines⟩
  | panic => exact .panic

theorem keeps_round {base : Nat} {next : List UInt8 → Nat → Working FieldDecodeState}
    (hnext : ∀ rest base, Stays (Frame streamId) (next rest base)) (repr : Representation) (rest : List UInt8) :
    Stays (Frame streamId) (round streamId base next repr rest) := by
  cases hkind : repr.isPrefix with
  | false =>
    rw [round_line hkind]
    exact (keeps_searchLine base repr).bind fun _ => hnext rest base
  | true =>
    cases repr with
    | fieldSectionPrefix encoded signal deltaBase =>
      apply (keeps_readPrefix encoded signal deltaBase rest).bind
      intro state
      cases state with
      | blocked => exact .pure _
      | decoded => exact fun s => hnext rest s.2.base s
    | _ => cases hkind

theorem keeps_reprLoop : ∀ (fuel : Nat) (buf : List UInt8) (base : Nat),
    Stays (Frame streamId) (reprLoop streamId fuel buf base)
  | 0, _, _ => fun _ => .panic
  | fuel + 1, buf, base => by
    intro s
    have hsame : ∀ message, Frame streamId s (s.1, message) :=
      fun _ => ⟨s.1.blocked, rfl, fun _ _ => rfl⟩
    rw [reprLoop_succ]
    cases ReprDecoder.decode ⟨buf, s.2.reprState⟩ with
    | panic => exact .panic
    | err e r => exact .err ⟨trivial, Std.Refl.refl s⟩
    | ok found r =>
      cases found with
      | none => exact .ok (hsame _)
      | some repr =>
        exact Keeps.after (hsame _) (keeps_round (keeps_reprLoop fuel) repr r.buf)

theorem keeps_decodeBufferedRepr (buf : List UInt8) : Stays (Frame streamId) (decodeBufferedRepr buf streamId) := by
  exact .ite (.pure _) (keeps_reprLoop _ _ _)

theorem keeps_decodeMessage (streamId : Nat) (buf : List UInt8) :
    Stays (Frame streamId) (decodeMessage buf streamId) := by
  apply Keeps.get_bind
  intro s
  split
  · apply Keeps.bind
    · exact Keeps.modify fun s => ⟨s.1.blocked, rfl, fun _ _ => rfl⟩
    · exact fun _ => (keeps_decodeBufferedRepr _).bind fun _ => keeps_decodeBufferedRepr buf
  · exact keeps_decodeBufferedRepr buf

end Keeps

/-- What a call for one stream leaves alone. -/
structure SameElse (streamId : Nat) (d d' : QpackDecoder) : Prop where
  table : d'.table = d.table
  instState : d'.instState = d.instState
  maxBlockedStreams : d'.maxBlockedStreams = d.maxBlockedStreams
  maxTableCapacity : d'.maxTableCapacity = d.maxTableCapacity
  maxFieldSectionSize : d'.maxFieldSectionSize = d.maxFieldSectionSize
  streams : ∀ other, other ≠ streamId → d'.streams.lookup other = d.streams.lookup other
  blocked : ∀ other, other ≠ streamId → d'.blocked.lookup other = d.blocked.lookup other

theorem decodeRepr_frame (h : (d.decodeRepr buf streamId).state? = some d') : SameElse streamId d d' := by
  unfold decodeRepr at h
  split at h
  · cases h
    exact ⟨rfl, rfl, rfl, rfl, rfl, fun _ _ => rfl, fun _ _ => rfl⟩
  · have hkeeps := keeps_decodeMessage streamId buf
      ({ d with streams := d.streams.erase streamId }, (d.streams.lookup streamId).getD .new)
    generalize decodeMessage buf streamId
      ({ d with streams := d.streams.erase streamId }, (d.streams.lookup streamId).getD .new) = out at h hkeeps
    cases hkeeps with
    | panic => cases h
    | ok hframe =>
      rename_i state s'
      obtain ⟨d₁, message⟩ := s'
      obtain ⟨blocked, rfl, hblocked⟩ := hframe
      cases h
      refine ⟨rfl, rfl, rfl, rfl, rfl, fun other hne => ?_, hblocked⟩
      rw [AList.lookup_insert_ne hne, AList.lookup_erase_ne hne]
    | err hframe =>
      rename_i e s'
      obtain ⟨d₁, message⟩ := s'
      obtain ⟨-, blocked, rfl, hblocked⟩ := hframe
      cases h
      refine ⟨rfl, rfl, rfl, rfl, rfl, fun other hne => ?_, hblocked⟩
      rw [AList.lookup_erase_ne hne]

theorem finish_frame (h : (d.finish streamId).state? = some d') : SameElse streamId d d' := by
  have herase : SameElse streamId d { d with streams := d.streams.erase streamId } :=
    ⟨rfl, rfl, rfl, rfl, rfl, fun other hne => AList.lookup_erase_ne hne, fun _ _ => rfl⟩
  unfold finish at h
  split at h
  · cases h
    exact ⟨rfl, rfl, rfl, rfl, rfl, fun _ _ => rfl, fun _ _ => rfl⟩
  · split at h
    · cases h
      exact herase
    · split at h
      · cases h
        exact herase
      · cases h
        exact herase

/-! ### Fuel -/

theorem searchLine_eq_ok {u : Unit} : searchLine base line s = .ok u s' ↔
      ∃ lines, Searcher.search ⟨s.1.maxFieldSectionSize, s.1.table, base⟩ line s.2.lines = .ok u lines ∧
        s' = (s.1, { s.2 with lines := lines }) := by
  unfold searchLine
  cases Searcher.search ⟨s.1.maxFieldSectionSize, s.1.table, base⟩ line s.2.lines with
  | ok v lines =>
    constructor
    · rintro ⟨⟩
      exact ⟨lines, rfl, rfl⟩
    · rintro ⟨lines', hlines, rfl⟩
      cases hlines
      rfl
  | err | panic => simp

theorem reprState_searchLine {u : Unit} (h : searchLine base line s = .ok u s') : s'.2.reprState = s.2.reprState := by
  obtain ⟨lines, -, rfl⟩ := searchLine_eq_ok.mp h
  rfl

/-- A prefix that is read sets the count and the base, and the section goes on or is blocked. -/
theorem readPrefix_eq_ok : readPrefix streamId encoded signal deltaBase rest s = .ok state s' ↔
      ∃ required base, requireInsertCount s.1.table encoded = some required ∧
        sectionBase required signal deltaBase = some base ∧ ((required ≤ s.1.table.insertCount ∧ state = .decoded ∧
            s' = (s.1, { s.2 with requireInsertCount := required, base := base })) ∨
          (s.1.table.insertCount < required ∧ s.1.blocked.entries.length ≤ s.1.maxBlockedStreams ∧ state = .blocked ∧
            s' = ({ s.1 with blocked := s.1.blocked.insert streamId required },
              { s.2 with requireInsertCount := required, base := base, remaining := some rest }))) := by
  obtain ⟨d, message⟩ := s
  simp only [readPrefix]
  cases requireInsertCount d.table encoded with
  | none => simp
  | some required =>
    simp only [Option.some.injEq, exists_and_left, exists_eq_left']
    cases sectionBase required signal deltaBase with
    | none => simp
    | some base =>
      simp only [Option.some.injEq, exists_eq_left']
      split_ifs with hmore hroom
      · constructor
        · rintro ⟨⟩
        · rintro (⟨hle, -⟩ | ⟨-, hle, -⟩) <;> omega
      · constructor
        · rintro ⟨⟩
          exact .inr ⟨hmore, Nat.le_of_not_gt hroom, rfl, rfl⟩
        · rintro (⟨hle, -⟩ | ⟨-, -, rfl, rfl⟩)
          · omega
          · rfl
      · constructor
        · rintro ⟨⟩
          exact .inl ⟨Nat.le_of_not_gt hmore, rfl, rfl⟩
        · rintro (⟨-, rfl, rfl⟩ | ⟨hlt, -⟩)
          · rfl
          · exact absurd hlt hmore

theorem reprState_readPrefix (h : readPrefix streamId encoded signal deltaBase rest s = .ok state s') :
    s'.2.reprState = s.2.reprState := by
  obtain ⟨required, base, -, -, ⟨-, -, rfl⟩ | ⟨-, -, -, rfl⟩⟩ := readPrefix_eq_ok.mp h
  · rfl
  · rfl

/-- Two loops agree if they agree after every round. -/
theorem round_congr {next' : List UInt8 → Nat → Working FieldDecodeState} {repr : Representation}
    (h : ∀ base s', s'.2.reprState = s.2.reprState → next rest base s' = next' rest base s') :
    round streamId base next repr rest s = round streamId base next' repr rest s := by
  cases hkind : repr.isPrefix with
  | false =>
    rw [round_line hkind, round_line hkind, bind_apply, bind_apply]
    cases hsearch : searchLine base repr s with
    | ok u s' => exact h base s' (reprState_searchLine hsearch)
    | err | panic => rfl
  | true =>
    cases repr with
    | fieldSectionPrefix encoded signal deltaBase =>
      rw [round_start, round_start, bind_apply, bind_apply]
      cases hread : readPrefix streamId encoded signal deltaBase rest s with
      | ok state s' =>
        cases state with
        | blocked => rfl
        | decoded => exact h _ s' (reprState_readPrefix hread)
      | err | panic => rfl
    | _ => cases hkind

theorem reprMeasure_pos (r : Reading ReprDecodeState) : 0 < reprMeasure r := by
  unfold reprMeasure
  split <;> omega

theorem reprLoop_fuel : ∀ {fuel fuel' : Nat} {buf : List UInt8} {base : Nat} {s : QpackDecoder × ReprMessage},
      reprMeasure ⟨buf, s.2.reprState⟩ ≤ fuel → reprMeasure ⟨buf, s.2.reprState⟩ ≤ fuel' →
        reprLoop streamId fuel buf base s = reprLoop streamId fuel' buf base s := by
  intro fuel
  induction fuel with
  | zero =>
    intro fuel' buf base s hfuel _
    exact absurd (lt_of_lt_of_le (reprMeasure_pos _) hfuel) (lt_irrefl 0)
  | succ fuel ih =>
    intro fuel' buf base s hfuel hfuel'
    cases fuel' with
    | zero => exact absurd (lt_of_lt_of_le (reprMeasure_pos _) hfuel') (lt_irrefl 0)
    | succ fuel' =>
      rw [reprLoop_succ, reprLoop_succ]
      cases hread : ReprDecoder.decode ⟨buf, s.2.reprState⟩ with
      | panic | err => rfl
      | ok found r =>
        cases found with
        | none => rfl
        | some repr =>
          have hlt := reprMeasure_lt hread
          apply round_congr
          intro base s' hstate
          apply ih
          · rw [hstate]
            exact Nat.le_of_lt_succ (lt_of_lt_of_le hlt hfuel)
          · rw [hstate]
            exact Nat.le_of_lt_succ (lt_of_lt_of_le hlt hfuel')

/-! ### Sections that succeed -/

/-- The rounds of a call that returns `state`. -/
inductive Decodes (streamId : Nat) : List UInt8 → Nat → QpackDecoder × ReprMessage → FieldDecodeState →
    QpackDecoder × ReprMessage → Prop where
  | ends {buf : List UInt8} {base : Nat} {s : QpackDecoder × ReprMessage} {r : Reading ReprDecodeState}
      (hread : ReprDecoder.decode ⟨buf, s.2.reprState⟩ = .ok none r) :
      Decodes streamId buf base s .decoded (s.1, { s.2 with reprState := r.state })
  | line {buf : List UInt8} {base : Nat} {s mid s' : QpackDecoder × ReprMessage} {state : FieldDecodeState}
      {repr : Representation} {r : Reading ReprDecodeState}
      (hread : ReprDecoder.decode ⟨buf, s.2.reprState⟩ = .ok (some repr) r) (hline : repr.isPrefix = false)
      (hsearch : searchLine base repr (s.1, { s.2 with reprState := r.state }) = .ok () mid)
      (hrest : Decodes streamId r.buf base mid state s') : Decodes streamId buf base s state s'
  | blocks {buf : List UInt8} {base encoded deltaBase : Nat} {signal : Bool} {s s' : QpackDecoder × ReprMessage}
      {r : Reading ReprDecodeState}
      (hread : ReprDecoder.decode ⟨buf, s.2.reprState⟩ = .ok (some (.fieldSectionPrefix encoded signal deltaBase)) r)
      (hstart : readPrefix streamId encoded signal deltaBase r.buf (s.1, { s.2 with reprState := r.state }) =
        .ok .blocked s') : Decodes streamId buf base s .blocked s'
  | starts {buf : List UInt8} {base encoded deltaBase : Nat} {signal : Bool}
      {s mid s' : QpackDecoder × ReprMessage} {state : FieldDecodeState} {r : Reading ReprDecodeState}
      (hread : ReprDecoder.decode ⟨buf, s.2.reprState⟩ = .ok (some (.fieldSectionPrefix encoded signal deltaBase)) r)
      (hstart : readPrefix streamId encoded signal deltaBase r.buf (s.1, { s.2 with reprState := r.state }) =
        .ok .decoded mid)
      (hrest : Decodes streamId r.buf mid.2.base mid state s') : Decodes streamId buf base s state s'

theorem decodes_of_reprLoop :
    ∀ {fuel : Nat} {buf : List UInt8} {base : Nat} {s s' : QpackDecoder × ReprMessage} {state : FieldDecodeState},
      reprLoop streamId fuel buf base s = .ok state s' → Decodes streamId buf base s state s' := by
  intro fuel
  induction fuel with
  | zero =>
    rintro buf base s s' state ⟨⟩
  | succ fuel ih =>
    intro buf base s s' state h
    rw [reprLoop_succ] at h
    cases hread : ReprDecoder.decode ⟨buf, s.2.reprState⟩ with
    | panic | err =>
      rw [hread] at h
      cases h
    | ok found r =>
      rw [hread] at h
      cases found with
      | none =>
        cases h
        exact .ends hread
      | some repr =>
        dsimp only at h
        cases hkind : repr.isPrefix with
        | false =>
          rw [round_line hkind] at h
          obtain ⟨u, mid, hsearch, hrest⟩ := bind_eq_ok.mp h
          exact .line hread hkind hsearch (ih hrest)
        | true =>
          cases repr with
          | fieldSectionPrefix encoded signal deltaBase =>
            obtain ⟨state', mid, hstart, hrest⟩ := bind_eq_ok.mp h
            cases state' with
            | blocked =>
              cases hrest
              exact .blocks hread hstart
            | decoded => exact .starts hread hstart (ih hrest)
          | _ => cases hkind

theorem reprLoop_of_decodes (h : Decodes streamId buf base s state s') :
    ∀ {fuel : Nat}, reprMeasure ⟨buf, s.2.reprState⟩ ≤ fuel → reprLoop streamId fuel buf base s = .ok state s' := by
  -- A round lowers the measure, so that there is fuel for the rounds after it.
  have hround : ∀ {fuel : Nat} {buf : List UInt8} {s mid : QpackDecoder × ReprMessage} {repr : Representation}
      {r : Reading ReprDecodeState}, ReprDecoder.decode ⟨buf, s.2.reprState⟩ = .ok (some repr) r →
      mid.2.reprState = r.state → reprMeasure ⟨buf, s.2.reprState⟩ ≤ fuel + 1 →
      reprMeasure ⟨r.buf, mid.2.reprState⟩ ≤ fuel := by
    intro fuel buf s mid repr r hread hstate hfuel
    rw [hstate]
    exact Nat.le_of_lt_succ (lt_of_lt_of_le (reprMeasure_lt hread) hfuel)
  have hfueled : ∀ {fuel : Nat} {r : Reading ReprDecodeState}, reprMeasure r ≤ fuel → ∃ n, fuel = n + 1 :=
    fun hfuel => Nat.exists_eq_add_one.mpr (lt_of_lt_of_le (reprMeasure_pos _) hfuel)
  induction h with
  | ends hread =>
    intro fuel hfuel
    obtain ⟨fuel, rfl⟩ := hfueled hfuel
    rw [reprLoop_succ, hread]
  | line hread hline hsearch _ ih =>
    intro fuel hfuel
    obtain ⟨fuel, rfl⟩ := hfueled hfuel
    simp only [reprLoop_succ, hread]
    rw [round_line hline, bind_apply, hsearch]
    exact ih (hround hread (reprState_searchLine hsearch) hfuel)
  | blocks hread hstart =>
    intro fuel hfuel
    obtain ⟨fuel, rfl⟩ := hfueled hfuel
    simp only [reprLoop_succ, hread]
    rw [round_start, bind_apply, hstart]
    rfl
  | starts hread hstart _ ih =>
    intro fuel hfuel
    obtain ⟨fuel, rfl⟩ := hfueled hfuel
    simp only [reprLoop_succ, hread]
    rw [round_start, bind_apply, hstart]
    exact ih (hround hread (reprState_readPrefix hstart) hfuel)

theorem reprMeasure_le (r : Reading ReprDecodeState) : reprMeasure r ≤ r.buf.length + 2 := by
  unfold reprMeasure
  split <;> omega

/-- A buffer that has been decoded: nothing, or the rounds of its lines from Base 0. -/
def Buffered (streamId : Nat) (buf : List UInt8) (s : QpackDecoder × ReprMessage) (state : FieldDecodeState)
    (s' : QpackDecoder × ReprMessage) : Prop :=
  (buf = [] ∧ state = .decoded ∧ s' = s) ∨ (buf ≠ [] ∧ Decodes streamId buf 0 s state s')

theorem decodeBufferedRepr_eq_ok :
    decodeBufferedRepr buf streamId s = .ok state s' ↔ Buffered streamId buf s state s' := by
  cases buf with
  | nil =>
    constructor
    · rintro ⟨⟩
      exact .inl ⟨rfl, rfl, rfl⟩
    · rintro (⟨-, rfl, rfl⟩ | ⟨hne, -⟩)
      · rfl
      · exact absurd rfl hne
  | cons byte buf =>
    constructor
    · exact fun h => .inr ⟨List.cons_ne_nil _ _, decodes_of_reprLoop h⟩
    · rintro (⟨hnil, -⟩ | ⟨-, h⟩)
      · cases hnil
      · exact reprLoop_of_decodes h (reprMeasure_le _)

theorem decodeMessage_eq_ok : decodeMessage buf streamId s = .ok state s' ↔
      (s.2.remaining = none ∧ Buffered streamId buf s state s') ∨ ∃ vec first mid, s.2.remaining = some vec ∧
          Buffered streamId vec (s.1, { s.2 with remaining := none }) first mid ∧
          Buffered streamId buf mid state s' := by
  simp only [decodeMessage, get_bind]
  cases hremaining : s.2.remaining with
  | none => simp [decodeBufferedRepr_eq_ok]
  | some vec =>
    simp only [bind_apply, modify_apply, bind_ok, bind_eq_ok,
      decodeBufferedRepr_eq_ok, reduceCtorEq, false_and, Option.some.injEq, false_or, exists_and_left,
      exists_eq_left']

theorem decodeRepr_eq_ok : d.decodeRepr buf streamId = .ok state d' ↔
      streamId ∉ d.blocked ∧ ∃ s', decodeMessage buf streamId
          ({ d with streams := d.streams.erase streamId }, (d.streams.lookup streamId).getD .new) = .ok state s' ∧
        d' = { s'.1 with streams := s'.1.streams.insert streamId s'.2 } := by
  unfold decodeRepr
  by_cases hblocked : streamId ∈ d.blocked
  · simp [hblocked]
  · rw [if_neg hblocked]
    cases decodeMessage buf streamId
        ({ d with streams := d.streams.erase streamId }, (d.streams.lookup streamId).getD .new) with
    | panic | err => simp
    | ok state' s' =>
      constructor
      · rintro ⟨⟩
        exact ⟨hblocked, s', rfl, rfl⟩
      · rintro ⟨-, s'', h, rfl⟩
        cases h
        rfl

/-- The Section Acknowledgment of a message. -/
def ackOf (streamId : Nat) (message : ReprMessage) : Option (List UInt8) :=
  if message.requireInsertCount > 0 then some (Integer.encode (Integer.index 0x80 streamId 0x7f)) else none

theorem finish_eq_ok {result : H2.Parts × Option (List UInt8)} : d.finish streamId = .ok result d' ↔
      ∃ message, d.streams.lookup streamId = some message ∧ message.reprState = none ∧
        result = (message.lines.parts, ackOf streamId message) ∧
        d' = { d with streams := d.streams.erase streamId } := by
  unfold finish ackOf
  cases d.streams.lookup streamId with
  | none => simp
  | some message =>
    simp only [Option.some.injEq, exists_eq_left']
    cases message.reprState with
    | some state => simp
    | none =>
      simp only [Option.isSome_none, Bool.false_eq_true, ↓reduceIte, true_and]
      split
      · constructor
        · rintro ⟨⟩
          exact ⟨rfl, rfl⟩
        · rintro ⟨rfl, rfl⟩
          rfl
      · constructor
        · rintro ⟨⟩
          exact ⟨rfl, rfl⟩
        · rintro ⟨rfl, rfl⟩
          rfl

end QpackDecoder

end YlongHttp.H3.Qpack
