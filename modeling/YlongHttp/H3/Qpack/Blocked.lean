/-
Sections that are blocked and resumed.

A section that arrives before the insertions it needs is blocked, and its lines are decoded by
the call that resumes it (`receive_resumed`). A section that arrives after them is decoded at
once (`receive_direct`). Both decode the same lines with the same table, the first from Base 0
and the second from the Base of the section. So a blocked section gives what it would have
given later if every reference finds the same field from both, and for a given prefix the two
agree on every content exactly if its Base is 0: `agrees_iff_base_zero`.
-/

import YlongHttp.H3.Qpack.Lines
import YlongHttp.H3.Qpack.RoundTrip

namespace YlongHttp.H3.Qpack

open Rust Method List
open YlongHttp.H2 (Parts)
open H2.Hpack (usizeSize)

/-! ### What a stream receives -/

inductive Received where
  | parts (parts : Parts)
  | error
  | blocked
  | panic

def Received.isParts : Received → Bool
  | .parts _ => true
  | _ => false

def Received.isPanic : Received → Bool
  | .panic => true
  | _ => false

/-- What `finish` makes of the outcome of the lines. -/
def lineResult : Outcome (Option ReprDecodeState × FiledLines) QpackError Unit → Received
  | .ok _ (none, lines) => .parts lines.parts
  | .ok _ (some _, _) => .error
  | .err _ _ => .error
  | .panic => .panic

namespace QpackDecoder

/-- What comes out of the bytes of a stream: `decode_repr`, and `finish` after it. -/
def receive (buf : List UInt8) (streamId : Nat) (d : QpackDecoder) : Received :=
  match d.decodeRepr buf streamId with
  | .ok .blocked _ => .blocked
  | .ok .decoded d =>
    match d.finish streamId with
    | .ok (parts, _) _ => .parts parts
    | .err _ _ => .error
    | .panic => .panic
  | .err _ _ => .error
  | .panic => .panic

variable {buf : List UInt8} {streamId : Nat} {d d' : QpackDecoder}

/-- The outcome of a message whose lines have been decoded. -/
theorem receive_of_lines (d₁ : QpackDecoder)
    (message : ReprMessage) {out : Outcome (Option ReprDecodeState × FiledLines) QpackError Unit} (hfree : streamId ∉ d.blocked)
    (h : decodeMessage buf streamId
        ({ d with streams := d.streams.erase streamId }, (d.streams.lookup streamId).getD .new) =
      (out.mapState fun p => (d₁, message.withLines p)).bind fun _ s => .ok .decoded s) :
    d.receive buf streamId = lineResult out := by
  rw [receive, decodeRepr, if_neg hfree, h]
  cases out with
  | panic | err => rfl
  | ok u p =>
    obtain ⟨state, lines⟩ := p
    simp only [Outcome.mapState_ok, Outcome.bind_ok, finish, AList.lookup_insert, ReprMessage.withLines]
    cases state with
    | some state => rfl
    | none =>
      by_cases hcount : message.requireInsertCount > 0
      · simp only [Option.isSome_none, Bool.false_eq_true, ↓reduceIte, hcount]
        rfl
      · simp only [Option.isSome_none, Bool.false_eq_true, ↓reduceIte, hcount]
        rfl

/-- A resumed section decodes the lines that were kept, from Base 0. -/
theorem receive_resumed {message : ReprMessage} {rest : List UInt8}
    (hfree : streamId ∉ d.blocked) (hlookup : d.streams.lookup streamId = some message)
    (hremaining : message.remaining = some rest) (hrest : rest ≠ []) (hlines : InLines ⟨rest, message.reprState⟩) :
    d.receive [] streamId = lineResult (lineLoop ⟨d.maxFieldSectionSize, d.table, 0⟩ (rest.length + 2) rest
        (message.reprState, message.lines)) := by
  apply receive_of_lines { d with streams := d.streams.erase streamId } { message with remaining := none } hfree
  rw [hlookup]
  simp only [decodeMessage, bind_apply, get_apply, Outcome.bind_ok, Option.getD_some, hremaining,
    modify_apply, decodeBufferedRepr, isEmpty_eq_false_iff.mpr hrest, Bool.false_eq_true, ↓reduceIte,
    isEmpty_nil]
  rw [reprLoop_eq_lineLoop { message with remaining := none } hlines, Outcome.bind_bind]
  rfl

/-- The bytes that a section starts with: a prefix, whatever follows it. -/
def Starts (start : List UInt8) (encoded : Nat) (signal : Bool) (deltaBase : Nat) : Prop :=
  ∀ content, content ≠ [] →
    ReprDecoder.decode ⟨start ++ content, none⟩ =
      .ok (some (.fieldSectionPrefix encoded signal deltaBase)) ⟨content, some (.reprIndex .firstByte)⟩

section Start

variable {start content : List UInt8} {encoded deltaBase required base streamId : Nat} {signal : Bool}
  {d : QpackDecoder}

/-- A section whose insertions have arrived decodes its lines from its Base. -/
theorem receive_direct (hfree : streamId ∉ d.blocked) (hfresh : d.streams.lookup streamId = none)
    (hstart : Starts start encoded signal deltaBase) (hcontent : content ≠ [])
    (hrequired : requireInsertCount d.table encoded = some required)
    (hbase : sectionBase required signal deltaBase = some base) (harrived : required ≤ d.table.insertCount) :
    d.receive (start ++ content) streamId =
      lineResult (lineLoop ⟨d.maxFieldSectionSize, d.table, base⟩ (content.length + 2) content
        (some (.reprIndex .firstByte), .new)) := by
  have hlength := length_of_decode (hstart content hcontent)
  have hne : (start ++ content).isEmpty = false :=
    isEmpty_eq_false_iff.mpr (append_ne_nil_of_right_ne_nil start hcontent)
  apply receive_of_lines { d with streams := d.streams.erase streamId }
    ⟨required, base, some (.reprIndex .firstByte), none, .new⟩ hfree
  rw [hfresh]
  simp only [decodeMessage, get_bind, Option.getD_none,
    ReprMessage.new, decodeBufferedRepr, hne, Bool.false_eq_true, ↓reduceIte]
  have hread : readPrefix streamId encoded signal deltaBase content
      ({ d with streams := d.streams.erase streamId }, ⟨0, 0, some (.reprIndex .firstByte), none, .new⟩) =
      .ok .decoded ({ d with streams := d.streams.erase streamId },
        ⟨required, base, some (.reprIndex .firstByte), none, .new⟩) :=
    readPrefix_eq_ok.mpr ⟨required, base, hrequired, hbase, .inl ⟨harrived, rfl, rfl⟩⟩
  rw [reprLoop_succ, hstart content hcontent]
  dsimp only
  rw [round_start, bind_apply, hread]
  have hmeasure : reprMeasure ⟨content, some (.reprIndex .firstByte)⟩ ≤ content.length + 2 := reprMeasure_le _
  have hfuel : reprLoop streamId ((start ++ content).length + 1) content base
        ({ d with streams := d.streams.erase streamId }, ⟨required, base, some (.reprIndex .firstByte), none, .new⟩) =
      reprLoop streamId (content.length + 2) content base
        ({ d with streams := d.streams.erase streamId }, ⟨required, base, some (.reprIndex .firstByte), none, .new⟩) :=
    reprLoop_fuel (le_trans hmeasure (Nat.succ_le_succ hlength)) hmeasure
  exact hfuel.trans (reprLoop_eq_lineLoop _ (.inr ⟨_, rfl, rfl⟩))

/-- A section that arrives too early keeps its lines. -/
theorem decodeRepr_blocks (hfresh : d.streams.lookup streamId = none)
    (hstart : Starts start encoded signal deltaBase) (hcontent : content ≠ [])
    (hrequired : requireInsertCount d.table encoded = some required)
    (hbase : sectionBase required signal deltaBase = some base) (hlate : d.table.insertCount < required)
    {d₁ : QpackDecoder} (h : d.decodeRepr (start ++ content) streamId = .ok .blocked d₁) :
    d₁.table = d.table ∧ d₁.maxFieldSectionSize = d.maxFieldSectionSize ∧ d₁.streams.lookup streamId =
        some ⟨required, base, some (.reprIndex .firstByte), some content, .new⟩ := by
  have hframe := decodeRepr_frame (show (d.decodeRepr (start ++ content) streamId).state? = some d₁ by rw [h]; rfl)
  refine ⟨hframe.table, hframe.maxFieldSectionSize, ?_⟩
  obtain ⟨-, s', hmessage, rfl⟩ := decodeRepr_eq_ok.mp h
  rw [hfresh] at hmessage
  obtain ⟨-, hbuffered⟩ | ⟨vec, first, mid, hnone, -⟩ := decodeMessage_eq_ok.mp hmessage
  · rcases hbuffered with ⟨hnil, -⟩ | ⟨-, hdecodes⟩
    · exact absurd hnil (append_ne_nil_of_right_ne_nil start hcontent)
    · have hread := hstart content hcontent
      cases hdecodes with
      | line hread' hline _ _ =>
        obtain ⟨⟩ := hread.symm.trans hread'
        cases hline
      | blocks hread' hstarted =>
        obtain ⟨⟩ := hread.symm.trans hread'
        obtain ⟨required', base', hrequired', hbase', ⟨-, hstate, -⟩ | ⟨-, -, -, rfl⟩⟩ :=
          readPrefix_eq_ok.mp hstarted
        · cases hstate
        · obtain rfl := Option.some.inj (hrequired.symm.trans hrequired')
          obtain rfl := Option.some.inj (hbase.symm.trans hbase')
          exact AList.lookup_insert _
      | starts hread' hstarted _ =>
        obtain ⟨⟩ := hread.symm.trans hread'
        obtain ⟨required', base', hrequired', -, ⟨hle, -⟩ | ⟨-, -, hstate, -⟩⟩ :=
          readPrefix_eq_ok.mp hstarted
        · obtain rfl := Option.some.inj (hrequired.symm.trans hrequired')
          exact absurd hlate (not_lt.mpr hle)
        · cases hstate
  · cases hnone

/-- As long as there is room, a section that arrives too early is blocked. -/
theorem decodeRepr_late (hfresh : d.streams.lookup streamId = none) (hfree : streamId ∉ d.blocked)
    (hstart : Starts start encoded signal deltaBase) (hcontent : content ≠ [])
    (hrequired : requireInsertCount d.table encoded = some required)
    (hbase : sectionBase required signal deltaBase = some base) (hlate : d.table.insertCount < required)
    (hroom : d.blocked.entries.length ≤ d.maxBlockedStreams) :
    d.decodeRepr (start ++ content) streamId =
      .ok .blocked { d with
        blocked := d.blocked.insert streamId required
        streams := (d.streams.erase streamId).insert streamId
          ⟨required, base, some (.reprIndex .firstByte), some content, .new⟩ } := by
  apply decodeRepr_eq_ok.mpr
  refine ⟨hfree, ⟨{ d with streams := d.streams.erase streamId, blocked := d.blocked.insert streamId required },
    ⟨required, base, some (.reprIndex .firstByte), some content, .new⟩⟩, ?_, rfl⟩
  rw [hfresh]
  apply decodeMessage_eq_ok.mpr
  refine .inl ⟨rfl, .inr ⟨append_ne_nil_of_right_ne_nil start hcontent, .blocks (hstart content hcontent) ?_⟩⟩
  exact readPrefix_eq_ok.mpr ⟨required, base, hrequired, hbase, .inr ⟨hlate, hroom, rfl, rfl⟩⟩

end Start

/-! ### The calls in between -/

/-- What the encoder stream does depends on the table and the state of its reader, and it leaves
the sections alone. -/
theorem decodeIns_state (h : (d.decodeIns buf).state? = some d') :
    ∃ table instState blocked, (instLoop d.maxTableCapacity (buf.length + 2) ⟨buf, d.instState⟩ d.table =
          .ok instState table ∨
        ∃ e, instLoop d.maxTableCapacity (buf.length + 2) ⟨buf, d.instState⟩ d.table = .err e table ∧
          instState = none) ∧ (∀ id, d.blocked.lookup id = none → blocked.lookup id = none) ∧
      d' = { d with table := table, instState := instState, blocked := blocked } := by
  simp only [decodeIns, bind_apply, insLoop_eq_instLoop] at h
  cases hloop : instLoop d.maxTableCapacity (buf.length + 2) ⟨buf, d.instState⟩ d.table with
  | panic =>
    rw [hloop] at h
    cases h
  | err e table =>
    rw [hloop] at h
    cases h
    exact ⟨table, none, d.blocked, .inr ⟨e, rfl, rfl⟩, fun _ hid => hid, rfl⟩
  | ok state table =>
    rw [hloop] at h
    cases h
    refine ⟨table, state, _, .inl rfl, fun id hid => ?_, rfl⟩
    refine AList.lookup_eq_none.mpr fun hmem => AList.lookup_eq_none.mp hid ?_
    exact (filter_sublist.map Sigma.fst).subset hmem

theorem decodeIns_eq_ok {ids : List Nat} : d.decodeIns buf = .ok ids d' ↔
      ∃ state table, instLoop d.maxTableCapacity (buf.length + 2) ⟨buf, d.instState⟩ d.table = .ok state table ∧
          unblock { d with table := table, instState := state } = .ok ids d' := by
  simp only [decodeIns, bind_apply, insLoop_eq_instLoop]
  cases instLoop d.maxTableCapacity (buf.length + 2) ⟨buf, d.instState⟩ d.table <;> simp

end QpackDecoder

/-- The call is not one for the stream. -/
def Call.Spares (streamId : Nat) : Call → Prop
  | .ins _ => True
  | .repr _ other => streamId ≠ other
  | .finish other => streamId ≠ other

/-- What calls for other streams leave alone. -/
structure Spared (streamId : Nat) (d d' : QpackDecoder) : Prop where
  limit : d'.maxFieldSectionSize = d.maxFieldSectionSize
  stream : d'.streams.lookup streamId = d.streams.lookup streamId
  free : d.blocked.lookup streamId = none → d'.blocked.lookup streamId = none

variable {streamId required : Nat} {c : Call} {d d' : QpackDecoder} {buf : List UInt8} {ids : List Nat}

theorem spared_step (hspares : c.Spares streamId) (h : c.step d = some d') : Spared streamId d d' := by
  have helse : ∀ {other : Nat}, streamId ≠ other → QpackDecoder.SameElse other d d' → Spared streamId d d' :=
    fun hne h => ⟨h.maxFieldSectionSize, h.streams _ hne, fun hfree => (h.blocked _ hne).trans hfree⟩
  cases c with
  | ins buf =>
    obtain ⟨table, instState, blocked, -, hblocked, rfl⟩ := QpackDecoder.decodeIns_state h
    exact ⟨rfl, rfl, hblocked streamId⟩
  | repr buf other => exact helse hspares (QpackDecoder.decodeRepr_frame h)
  | finish other => exact helse hspares (QpackDecoder.finish_frame h)

theorem spared_run : ∀ {calls : List Call} {d d' : QpackDecoder},
    (∀ c ∈ calls, c.Spares streamId) → run (fun d (c : Call) => c.step d) calls d = some d' → Spared streamId d d' := by
  intro calls
  induction calls with
  | nil =>
    rintro d d' _ ⟨⟩
    exact ⟨rfl, rfl, id⟩
  | cons c calls ih =>
    intro d d' hspares h
    obtain ⟨hhead, htail⟩ := forall_mem_cons.mp hspares
    obtain ⟨mid, hstep, hrest⟩ := Option.bind_eq_some_iff.mp h
    have hfirst := spared_step hhead hstep
    have hlast := ih htail hrest
    exact ⟨hlast.limit.trans hfirst.limit, hlast.stream.trans hfirst.stream,
      fun hfree => hlast.free (hfirst.free hfree)⟩

/-- Decoders that the encoder stream does the same to. -/
structure SameTable (d e : QpackDecoder) : Prop where
  table : d.table = e.table
  instState : d.instState = e.instState
  maxTableCapacity : d.maxTableCapacity = e.maxTableCapacity

theorem sameTable_step {e e' : QpackDecoder} (h : SameTable d e) (hd : c.step d = some d')
    (he : c.step e = some e') : SameTable d' e' := by
  have helse : ∀ {other : Nat}, QpackDecoder.SameElse other d d' → QpackDecoder.SameElse other e e' → SameTable d' e' := fun hd he =>
    ⟨by rw [hd.table, he.table, h.table], by rw [hd.instState, he.instState, h.instState],
      by rw [hd.maxTableCapacity, he.maxTableCapacity, h.maxTableCapacity]⟩
  cases c with
  | ins buf =>
    obtain ⟨table, instState, blocked, hloop, -, rfl⟩ := QpackDecoder.decodeIns_state hd
    obtain ⟨table', instState', blocked', hloop', -, rfl⟩ := QpackDecoder.decodeIns_state he
    rw [← h.table, ← h.instState, ← h.maxTableCapacity] at hloop'
    rcases hloop with hok | ⟨err, herr, rfl⟩
    · rcases hloop' with hok' | ⟨err', herr', rfl⟩
      · obtain ⟨⟩ := hok.symm.trans hok'
        exact ⟨rfl, rfl, h.maxTableCapacity⟩
      · cases hok.symm.trans herr'
    · rcases hloop' with hok' | ⟨err', herr', rfl⟩
      · cases herr.symm.trans hok'
      · obtain ⟨⟩ := herr.symm.trans herr'
        exact ⟨rfl, rfl, h.maxTableCapacity⟩
  | repr buf other => exact helse (QpackDecoder.decodeRepr_frame hd) (QpackDecoder.decodeRepr_frame he)
  | finish other => exact helse (QpackDecoder.finish_frame hd) (QpackDecoder.finish_frame he)

/-- Instructions that bring what a stream waits for unblock it. -/
theorem decodeIns_unblocks {d₁ : QpackDecoder}
    (h : SameTable d d₁) (hins : d.decodeIns buf = .ok ids d') (hblocked : d₁.blocked.lookup streamId = some required)
    (harrived : required ≤ d'.table.insertCount) :
    ∃ ids' d₂, d₁.decodeIns buf = .ok ids' d₂ ∧ streamId ∉ d₂.blocked := by
  obtain ⟨state, table, hloop, hunblock⟩ := QpackDecoder.decodeIns_eq_ok.mp hins
  obtain ⟨-, rfl⟩ := Outcome.ok.inj hunblock
  rw [h.table, h.instState, h.maxTableCapacity] at hloop
  refine ⟨_, _, QpackDecoder.decodeIns_eq_ok.mpr ⟨state, table, hloop, rfl⟩, ?_⟩
  intro hmem
  obtain ⟨⟨_, count⟩, hentry, rfl⟩ := mem_map.mp hmem
  obtain ⟨hin, hkeep⟩ := mem_filter.mp hentry
  obtain rfl := Option.some.inj ((AList.mem_lookup_iff.mpr hin).symm.trans hblocked)
  simp only [QpackDecoder.Unblocks, decide_eq_true harrived, Bool.not_true, Bool.false_eq_true] at hkeep

theorem sameTable_run : ∀ {calls : List Call} {d d' e e' : QpackDecoder}, SameTable d e →
    run (fun d (c : Call) => c.step d) calls d = some d' →
    run (fun d (c : Call) => c.step d) calls e = some e' → SameTable d' e' := by
  intro calls
  induction calls with
  | nil =>
    intro d d' e e' h hd he
    cases hd
    cases he
    exact h
  | cons c calls ih =>
    intro d d' e e' h hd he
    obtain ⟨mid, hstep, hrest⟩ := Option.bind_eq_some_iff.mp hd
    obtain ⟨mid', hstep', hrest'⟩ := Option.bind_eq_some_iff.mp he
    exact ih (sameTable_step h hstep hstep') hrest hrest'

/-! ### The two schedules -/

/-- What a section gives that is blocked and resumed after the calls, if the calls unblock it. -/
def blockAndResume (d : QpackDecoder) (streamId : Nat) (bytes : List UInt8) (calls : List Call) : Option Received :=
  match d.decodeRepr bytes streamId with
  | .ok .blocked d =>
    (run (fun d (c : Call) => c.step d) calls d).bind fun d =>
      if streamId ∈ d.blocked then none else some (d.receive [] streamId)
  | _ => none

/-- What a section gives that arrives after the calls. -/
def receiveAfter (d : QpackDecoder) (streamId : Nat) (bytes : List UInt8) (calls : List Call) : Option Received :=
  (run (fun d (c : Call) => c.step d) calls d).map fun d => d.receive bytes streamId

/-- The two schedules give the same. Sections that make the decoder panic anyway are left out. -/
def Agrees (d : QpackDecoder) (streamId : Nat) (bytes : List UInt8) (calls : List Call) : Prop :=
  ∀ r r', blockAndResume d streamId bytes calls = some r → receiveAfter d streamId bytes calls = some r' →
    r' ≠ .panic → r = r'

/-- A section that arrives too early, and calls for the encoder stream and other streams that
bring what it waits for: `d'` is the decoder that they leave without the section. The prefix
means the same to both. -/
structure Delayed (d d' : QpackDecoder) (streamId : Nat) (start : List UInt8) (calls : List Call)
    (required base : Nat) : Prop where
  fresh : d.streams.lookup streamId = none
  free : streamId ∉ d.blocked
  starts : ∃ encoded signal deltaBase, QpackDecoder.Starts start encoded signal deltaBase ∧
    requireInsertCount d.table encoded = some required ∧ requireInsertCount d'.table encoded = some required ∧
    sectionBase required signal deltaBase = some base
  late : d.table.insertCount < required
  arrived : required ≤ d'.table.insertCount
  spares : ∀ c ∈ calls, c.Spares streamId
  direct : run (fun d (c : Call) => c.step d) calls d = some d'
  resumes : ∀ content, content ≠ [] → (blockAndResume d streamId (start ++ content) calls).isSome

/-- Instructions that bring what the section waits for unblock it. -/
theorem resumes_of_ins {encoded deltaBase base : Nat} {signal : Bool}
    {start content : List UInt8} (hfresh : d.streams.lookup streamId = none)
    (hfree : streamId ∉ d.blocked) (hstart : QpackDecoder.Starts start encoded signal deltaBase)
    (hcontent : content ≠ []) (hrequired : requireInsertCount d.table encoded = some required)
    (hbase : sectionBase required signal deltaBase = some base) (hlate : d.table.insertCount < required)
    (hroom : d.blocked.entries.length ≤ d.maxBlockedStreams) (hins : d.decodeIns buf = .ok ids d')
    (harrived : required ≤ d'.table.insertCount) :
    (blockAndResume d streamId (start ++ content) [.ins buf]).isSome := by
  have hblocks := QpackDecoder.decodeRepr_late hfresh hfree hstart hcontent hrequired hbase hlate hroom
  have hsame := QpackDecoder.decodeRepr_frame (congrArg Outcome.state? hblocks)
  obtain ⟨ids', d₂, hins', hout⟩ :=
    decodeIns_unblocks ⟨hsame.table.symm, hsame.instState.symm, hsame.maxTableCapacity.symm⟩ hins
      (AList.lookup_insert _) harrived
  have hrun : run (fun d (c : Call) => c.step d) [.ins buf] _ = some d₂ :=
    Option.bind_eq_some_iff.mpr ⟨d₂, congrArg Outcome.state? hins', rfl⟩
  simp only [blockAndResume, hblocks, hrun, Option.bind_some, if_neg hout, Option.isSome_some]

/-- What the lines of the content give from a Base. -/
def contentResult (d : QpackDecoder) (base : Nat) (content : List UInt8) : Received :=
  lineResult (lineLoop ⟨d.maxFieldSectionSize, d.table, base⟩ (content.length + 2) content
    (some (.reprIndex .firstByte), .new))

section Schedules

variable {d d' : QpackDecoder} {streamId required base : Nat} {start content : List UInt8} {calls : List Call}

section

variable (h : Delayed d d' streamId start calls required base) (hcontent : content ≠ [])

include h hcontent

/-- The two schedules decode the same lines with the same table, from Base 0 and from the Base. -/
theorem Delayed.results : blockAndResume d streamId (start ++ content) calls = some (contentResult d' 0 content) ∧
      receiveAfter d streamId (start ++ content) calls = some (contentResult d' base content) := by
  obtain ⟨encoded, signal, deltaBase, hstart, hrequired, hsame, hbase⟩ := h.starts
  have hspared' := spared_run h.spares h.direct
  constructor
  · obtain ⟨r, hr⟩ := Option.isSome_iff_exists.mp (h.resumes content hcontent)
    rw [hr]
    rw [blockAndResume] at hr
    split at hr
    case h_1 d₁ hblocks =>
      obtain ⟨d₂, hresumed, hlast⟩ := Option.bind_eq_some_iff.mp hr
      obtain ⟨-, hlimit, hstream⟩ :=
        QpackDecoder.decodeRepr_blocks h.fresh hstart hcontent hrequired hbase h.late hblocks
      have hframe := QpackDecoder.decodeRepr_frame
        (show (d.decodeRepr (start ++ content) streamId).state? = some d₁ by rw [hblocks]; rfl)
      have hspared := spared_run h.spares hresumed
      have hsync :=
        sameTable_run ⟨hframe.table, hframe.instState, hframe.maxTableCapacity⟩ hresumed h.direct
      split_ifs at hlast with hmem
      · rw [← hlast, QpackDecoder.receive_resumed hmem (hspared.stream.trans hstream) rfl hcontent
          (.inr ⟨_, rfl, rfl⟩), hsync.table, hspared.limit, hlimit, ← hspared'.limit]
        rfl
    case h_2 => cases hr
  · rw [receiveAfter, h.direct, Option.map_some]
    congr 1
    apply QpackDecoder.receive_direct _ (hspared'.stream.trans h.fresh) hstart hcontent hsame hbase h.arrived
    exact AList.lookup_eq_none.mp (hspared'.free (AList.lookup_eq_none.mpr h.free))

theorem Delayed.agrees_iff : Agrees d streamId (start ++ content) calls ↔
      (contentResult d' base content ≠ .panic → contentResult d' 0 content = contentResult d' base content) := by
  obtain ⟨hresumed, hdirect⟩ := h.results hcontent
  rw [Agrees, hresumed, hdirect]
  constructor
  · intro hagrees
    exact hagrees _ _ rfl rfl
  · rintro hsame r r' ⟨⟩ ⟨⟩
    exact hsame

end

variable {repr : Representation}

/-- The lines of a content that is a single line panic exactly if its search does. -/
theorem contentResult_eq_panic (d : QpackDecoder) (base : Nat)
    (hread : ReprDecoder.decode ⟨content, some (.reprIndex .firstByte)⟩ = .ok (some repr) (afterLine [])) :
    contentResult d base content = .panic ↔
      Searcher.search ⟨d.maxFieldSectionSize, d.table, base⟩ repr .new = .panic := by
  rw [contentResult, lineLoop_succ, hread]
  dsimp only
  cases Searcher.search ⟨d.maxFieldSectionSize, d.table, base⟩ repr .new with
  | panic => exact ⟨fun _ => rfl, fun _ => rfl⟩
  | err | ok => constructor <;> rintro ⟨⟩

/-- A single line that finds nothing wrong from the Base, and faults from Base 0. -/
theorem Delayed.not_agrees (h : Delayed d d' streamId start calls required base) (hcontent : content ≠ [])
    (hread : ReprDecoder.decode ⟨content, some (.reprIndex .firstByte)⟩ = .ok (some repr) (afterLine []))
    (hline : repr.isPrefix = false) (hzero : Searcher.find ⟨d'.maxFieldSectionSize, d'.table, 0⟩ repr = .fault)
    (hsafe : Searcher.search ⟨d'.maxFieldSectionSize, d'.table, base⟩ repr .new ≠ .panic) :
    ¬ Agrees d streamId (start ++ content) calls := by
  rw [h.agrees_iff hcontent]
  intro hagrees
  have hdirect := (contentResult_eq_panic d' base hread).not.mpr hsafe
  have hresumed := (contentResult_eq_panic d' 0 hread).mpr ((search_eq_panic hline).mpr (.inl hzero))
  exact hdirect ((hagrees hdirect).symm.trans hresumed)

/-- The fields of the table are such as a section may hold. -/
structure Clean (t : DynamicTable) : Prop where
  accepts : ∀ f ∈ t.queue, Parts.Accepts f.field
  size : ∀ f ∈ t.queue, f.field.size < usizeSize
  count : t.insertCount < usizeSize

theorem Clean.mem {t : DynamicTable} (h : Clean t) {index : Nat} {f : Field} (hfind : t.find index = .found f) :
    Parts.Accepts f ∧ f.size < usizeSize := by
  rw [DynamicTable.find] at hfind
  split at hfind
  · cases hentry : t.queue[index - t.removeCount]? with
    | none =>
      rw [hentry] at hfind
      cases hfind
    | some entry =>
      rw [hentry] at hfind
      cases hfind
      have hmem := mem_of_getElem? hentry
      exact ⟨h.accepts entry hmem, h.size entry hmem⟩
  · cases hfind

theorem Clean.search_ne_panic {s : Searcher} (h : Clean s.table) (index : Nat)
    (hline : repr.isPrefix = false) (hfind : s.find repr = s.table.find index)
    (hindex : s.table.removeCount ≤ index) : s.search repr .new ≠ .panic := by
  intro hpanic
  rcases (search_eq_panic hline).mp hpanic with hfault | ⟨f, hfound, hharm⟩
  · rw [hfind, DynamicTable.find, if_pos hindex] at hfault
    exact Found.ofOption_ne_fault _ hfault
  · obtain ⟨haccepts, hsize⟩ := h.mem (hfind.symm.trans hfound)
    apply hharm
    constructor
    · intro _
      rw [FiledLines.new, zero_add]
      exact hsize
    · intro _
      exact haccepts

/-- The two schedules agree on every content of a section exactly if its Base is 0. -/
theorem agrees_iff_base_zero (h : Delayed d d' streamId start calls required base) (hclean : Clean d'.table) :
    (∀ content, content ≠ [] → Agrees d streamId (start ++ content) calls) ↔ base = 0 := by
  constructor
  · intro hagrees
    by_contra hbase
    by_cases hkept : d'.table.removeCount < base
    · -- The entry below the Base is still there: a relative reference to it.
      have hread := decode_indexed false (i := 0) (by decide) []
      rw [append_nil] at hread
      refine h.not_agrees (encode_ne_nil _ _ _) hread rfl rfl ?_ (hagrees _ (encode_ne_nil _ _ _))
      apply hclean.search_ne_panic (s := ⟨_, d'.table, base⟩) (base - 1) rfl
      · simp only [Searcher.find, DynamicTable.relative, Nat.pos_of_ne_zero hbase, ↓reduceIte,
          Nat.sub_zero, Option.some.injEq, Bool.false_eq_true]
      · exact Nat.le_sub_one_of_lt hkept
    · -- It has been evicted: a reference from the Base to the oldest entry that is there.
      have hremoved : d'.table.removeCount < usizeSize := by
        have := d'.table.insertCount_eq
        have := hclean.count
        omega
      have hread := decode_postIndexed (i := d'.table.removeCount - base) (by omega) []
      rw [append_nil] at hread
      refine h.not_agrees (encode_ne_nil _ _ _) hread rfl ?_ ?_ (hagrees _ (encode_ne_nil _ _ _))
      · have hlow : ¬ d'.table.removeCount ≤ 0 + (d'.table.removeCount - base) := by omega
        simp only [Searcher.find, DynamicTable.postBase, DynamicTable.find, hlow, ↓reduceIte, ite_self]
      · apply hclean.search_ne_panic (s := ⟨_, d'.table, base⟩) d'.table.removeCount rfl
        · have hsum : base + (d'.table.removeCount - base) = d'.table.removeCount := by omega
          simp only [Searcher.find, DynamicTable.postBase, hsum, hremoved, ↓reduceIte]
        · exact Nat.le_refl _
  · rintro rfl content hcontent
    exact (h.agrees_iff hcontent).mpr fun _ => rfl

end Schedules

/-! ### Two sections -/

/-- A decoder whose table takes 64 bytes and is empty. -/
def emptyTable64 : QpackDecoder :=
  { QpackDecoder.new 1 64 with table := { DynamicTable.withEmpty with capacity := 64 } }

example : ((QpackDecoder.new 1 64).decodeIns [0x3f, 0x21]).state? = some emptyTable64 := rfl

theorem starts_baseZero : QpackDecoder.Starts [0x02, 0x80] 2 true 0 := by
  intro content hcontent
  exact decode_prefixOctets true (show 2 < usizeSize by decide) (show 0 < usizeSize by decide) hcontent

/-- The section has Base 0, and waits for the entry `a: b`. -/
theorem delayed_baseZero : Delayed emptyTable64
      { emptyTable64 with table := emptyTable64.table.update (.other [0x61]) [0x62] } 0 [0x02, 0x80]
      [.ins [0x41, 0x61, 0x01, 0x62]] 1 0 where
  fresh := rfl
  free := by decide
  starts := ⟨2, true, 0, starts_baseZero, rfl, rfl, rfl⟩
  late := by decide
  arrived := by decide
  spares := by
    intro c hc
    obtain rfl := mem_singleton.mp hc
    trivial
  direct := rfl
  resumes := by
    intro content hcontent
    exact resumes_of_ins rfl (by decide) starts_baseZero hcontent rfl rfl (by decide) (by decide)
      (show emptyTable64.decodeIns [0x41, 0x61, 0x01, 0x62] = .ok [] _ from rfl) (by decide)

theorem clean_baseZero : Clean (emptyTable64.table.update (.other [0x61]) [0x62]) where
  accepts := by
    intro f hf
    obtain rfl := mem_singleton.mp hf
    exact (by decide +kernel : Headers.Accepts [0x61] [0x62])
  size := by
    intro f hf
    obtain rfl := mem_singleton.mp hf
    decide
  count := by decide

theorem agrees_baseZero :
    ∃ d d', Delayed d d' 0 [0x02, 0x80] [.ins [0x41, 0x61, 0x01, 0x62]] 1 0 ∧ Clean d'.table ∧
      ((∀ content, content ≠ [] → Agrees d 0 ([0x02, 0x80] ++ content) [.ins [0x41, 0x61, 0x01, 0x62]]) ↔ 0 = 0) :=
  ⟨_, _, delayed_baseZero, clean_baseZero, agrees_iff_base_zero delayed_baseZero clean_baseZero⟩

/-- With Base 1 the section refers to the entry as the one below the Base. Once it is resumed
there is nothing below its Base. -/
theorem resumed_below_base : ¬ Agrees emptyTable64 0 [0x02, 0x00, 0x80] [.ins [0x41, 0x61, 0x01, 0x62]] := by
  intro hagrees
  have hresumed : (blockAndResume emptyTable64 0 [0x02, 0x00, 0x80] [.ins [0x41, 0x61, 0x01, 0x62]]).any
      Received.isPanic = true := by decide +kernel
  have hdirect : (receiveAfter emptyTable64 0 [0x02, 0x00, 0x80] [.ins [0x41, 0x61, 0x01, 0x62]]).any
      Received.isParts = true := by decide +kernel
  obtain ⟨r, hr, hpanic⟩ := Option.any_eq_true _ _ |>.mp hresumed
  obtain ⟨r', hr', hparts⟩ := Option.any_eq_true _ _ |>.mp hdirect
  cases r' with
  | parts parts =>
    rw [hagrees r (.parts parts) hr hr' (by rintro ⟨⟩)] at hpanic
    cases hpanic
  | error | blocked | panic => cases hparts

end YlongHttp.H3.Qpack
