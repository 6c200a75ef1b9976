/-
The QPACK decoder (`h3/qpack/decoder.rs`, `h3/parts.rs`).

A field section is decoded into the message of its stream. Its prefix gives the Required
Insert Count and the Base. A section whose count the table has not reached is blocked: the
lines after the prefix are kept in the message, and the next call for the stream decodes them
first. The searcher of a call starts with Base 0 and learns the Base from a prefix only, so
the lines of a section that was blocked are looked up from 0.

`FiledLines.decoded` is a history variable: the lines decoded so far with their fields. No
definition of the model reads it.
-/

import YlongHttp.H2.Parts
import YlongHttp.H3.Qpack.ReprDecoder

namespace YlongHttp.H3.Qpack

open Rust
open YlongHttp.H2 (Parts)
open H2.Hpack (Name usizeSize IntegerEncoder)

/-! ### Values -/

/-- `String::from_utf8` accepts the bytes. -/
def isUtf8 (bytes : List UInt8) : Bool := (ByteArray.mk bytes.toArray).validateUTF8

/-- `String::from_utf8(bytes)`, with the error that the caller maps a failure to. -/
def fromUtf8 {σ : Type} (e : QpackError) (bytes : List UInt8) : Method σ QpackError (List UInt8) :=
  if isUtf8 bytes then pure bytes else throw e

/-- `ok_or(e)?`. -/
def okOr {σ α : Type} (e : QpackError) : Option α → Method σ QpackError α
  | some a => pure a
  | none => throw e

/-- `a + b` on `usize`. -/
def usizeAdd {σ ε : Type} (a b : Nat) : Method σ ε Nat :=
  if a + b < usizeSize then pure (a + b) else Method.panicked

/-- The loop of `Integer::encode`. -/
def Integer.encodeLoop : Nat → IntegerEncoder → List UInt8
  | 0, _ => []
  | fuel + 1, int =>
    if int.isFinish then []
    else
      match int.nextByte with
      | (some byte, int) => byte :: Integer.encodeLoop fuel int
      | (none, int) => Integer.encodeLoop fuel int

def Integer.encode (int : IntegerEncoder) : List UInt8 := Integer.encodeLoop (int.i + 3) int

def Integer.index (pre : UInt8) (index : Nat) (mask : UInt8) : IntegerEncoder := .new index mask pre

/-! ### Encoder instructions -/

namespace Updater

def encoderStreamError : QpackError := .connectionError .encoderStreamError

/-- The dynamic entry at a relative index: `insert_count - index - 1` is its absolute one. -/
def absoluteIndex {σ ε : Type} (count index : Nat) : Method σ ε Nat := do
  let i ← checkedSub count index
  checkedSub i 1

def getFieldByNameAndValue {σ : Type} (table : DynamicTable) (midBit : MidBit) (name : Name)
    (value : List UInt8) : Method σ QpackError Field := do
  let h ← match name with
    | .index index =>
      if midBit.t = some true then okOr encoderStreamError (StaticTable.fieldName index)
      else do
        let i ← absoluteIndex table.insertCount index
        okOr encoderStreamError (← table.fieldName i)
    | .literal octets => H2.Hpack.Header.other <$> fromUtf8 encoderStreamError octets
  let v ← fromUtf8 encoderStreamError value
  return (h, v)

def updateCapacity (capacity : Nat) : Method DynamicTable QpackError Unit :=
  modify fun table => table.updateSize capacity

def updateTable (midBit : MidBit) (name : Name) (value : List UInt8) : Method DynamicTable QpackError Unit := do
  let f ← getFieldByNameAndValue (← get) midBit name value
  modify fun table => table.update f.1 f.2

def duplicate (index : Nat) : Method DynamicTable QpackError Unit := do
  let table ← get
  let i ← absoluteIndex table.insertCount index
  let f ← okOr encoderStreamError (← table.field i)
  modify fun table => table.update f.1 f.2

/-- The arms of `decode_ins`. -/
def apply (maxTableCapacity : Nat) : EncoderInstruction → Method DynamicTable QpackError Unit
  | .setCap capacity =>
    if capacity > maxTableCapacity then throw decompressionFailed else updateCapacity capacity
  | .insertWithIndex midBit name value => updateTable midBit name value
  | .insertWithLiteral midBit name value => updateTable midBit name value
  | .duplicate index => duplicate index

end Updater

/-! ### Field lines -/

structure FiledLines where
  parts : Parts
  headerSize : Nat
  decoded : List (Representation × Field)

def FiledLines.new : FiledLines := ⟨.new, 0, []⟩

structure Searcher where
  maxFieldSectionSize : Nat
  table : DynamicTable
  base : Nat

namespace Searcher

def updateSize (addition : Nat) : Method FiledLines QpackError Unit := do
  let lines ← get
  let size ← usizeAdd lines.headerSize addition
  set { lines with headerSize := size }

def checkFieldListSize (s : Searcher) (f : Field) : Method FiledLines QpackError Unit := do
  updateSize f.size
  if (← get).headerSize > s.maxFieldSectionSize then throw decompressionFailed

/-- `lines.parts.update(f, v)`, which unwraps the result of `Headers::append`. -/
def updateParts (repr : Representation) (f : Field) : Method FiledLines QpackError Unit := fun lines =>
  match lines.parts.update f.1 f.2 with
  | some parts => .ok () { lines with parts := parts, decoded := lines.decoded ++ [(repr, f)] }
  | none => .panic

def getFieldByNameAndValue {σ : Type} (s : Searcher) (midBit : MidBit) (name : Name)
    (value : List UInt8) (repr : ReprPrefixBit) : Method σ QpackError Field := do
  let h ← match name with
    | .index index =>
      if repr = .literalWithIndexing then
        if midBit.t = some true then okOr decompressionFailed (StaticTable.fieldName index)
        else do
          let i ← Updater.absoluteIndex s.base index
          okOr decompressionFailed (← s.table.fieldName i)
      else do
        let i ← usizeAdd s.base index
        okOr decompressionFailed (← s.table.fieldName i)
    | .literal octets => H2.Hpack.Header.other <$> fromUtf8 decompressionFailed octets
  let v ← fromUtf8 decompressionFailed value
  return (h, v)

/-- An indexed line is not charged to the size of the section. -/
def searchIndexed (s : Searcher) (midBit : MidBit) (index : Nat) : Method FiledLines QpackError Unit := do
  if midBit.t = some true then do
    let f ← okOr decompressionFailed (StaticTable.field index)
    updateParts (.indexed midBit index) f
  else do
    let i ← Updater.absoluteIndex s.base index
    let f ← okOr decompressionFailed (← s.table.field i)
    updateParts (.indexed midBit index) f

def searchPostIndexed (s : Searcher) (index : Nat) : Method FiledLines QpackError Unit := do
  let i ← usizeAdd s.base index
  let f ← okOr decompressionFailed (← s.table.field i)
  s.checkFieldListSize f
  updateParts (.indexedWithPostIndex index) f

/-- The three searches of literal lines differ in the kind that they look the name up for. -/
def searchLiteral (s : Searcher) (kind : ReprPrefixBit) (repr : Representation) (midBit : MidBit) (name : Name)
    (value : List UInt8) : Method FiledLines QpackError Unit := do
  let f ← s.getFieldByNameAndValue midBit name value kind
  s.checkFieldListSize f
  updateParts repr f

def searchLiteralWithIndexing (s : Searcher) (midBit : MidBit) (name : Name) (value : List UInt8) :
    Method FiledLines QpackError Unit :=
  s.searchLiteral .literalWithIndexing (.literalWithIndexing midBit name value) midBit name value

def searchLiteralWithPostIndexing (s : Searcher) (midBit : MidBit) (name : Name) (value : List UInt8) :
    Method FiledLines QpackError Unit :=
  s.searchLiteral .literalWithPostIndexing (.literalWithPostIndexing midBit name value) midBit name value

def searchListeralWithLiteral (s : Searcher) (midBit : MidBit) (name : Name) (value : List UInt8) :
    Method FiledLines QpackError Unit :=
  s.searchLiteral .literalWithLiteralName (.literalWithLiteralName midBit name value) midBit name value

/-- The arms of `decode_buffered_repr` for lines. A prefix is not a line. -/
def search (s : Searcher) : Representation → Method FiledLines QpackError Unit
  | .fieldSectionPrefix _ _ _ => pure ()
  | .indexed midBit index => s.searchIndexed midBit index
  | .indexedWithPostIndex index => s.searchPostIndexed index
  | .literalWithIndexing midBit name value => s.searchLiteralWithIndexing midBit name value
  | .literalWithPostIndexing midBit name value => s.searchLiteralWithPostIndexing midBit name value
  | .literalWithLiteralName midBit name value => s.searchListeralWithLiteral midBit name value

end Searcher

/-! ### The prefix of a section -/

/-- The Required Insert Count that an encoded one stands for. Without one the section is
refused. -/
def requireInsertCount (table : DynamicTable) (encoded : Nat) : Option Nat :=
  if encoded = 0 then some 0
  else
    let maxEntries := table.maxEntries
    let fullRange := 2 * maxEntries
    if encoded > fullRange then none
    else
      let maxValue := table.insertCount + maxEntries
      let maxWrapped := maxValue / fullRange * fullRange
      let required := maxWrapped + encoded - 1
      if required > maxValue then
        if required ≤ fullRange then none
        else if required - fullRange = 0 then none
        else some (required - fullRange)
      else if required = 0 then none
      else some required

/-- The Base of a section, unless the subtraction underflows or the sum overflows. -/
def sectionBase (required : Nat) (signal : Bool) (deltaBase : Nat) : Option Nat :=
  if signal then if deltaBase + 1 ≤ required then some (required - deltaBase - 1) else none
  else if required + deltaBase < usizeSize then some (required + deltaBase)
  else none

/-! ### The decoder -/

inductive FieldDecodeState where
  | blocked
  | decoded
deriving DecidableEq, Repr

structure ReprMessage where
  requireInsertCount : Nat
  base : Nat
  reprState : Option ReprDecodeState
  remaining : Option (List UInt8)
  lines : FiledLines

def ReprMessage.new : ReprMessage := ⟨0, 0, none, none, .new⟩

structure QpackDecoder where
  table : DynamicTable
  instState : Option InstDecodeState
  streams : AList fun _ : Nat => ReprMessage
  blocked : AList fun _ : Nat => Nat
  maxBlockedStreams : Nat
  maxTableCapacity : Nat
  maxFieldSectionSize : Nat

namespace QpackDecoder

def new (maxBlockedStreams maxTableCapacity : Nat) : QpackDecoder :=
  { table := .withEmpty
    instState := none
    streams := ∅
    blocked := ∅
    maxBlockedStreams := maxBlockedStreams
    maxTableCapacity := maxTableCapacity
    maxFieldSectionSize := 2 ^ 62 - 1 }

def setMaxFieldSectionSize (d : QpackDecoder) (size : Nat) : QpackDecoder :=
  { d with maxFieldSectionSize := size }

/-- The loop of `decode_ins`. -/
def insLoop : Nat → Reading InstDecodeState → Method QpackDecoder QpackError Unit
  | 0, _ => Method.panicked
  | fuel + 1, r => fun d =>
    if r.buf.isEmpty then .ok () { d with instState := r.state }
    else
      match EncInstDecoder.decode r with
      | .ok (some inst) r =>
        ((Updater.apply d.maxTableCapacity inst).onField QpackDecoder.table
          (fun table d => { d with table := table }) >>= fun _ => insLoop fuel r :
            Method QpackDecoder QpackError Unit) d
      | .ok none r => .ok () { d with instState := r.state }
      | .err e _ => .err e d
      | .panic => .panic

/-- Whether the table has what a blocked stream waits for. -/
def Unblocks (insertCount : Nat) (entry : Sigma fun _ : Nat => Nat) : Bool := entry.2 ≤ insertCount

theorem nodupKeys_retain (m : AList fun _ : Nat => Nat) (p : (Sigma fun _ : Nat => Nat) → Bool) :
    (m.entries.filter p).NodupKeys :=
  m.nodupKeys.sublist List.filter_sublist

/-- `HashMap::retain`. -/
def retain (m : AList fun _ : Nat => Nat) (p : (Sigma fun _ : Nat => Nat) → Bool) : AList fun _ : Nat => Nat :=
  ⟨m.entries.filter p, nodupKeys_retain m p⟩

/-- The streams that the instructions unblock, in the order of the map. -/
def unblock : Method QpackDecoder QpackError (List Nat) := fun d =>
  .ok ((d.blocked.entries.filter (Unblocks d.table.insertCount)).map Sigma.fst)
    { d with blocked := retain d.blocked fun entry => !Unblocks d.table.insertCount entry }

/-- `decode_ins`. The state that the last call left is taken out first. -/
def decodeIns (buf : List UInt8) : Method QpackDecoder QpackError (List Nat) := fun d =>
  (insLoop (buf.length + 2) ⟨buf, d.instState⟩ >>= fun _ => unblock :
    Method QpackDecoder QpackError (List Nat)) { d with instState := none }

/-- The decoder and the message of the stream that it works on. -/
abbrev Working := Method (QpackDecoder × ReprMessage) QpackError

/-- A prefix sets the count and the base of the message, and blocks the stream if the table
lags behind. -/
def readPrefix (streamId encoded : Nat) (signal : Bool) (deltaBase : Nat) (rest : List UInt8) :
    Working FieldDecodeState := fun (d, message) =>
  match requireInsertCount d.table encoded with
  | none => .err decompressionFailed (d, message)
  | some required =>
    match sectionBase required signal deltaBase with
    | none => .panic
    | some base =>
      let message := { message with requireInsertCount := required, base := base }
      if required > d.table.insertCount then
        if d.blocked.entries.length > d.maxBlockedStreams then .err decompressionFailed (d, message)
        else
          .ok .blocked
            ({ d with blocked := d.blocked.insert streamId required }, { message with remaining := some rest })
      else .ok .decoded (d, message)

/-- A line is searched from the base. -/
def searchLine (base : Nat) (line : Representation) : Working Unit := fun s =>
  ((⟨s.1.maxFieldSectionSize, s.1.table, base⟩ : Searcher).search line s.2.lines).mapState
    fun lines => (s.1, { s.2 with lines := lines })

/-- A blocked section ends the call. The lines of another one are searched from its base. -/
def afterPrefix (next : Nat → Working FieldDecodeState) : FieldDecodeState → Working FieldDecodeState
  | .blocked => pure .blocked
  | .decoded => fun s => next s.2.base s

/-- The arms of `decode_buffered_repr`. `next` is the rest of the loop, which goes on with
the bytes after the line and the base. -/
def round (streamId base : Nat) (next : List UInt8 → Nat → Working FieldDecodeState)
    (repr : Representation) (rest : List UInt8) : Working FieldDecodeState :=
  match repr with
  | .fieldSectionPrefix encoded signal deltaBase =>
    readPrefix streamId encoded signal deltaBase rest >>= afterPrefix (next rest)
  | line => searchLine base line >>= fun _ => next rest base

/-- The loop of `decode_buffered_repr`. -/
def reprLoop (streamId : Nat) : Nat → List UInt8 → Nat → Working FieldDecodeState
  | 0, _, _ => Method.panicked
  | fuel + 1, buf, base => fun s =>
    match ReprDecoder.decode ⟨buf, s.2.reprState⟩ with
    | .ok (some repr) r =>
      round streamId base (reprLoop streamId fuel) repr r.buf (s.1, { s.2 with reprState := r.state })
    | .ok none r => .ok .decoded (s.1, { s.2 with reprState := r.state })
    | .err e _ => .err e s
    | .panic => .panic

def decodeBufferedRepr (buf : List UInt8) (streamId : Nat) : Working FieldDecodeState :=
  if buf.isEmpty then pure .decoded else reprLoop streamId (buf.length + 2) buf 0

/-- What a blocked section left is decoded before the new bytes. -/
def decodeMessage (buf : List UInt8) (streamId : Nat) : Working FieldDecodeState := do
  match (← get).2.remaining with
  | some vec => do
    modify fun s => (s.1, { s.2 with remaining := none })
    let _ ← decodeBufferedRepr vec streamId
    decodeBufferedRepr buf streamId
  | none => decodeBufferedRepr buf streamId

/-- `decode_repr`. The message of the stream goes back into the map if the call succeeds. -/
def decodeRepr (buf : List UInt8) (streamId : Nat) : Method QpackDecoder QpackError FieldDecodeState := fun d =>
  if streamId ∈ d.blocked then .err (.internalError .streamBlocked) d
  else
    match decodeMessage buf streamId
        ({ d with streams := d.streams.erase streamId }, (d.streams.lookup streamId).getD .new) with
    | .ok state (d, message) => .ok state { d with streams := d.streams.insert streamId message }
    | .err e (d, _) => .err e d
    | .panic => .panic

/-- `finish`, with the Section Acknowledgment that it writes. -/
def finish (streamId : Nat) : Method QpackDecoder QpackError (Parts × Option (List UInt8)) := fun d =>
  match d.streams.lookup streamId with
  | none => .err decompressionFailed d
  | some message =>
    let d := { d with streams := d.streams.erase streamId }
    if message.reprState.isSome then .err decompressionFailed d
    else if message.requireInsertCount > 0 then
      .ok (message.lines.parts, some (Integer.encode (Integer.index 0x80 streamId 0x7f))) d
    else .ok (message.lines.parts, none) d

end QpackDecoder

/-! ### Runs -/

inductive Call where
  | ins (buf : List UInt8)
  | repr (buf : List UInt8) (streamId : Nat)
  | finish (streamId : Nat)

/-- The decoder that a call leaves. -/
def Call.step (d : QpackDecoder) : Call → Option QpackDecoder
  | .ins buf => (d.decodeIns buf).state?
  | .repr buf streamId => (d.decodeRepr buf streamId).state?
  | .finish streamId => (d.finish streamId).state?

end YlongHttp.H3.Qpack
