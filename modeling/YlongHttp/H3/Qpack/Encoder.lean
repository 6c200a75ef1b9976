/-
The QPACK encoder (`h3/qpack/encoder.rs`, `ReprEncoder` of `h3/qpack/format/encoder.rs`).

A section is written line by line. `Encoding` is what the lines have come to: the table, the
entries they refer to, and the bytes for the section and for the encoder stream. The entries
that a section refers to are tracked until its acknowledgment, and a set of them is iterated
in an order that only the hash map knows: `HashOrder`.
-/

import YlongHttp.H3.Qpack.Format

namespace YlongHttp.H3.Qpack

open Rust
open YlongHttp.H2 (Parts)
open H2.Hpack (PartsIter usizeSize)

/-! ### Lines -/

inductive SearchResult where
  | staticIndex (index : Nat)
  | staticNameIndex (index : Nat)
  | dynamicIndex (index : Nat)
  | dynamicNameIndex (index : Nat)
  | notFound
deriving DecidableEq, Repr

/-- The name is taken from the static table if both have it. -/
def searchFiledFromTable (t : DynamicTable) (f : Field) (allowBlock : Bool) : SearchResult :=
  match StaticTable.index f.1 f.2 with
  | .field index => .staticIndex index
  | .fieldName index =>
    match t.index f.1 f.2 allowBlock with
    | .field index => .dynamicIndex index
    | _ => .staticNameIndex index
  | .none =>
    match t.index f.1 f.2 allowBlock with
    | .field index => .dynamicIndex index
    | .fieldName index => .dynamicNameIndex index
    | .none => .notFound

/-- What the lines of a section have come to. -/
structure Encoding where
  table : DynamicTable
  refFields : List Nat
  fields : List UInt8
  inst : List UInt8

/-- Lines are encoded without errors. -/
abbrev Encodes := Method Encoding Empty

namespace Encodes

def onTable {α : Type} (m : Method DynamicTable Empty α) : Encodes α :=
  m.onField Encoding.table fun table e => { e with table := table }

def writeField (bytes : List UInt8) : Encodes Unit := modify fun e => { e with fields := e.fields ++ bytes }

def writeInst (bytes : List UInt8) : Encodes Unit := modify fun e => { e with inst := e.inst ++ bytes }

end Encodes

open Encodes

/-- An entry is tracked once for a section: `ref_fields.insert(index)` says whether it is new. -/
def refer (index : Nat) : Encodes Unit := do
  let e ← get
  if index ∈ e.refFields then pure ()
  else do
    set { e with refFields := e.refFields ++ [index] }
    onTable (DynamicTable.trackField index)

/-- The encoder for the lines of one section. -/
structure ReprEncoder where
  base : Nat
  isHuffman : Bool
  allowBlock : Bool

namespace ReprEncoder

def indexedDynamicField (r : ReprEncoder) (index : Nat) : List UInt8 :=
  if index ≥ r.base then IndexedWithPost.encode (index - r.base)
  else Indexed.encode (r.base - index - 1) false

/-- A name below the Base is written in the format of an instruction. -/
def indexedNameRefWithLiteralField (r : ReprEncoder) (index : Nat) (value : List UInt8) : List UInt8 :=
  if index ≥ r.base then IndexingWithPostName.encode (index - r.base) value r.isHuffman false
  else InsertWithName.encode (r.base - index - 1) value r.isHuffman false

/-- A field that finds no room goes to the encoder stream as a literal line. -/
def addFieldToDynamic (r : ReprEncoder) (f : Field) : Encodes (Option Nat) := do
  match ← (← get).table.canEvict f.size with
  | some len => do
    writeInst (InsertWithLiteral.encode f.1.intoString f.2 r.isHuffman)
    onTable (DynamicTable.evictDrained len)
    let index := (← get).table.insertCount
    onTable (modify fun t => t.update f.1 f.2)
    return some index
  | none => do
    writeInst (IndexingWithLiteral.encode f.1.intoString f.2 r.isHuffman false)
    return none

/-- `encode_field`, with the entry that the line refers to. -/
def encodeField (r : ReprEncoder) (f : Field) : Encodes (Option Nat) := do
  match searchFiledFromTable (← get).table f r.allowBlock with
  | .staticIndex index => do
    writeField (Indexed.encode index true)
    return none
  | .staticNameIndex index => do
    writeField (IndexingWithName.encode index f.2 r.isHuffman true false)
    return none
  | .dynamicIndex index => do
    writeField (r.indexedDynamicField index)
    refer index
    return some index
  | .dynamicNameIndex index => do
    writeField (r.indexedNameRefWithLiteralField index f.2)
    refer index
    return some index
  | .notFound =>
    if r.allowBlock then do
      match ← r.addFieldToDynamic f with
      | some index => do
        writeField (r.indexedDynamicField index)
        modify fun e => { e with
          refFields := if index ∈ e.refFields then e.refFields else e.refFields ++ [index] }
        onTable (DynamicTable.trackField index)
        return some index
      | none => do
        writeField (IndexingWithLiteral.encode f.1.intoString f.2 r.isHuffman false)
        return none
    else do
      writeField (IndexingWithLiteral.encode f.1.intoString f.2 r.isHuffman false)
      return none

/-- The loop over the fields, with the largest entry that a line refers to. -/
def encodeIter (r : ReprEncoder) : Nat → PartsIter → Nat → Encodes Nat
  | 0, _, _ => Method.panicked
  | fuel + 1, iter, maxDynamic =>
    match iter.next with
    | (none, _) => pure maxDynamic
    | (some f, iter) => do
      match ← r.encodeField f with
      | some dynRef => r.encodeIter fuel iter (max maxDynamic dynRef)
      | none => r.encodeIter fuel iter maxDynamic

/-- `get_prefix`. A reference to the entry 0 alone is taken for none. -/
def getPrefix (r : ReprEncoder) (t : DynamicTable) (maxRef : Nat) : Encodes (List UInt8) :=
  if maxRef ≠ 0 then
    if t.maxEntries = 0 then Method.panicked
    else
      let requiredInsertCount := maxRef + 1
      let wireRic := requiredInsertCount % (2 * t.maxEntries) + 1
      pure (Integer.encode (Integer.index 0x00 wireRic 0xff) ++
        if r.base ≥ requiredInsertCount then
          Integer.encode (Integer.index 0x00 (r.base - requiredInsertCount) 0x7f)
        else Integer.encode (Integer.index 0x80 (requiredInsertCount - r.base - 1) 0x7f))
  else
    pure (Integer.encode (Integer.index 0x00 0 0xff) ++ Integer.encode (Integer.index 0x00 0 0x7f))

end ReprEncoder

/-! ### The encoder -/

/-- The order in which a set of indices is iterated. -/
structure HashOrder where
  order : List Nat → List Nat
  perm : ∀ indices, (order indices).Perm indices

structure EncodeMessage where
  fields : List UInt8
  inst : List UInt8
deriving DecidableEq, Repr

/-- The entries that the sections of a stream refer to, for those not yet acknowledged. -/
abbrev UnackFields := List (List Nat)

/-- The fields of the source that nothing reads are left out. -/
structure QpackEncoder where
  maxBlockedStreams : Nat
  blockedStreamNums : Nat
  capacityToUpdate : Option Nat
  trackedStream : AList fun _ : Nat => UnackFields
  table : DynamicTable
  isHuffman : Bool
  fieldIter : Option PartsIter
  instState : Option DecInstIndexInner

namespace QpackEncoder

def new (isHuffman : Bool) : QpackEncoder :=
  { maxBlockedStreams := 0
    blockedStreamNums := 0
    capacityToUpdate := none
    trackedStream := ∅
    table := .withEmpty
    isHuffman := isHuffman
    fieldIter := none
    instState := none }

def maxTableCapacity : Nat := 2 ^ 30 - 1

def setMaxTableCapacity (maxCap : Nat) : Method QpackEncoder QpackError Unit := do
  if maxCap > maxTableCapacity then throw (.connectionError .h3SettingsError)
  modify fun e => { e with capacityToUpdate := some maxCap }

def setMaxBlockedStreamSize (e : QpackEncoder) (maxBlocked : Nat) : QpackEncoder :=
  { e with maxBlockedStreams := maxBlocked }

def setParts (e : QpackEncoder) (parts : Parts) : QpackEncoder := { e with fieldIter := some (.new parts) }

/-! #### Acknowledgments -/

/-- The loop of `ack` over the entries of a section, with the count that it comes to. -/
def ackLoop {ε : Type} : List Nat → Nat → Method DynamicTable ε Nat
  | [], knownReceived => pure knownReceived
  | index :: indices, knownReceived => do
    DynamicTable.untrackedField index
    ackLoop indices (if index > knownReceived then knownReceived + 1 else knownReceived)

def onTable {α : Type} (m : Method DynamicTable QpackError α) : Method QpackEncoder QpackError α :=
  m.onField QpackEncoder.table fun table e => { e with table := table }

/-- A stream with an entry that is not known to be received. -/
def isBlocked (known : Nat) (unacked : UnackFields) : Bool := unacked.flatten.any (· > known)

def blockedCount (known : Nat) (tracked : AList fun _ : Nat => UnackFields) : Nat :=
  tracked.entries.countP fun entry => isBlocked known entry.2

def updateBlockedStream (e : QpackEncoder) : QpackEncoder :=
  { e with blockedStreamNums := blockedCount e.table.knownReceivedCount e.trackedStream }

def increaseInsertCount (increment : Nat) : Method QpackEncoder QpackError Unit := do
  onTable (DynamicTable.increaseKnownReceiveCount increment)
  modify updateBlockedStream

/-- The first section of the stream is acknowledged, and a stream without another one is
forgotten. -/
def ackSection (order : HashOrder) (streamId : Nat) (knownReceived : Nat) : Method QpackEncoder QpackError Nat := do
  match (← get).trackedStream.lookup streamId with
  | none => return knownReceived
  | some [] => do
    modify fun e => { e with trackedStream := e.trackedStream.erase streamId }
    return knownReceived
  | some (refs :: rest) => do
    let knownReceived ← onTable (ackLoop (order.order refs) knownReceived)
    modify fun e => { e with
      trackedStream :=
        if rest = [] then e.trackedStream.erase streamId else e.trackedStream.insert streamId rest }
    return knownReceived

def ack (order : HashOrder) (streamId : Nat) : Method QpackEncoder QpackError Unit := do
  let knownReceived ← ackSection order streamId (← get).table.knownReceivedCount
  let increment ← checkedSub knownReceived (← get).table.knownReceivedCount
  if increment > 0 then increaseInsertCount increment

/-- The loop of `cancel_stream` over the entries. -/
def untrackAll {ε : Type} : List Nat → Method DynamicTable ε Unit
  | [] => pure ()
  | index :: indices => do
    DynamicTable.untrackedField index
    untrackAll indices

def cancelStream (streamId : Nat) : Method QpackEncoder QpackError Unit := do
  let e ← get
  match e.trackedStream.lookup streamId with
  | none => pure ()
  | some unacked => do
    set { e with trackedStream := e.trackedStream.erase streamId }
    onTable (untrackAll unacked.flatten)
    if isBlocked e.table.knownReceivedCount unacked then do
      let nums ← checkedSub e.blockedStreamNums 1
      modify fun e => { e with blockedStreamNums := nums }

def applyInst (order : HashOrder) : DecoderInstruction → Method QpackEncoder QpackError Unit
  | .ack streamId => ack order streamId
  | .streamCancel streamId => cancelStream streamId
  | .insertCountIncrement increment => increaseInsertCount increment

/-- The loop of `decode_ins`. -/
def insLoop (order : HashOrder) : Nat → Reading DecInstIndexInner → Method QpackEncoder QpackError Unit
  | 0, _ => Method.panicked
  | fuel + 1, r =>
    match DecInstDecoder.decode r with
    | .ok (some inst) r => applyInst order inst >>= fun _ => insLoop order fuel r
    | .ok none r => modify fun e => { e with instState := r.state }
    | .err e _ => throw e
    | .panic => Method.panicked

/-- `decode_ins`. The state that the last call left is taken out first. -/
def decodeIns (order : HashOrder) (buf : List UInt8) : Method QpackEncoder QpackError Unit := fun e =>
  insLoop order (buf.length + 1) ⟨buf, e.instState⟩ { e with instState := none }

/-! #### Sections -/

/-- A capacity that the table refuses stays pending. -/
def updateMaxDynamicTableCap : Method QpackEncoder Empty (List UInt8) := do
  match (← get).capacityToUpdate with
  | none => return []
  | some newCap => do
    match ← (DynamicTable.updateCapacity newCap).onField QpackEncoder.table
        (fun table e => { e with table := table }) with
    | some _ => do
      modify fun e => { e with capacityToUpdate := none }
      return SetCap.encode newCap
    | none => return []

def reachMaxBlocked (e : QpackEncoder) : Bool := e.blockedStreamNums ≥ e.maxBlockedStreams

/-- The stream has a section that is not known to be decodable: `max_unacked_index` is above
the known received count. -/
def streamBlocked (e : QpackEncoder) (streamId : Nat) : Bool :=
  ((e.trackedStream.lookup streamId).bind fun unacked => unacked.flatten.max?).any (· > e.table.knownReceivedCount)

/-- Lines are written over the table of the encoder, which takes its parts out. -/
def encodeFields (r : ReprEncoder) : Option PartsIter → Encodes Nat
  | none => pure 0
  | some iter => r.encodeIter (iter.map.length + 6) iter 0

/-- `iterate_encode_fields` for a stream. -/
def iterateEncodeFields (r : ReprEncoder) (streamId : Nat) (inst : List UInt8) :
    Method QpackEncoder Empty EncodeMessage := fun e =>
  match encodeFields r e.fieldIter ⟨e.table, [], [], inst⟩ with
  | .ok maxDynamic lines =>
    match r.getPrefix lines.table maxDynamic lines with
    | .ok start lines =>
      .ok ⟨start ++ lines.fields, lines.inst⟩
        { e with
          fieldIter := none
          table := lines.table
          blockedStreamNums :=
            if maxDynamic > lines.table.knownReceivedCount then e.blockedStreamNums + 1
            else e.blockedStreamNums
          trackedStream :=
            if lines.refFields = [] then e.trackedStream
            else
              e.trackedStream.insert streamId
                ((e.trackedStream.lookup streamId).getD [] ++ [lines.refFields]) }
    | .panic => .panic
  | .panic => .panic

def encode (streamId : Nat) : Method QpackEncoder Empty EncodeMessage := do
  let inst ← updateMaxDynamicTableCap
  let e ← get
  iterateEncodeFields ⟨e.table.insertCount, e.isHuffman, e.streamBlocked streamId || !e.reachMaxBlocked⟩
    streamId inst

end QpackEncoder

end YlongHttp.H3.Qpack
