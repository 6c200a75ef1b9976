/-
The HPACK decoder (`h2/hpack/decoder.rs`).

A representation that has been read is applied at once: it names a field, the
field is charged to the size of the header list, it may enter the dynamic table,
and it is added to the parts. The addition to the parts panics if the header map
refuses the field, and the charge panics if it overflows.
-/

import YlongHttp.H2.Parts
import YlongHttp.H2.Hpack.ReprDecoder

namespace YlongHttp.H2.Hpack

open Rust

structure HeaderLines where
  parts : Parts
  headerSize : Nat

structure HpackDecoder where
  headerListSize : Nat
  table : DynamicTable
  lines : HeaderLines
  holder : Option ReprDecodeState

/-! ### Applying a representation -/

namespace Updater

/-- `update_size`: the sum is a `usize`. -/
def updateSize (addition : Nat) : Method HpackDecoder H2Error Unit := fun d =>
  if d.lines.headerSize + addition < usizeSize then
    .ok () { d with lines := { d.lines with headerSize := d.lines.headerSize + addition } }
  else .panic

def checkHeaderListSize (f : Field) : Method HpackDecoder H2Error Unit := do
  updateSize f.size
  if (← get).lines.headerSize > (← get).headerListSize then throw (.connectionError .connectError)

/-- `lines.parts.update(h, v)`. -/
def updateParts (f : Field) : Method HpackDecoder H2Error Unit := fun d =>
  match d.lines.parts.update f.1 f.2 with
  | some parts => .ok () { d with lines := { d.lines with parts := parts } }
  | none => .panic

def updateTable (f : Field) : Method HpackDecoder H2Error Unit :=
  modify fun d => { d with table := d.table.update f.1 f.2 }

def getHeaderByNameAndValue (name : Name) (value : List UInt8) : Method HpackDecoder H2Error Field := do
  match name with
  | .index index =>
    match TableSearcher.searchHeaderName (← get).table index with
    | some h => return (h, value)
    | none => throw (.connectionError .compressionError)
  | .literal octets => return (.other octets, value)

def updateIndexed (index : Nat) : Method HpackDecoder H2Error Unit := do
  match TableSearcher.searchHeader (← get).table index with
  | some f =>
    checkHeaderListSize f
    updateParts f
  | none => throw (.connectionError .compressionError)

def updateLiteralWithIndexing (name : Name) (value : List UInt8) : Method HpackDecoder H2Error Unit := do
  let f ← getHeaderByNameAndValue name value
  checkHeaderListSize f
  updateTable f
  updateParts f

def updateLiteralWithoutIndexing (name : Name) (value : List UInt8) : Method HpackDecoder H2Error Unit := do
  let f ← getHeaderByNameAndValue name value
  checkHeaderListSize f
  updateParts f

def updateLiteralNeverIndexing (name : Name) (value : List UInt8) : Method HpackDecoder H2Error Unit :=
  updateLiteralWithoutIndexing name value

def update (repr : Representation) : Method HpackDecoder H2Error Unit :=
  match repr with
  | .indexed index => updateIndexed index
  | .literalWithIndexing name value => updateLiteralWithIndexing name value
  | .literalWithoutIndexing name value => updateLiteralWithoutIndexing name value
  | .literalNeverIndexed name value => updateLiteralNeverIndexing name value
  | .sizeUpdate maxSize => modify fun d => { d with table := d.table.updateSize maxSize }

end Updater

/-! ### Decoding -/

namespace HpackDecoder

def withMaxSize (headerTableSize maxHeaderListSize : Nat) : HpackDecoder :=
  ⟨maxHeaderListSize, .withMaxSize headerTableSize, ⟨.new, 0⟩, none⟩

/-- The loop of `decode`. Every representation takes at least one byte, except that
the saved state may complete one without any. -/
def decodeLoop : Nat → ReprDecoder → Method HpackDecoder H2Error Unit
  | 0, _ => Method.panicked
  | fuel + 1, r => fun d =>
    match r.decode with
    | .ok (some repr) r => (Updater.update repr >>= fun _ => decodeLoop fuel r : Method _ _ _) d
    | .ok none r => .ok () { d with holder := r.state }
    | .err e _ => .err e d
    | .panic => .panic

/-- `decode`. The saved state is taken out of the holder first. -/
def decode (buf : List UInt8) : Method HpackDecoder H2Error Unit := fun d =>
  decodeLoop (buf.length + 2) ⟨buf, d.holder⟩ { d with holder := none }

def finish : Method HpackDecoder H2Error Parts := fun d =>
  match d.holder with
  | some _ => .err (.connectionError .compressionError) d
  | none => .ok d.lines.parts { d with lines := ⟨.new, 0⟩ }

end HpackDecoder

end YlongHttp.H2.Hpack
