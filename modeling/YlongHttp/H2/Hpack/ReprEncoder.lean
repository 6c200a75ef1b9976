/-
Writing representations (`h2/hpack/representation/encoder.rs`).

Every piece of a representation writes as much of itself as fits and keeps the
rest; `octets` are the bytes it still has to write, and the `writes_*` lemmas say
that it writes them. `represent` chooses the representation of a field, and
`block` are the bytes and the dynamic table that a list of fields ends in.
-/

import YlongHttp.H2.Hpack.Integer
import YlongHttp.H2.Parts
import YlongHttp.Huffman.Basic

namespace YlongHttp.H2.Hpack

open Rust Codec Huffman List

/-! ### Integers and strings -/

namespace Integer

def index (index : Nat) (mask pre : UInt8) : IntegerEncoder := .new index mask pre

def preMask (isHuffman : Bool) : UInt8 := if isHuffman then 0x80 else 0

def length (length : Nat) (isHuffman : Bool) : IntegerEncoder := .new length 0x7f (preMask isHuffman)

/-- The loop of `Integer::encode`; every turn takes one byte of room. -/
def encodeLoop : Nat → IntegerEncoder → Method (Dst UInt8) IntegerEncoder Unit
  | 0, _ => Method.panicked
  | fuel + 1, int => fun dst =>
    if int.isFinish then .ok () dst
    else if dst.room = 0 then .err int dst
    else
      match int.nextByte with
      | (some b, int) => (put b >>= fun _ => encodeLoop fuel int : Method _ _ _) dst
      | (none, _) => .panic

def encode (int : IntegerEncoder) : Method (Dst UInt8) IntegerEncoder Unit := fun dst =>
  encodeLoop (dst.room + 1) int dst

/-- One turn of the loop writes one byte. -/
theorem encodeLoop_step {fuel : Nat} {int : IntegerEncoder} {dst : Dst UInt8} {b : UInt8}
    (hfin : int.isFinish = false) (hroom : dst.room ≠ 0) (hb : int.nextByte.1 = some b) :
    encodeLoop (fuel + 1) int dst = encodeLoop fuel int.nextByte.2 (dst.push [b]) := by
  have hstep : int.nextByte = (some b, int.nextByte.2) := Prod.ext hb rfl
  have hput : (put b : Method (Dst UInt8) IntegerEncoder Unit) dst = .ok () (dst.push [b]) :=
    if_pos (Nat.pos_of_ne_zero hroom)
  simp only [encodeLoop, hfin, Bool.false_eq_true, ↓reduceIte, hroom]
  rw [hstep]
  simp only [Method.bind_apply, hput, Outcome.bind_ok]

theorem encodeLoop_all (fuel : Nat) :
    ∀ {int : IntegerEncoder} {dst : Dst UInt8}, dst.room < fuel → int.octets.length ≤ dst.room →
      encodeLoop fuel int dst = .ok () (dst.push int.octets) := by
  induction fuel with
  | zero =>
    intro int dst hfuel
    exact absurd hfuel (Nat.not_lt_zero _)
  | succ fuel ih =>
    intro int dst hfuel hroom
    cases hfin : int.isFinish with
    | true => simp [encodeLoop, hfin, IntegerEncoder.octets_finish hfin]
    | false =>
      obtain ⟨b, hb, hoctets⟩ := IntegerEncoder.octets_nextByte hfin
      rw [hoctets, length_cons] at hroom
      have hless : (dst.push [b]).room = dst.room - 1 := rfl
      rw [encodeLoop_step hfin (by omega) hb, ih (by omega) (by omega), Dst.push_push, hoctets, singleton_append]

theorem encodeLoop_part (fuel : Nat) :
    ∀ (int : IntegerEncoder) (dst : Dst UInt8), dst.room < fuel → dst.room < int.octets.length →
      ∃ e, encodeLoop fuel int dst = .err e (dst.push (int.octets.take dst.room)) ∧
        e.octets = int.octets.drop dst.room := by
  induction fuel with
  | zero =>
    intro int dst hfuel
    exact absurd hfuel (Nat.not_lt_zero _)
  | succ fuel ih =>
    intro int dst hfuel hroom
    cases hfin : int.isFinish with
    | true => simp [IntegerEncoder.octets_finish hfin] at hroom
    | false =>
      by_cases hzero : dst.room = 0
      · exact ⟨int, by simp [encodeLoop, hfin, hzero], by simp [hzero]⟩
      · obtain ⟨b, hb, hoctets⟩ := IntegerEncoder.octets_nextByte hfin
        rw [hoctets, length_cons] at hroom
        have hless : (dst.push [b]).room = dst.room - 1 := rfl
        obtain ⟨e, he, hrest⟩ := ih int.nextByte.2 (dst.push [b]) (by omega)
          (by omega)
        obtain ⟨room, hr⟩ : ∃ room, dst.room = room + 1 := ⟨dst.room - 1, by omega⟩
        rw [hless, hr, Nat.add_sub_cancel] at he hrest
        refine ⟨e, ?_, ?_⟩
        · rw [encodeLoop_step hfin hzero hb, he, Dst.push_push, hoctets, hr, take_succ_cons, singleton_append]
        · rw [hrest, hoctets, hr, drop_succ_cons]

theorem writes_encode (int : IntegerEncoder) : Writes (encode int) int.octets IntegerEncoder.octets where
  all _ h := encodeLoop_all _ (Nat.lt_succ_self _) h
  part _ h := encodeLoop_part _ _ _ (Nat.lt_succ_self _) h

end Integer

/-- A string with the position up to which it is written. -/
structure Octets where
  src : List UInt8
  idx : Nat
  idx_le : idx ≤ src.length

namespace Octets

def new (src : List UInt8) (isHuffman : Bool) : Octets :=
  if isHuffman then ⟨huffmanEncode src [], 0, Nat.zero_le _⟩ else ⟨src, 0, Nat.zero_le _⟩

def len (o : Octets) : Nat := o.src.length

def encode (o : Octets) : Method (Dst UInt8) Octets Unit := fun dst =>
  if o.src.length - o.idx = 0 then .ok () dst
  else if h : o.src.length - o.idx ≤ dst.room then .ok () (dst.push (o.src.drop o.idx))
  else
    .err ⟨o.src, o.idx + dst.room, by omega⟩ (dst.push ((o.src.drop o.idx).take dst.room))

def octets (o : Octets) : List UInt8 := o.src.drop o.idx

theorem writes_encode (o : Octets) : Writes o.encode o.octets octets where
  all dst h := by
    rw [octets, length_drop] at h
    by_cases hzero : o.src.length - o.idx = 0
    · have hnil : o.octets = [] := by
        rw [octets, drop_eq_nil_iff]
        omega
      simp [encode, hzero, hnil]
    · simp [encode, hzero, h, octets]
  part dst h := by
    rw [octets, length_drop] at h
    have hzero : o.src.length - o.idx ≠ 0 := by omega
    refine ⟨⟨o.src, o.idx + dst.room, by omega⟩, ?_, ?_⟩
    · simp only [encode, hzero, ↓reduceIte, show ¬ o.src.length - o.idx ≤ dst.room by omega, ↓reduceDIte, octets]
    · simp [octets]

end Octets

/-! ### Representations -/

structure IndexAndValue where
  index : Option IntegerEncoder
  valueLength : Option IntegerEncoder
  valueOctets : Option Octets

namespace IndexAndValue

/-- `new().set_index(..).set_value(..)`. -/
def new (index : Nat) (mask pre : UInt8) (value : List UInt8) (isHuffman : Bool) : IndexAndValue :=
  let octets := Octets.new value isHuffman
  { index := some (Integer.index index mask pre)
    valueLength := some (Integer.length octets.len isHuffman)
    valueOctets := some octets }

def encode (s : IndexAndValue) : Method (Dst UInt8) IndexAndValue Unit := do
  putField s.index Integer.encode fun i => { s with index := some i }
  putField s.valueLength Integer.encode fun i => { s with index := none, valueLength := some i }
  putField s.valueOctets Octets.encode fun o => ⟨none, none, some o⟩

def octets (s : IndexAndValue) : List UInt8 :=
  s.index.elim [] IntegerEncoder.octets ++ (s.valueLength.elim [] IntegerEncoder.octets ++
    s.valueOctets.elim [] Octets.octets)

theorem writes_encode (s : IndexAndValue) : Writes s.encode s.octets octets := by
  refine Writes.putField Integer.writes_encode ?_ (fun _ => rfl) s.index
  refine Writes.putField Integer.writes_encode ?_ (fun _ => rfl) s.valueLength
  refine Writes.lastField Octets.writes_encode ?_ s.valueOctets
  exact fun _ => rfl

end IndexAndValue

structure NameAndValue where
  index : Option IntegerEncoder
  nameLength : Option IntegerEncoder
  nameOctets : Option Octets
  valueLength : Option IntegerEncoder
  valueOctets : Option Octets

namespace NameAndValue

/-- `new().set_index(..).set_name_and_value(..)`. -/
def new (mask pre : UInt8) (name value : List UInt8) (isHuffman : Bool) : NameAndValue :=
  let nameOctets := Octets.new name isHuffman
  let valueOctets := Octets.new value isHuffman
  { index := some (Integer.index 0 mask pre)
    nameLength := some (Integer.length nameOctets.len isHuffman)
    nameOctets := some nameOctets
    valueLength := some (Integer.length valueOctets.len isHuffman)
    valueOctets := some valueOctets }

def encode (s : NameAndValue) : Method (Dst UInt8) NameAndValue Unit := do
  putField s.index Integer.encode fun i => { s with index := some i }
  putField s.nameLength Integer.encode fun i => { s with index := none, nameLength := some i }
  putField s.nameOctets Octets.encode fun o =>
    { s with index := none, nameLength := none, nameOctets := some o }
  putField s.valueLength Integer.encode fun i => ⟨none, none, none, some i, s.valueOctets⟩
  putField s.valueOctets Octets.encode fun o => ⟨none, none, none, none, some o⟩

def octets (s : NameAndValue) : List UInt8 :=
  s.index.elim [] IntegerEncoder.octets ++ (s.nameLength.elim [] IntegerEncoder.octets ++
    (s.nameOctets.elim [] Octets.octets ++ (s.valueLength.elim [] IntegerEncoder.octets ++
      s.valueOctets.elim [] Octets.octets)))

theorem writes_encode (s : NameAndValue) : Writes s.encode s.octets octets := by
  refine Writes.putField Integer.writes_encode ?_ (fun _ => rfl) s.index
  refine Writes.putField Integer.writes_encode ?_ (fun _ => rfl) s.nameLength
  refine Writes.putField Octets.writes_encode ?_ (fun _ => rfl) s.nameOctets
  refine Writes.putField Integer.writes_encode ?_ (fun _ => rfl) s.valueLength
  refine Writes.lastField Octets.writes_encode ?_ s.valueOctets
  exact fun _ => rfl

end NameAndValue

inductive ReprEncodeState where
  | indexed (index : IntegerEncoder)
  | indexing (inner : IndexAndValue)
  | indexingWithName (inner : NameAndValue)
  | withoutIndexing (inner : IndexAndValue)
  | withoutIndexingWithName (inner : NameAndValue)
  | neverIndexed (inner : IndexAndValue)
  | neverIndexedWithName (inner : NameAndValue)

namespace ReprEncodeState

def encode : ReprEncodeState → Method (Dst UInt8) ReprEncodeState Unit
  | .indexed s => (Integer.encode s).mapErr .indexed
  | .indexing s => s.encode.mapErr .indexing
  | .indexingWithName s => s.encode.mapErr .indexingWithName
  | .withoutIndexing s => s.encode.mapErr .withoutIndexing
  | .withoutIndexingWithName s => s.encode.mapErr .withoutIndexingWithName
  | .neverIndexed s => s.encode.mapErr .neverIndexed
  | .neverIndexedWithName s => s.encode.mapErr .neverIndexedWithName

def octets : ReprEncodeState → List UInt8
  | .indexed s => s.octets
  | .indexing s | .withoutIndexing s | .neverIndexed s => s.octets
  | .indexingWithName s | .withoutIndexingWithName s | .neverIndexedWithName s => s.octets

theorem writes_encode (s : ReprEncodeState) : Writes s.encode s.octets octets := by
  cases s with
  | indexed s => exact (Integer.writes_encode s).mapErr fun _ => rfl
  | indexing s | withoutIndexing s | neverIndexed s => exact s.writes_encode.mapErr fun _ => rfl
  | indexingWithName s | withoutIndexingWithName s | neverIndexedWithName s =>
    exact s.writes_encode.mapErr fun _ => rfl

end ReprEncodeState

/-! ### Iterating over the parts -/

inductive PartsIterDirection where
  | authority
  | method
  | path
  | scheme
  | status
  | other
deriving DecidableEq, Repr

structure PartsIter where
  pseudo : PseudoHeaders
  map : List (Sigma fun _ : HeaderName => HeaderValue)
  nextType : PartsIterDirection

namespace PartsIter

def new (parts : Parts) : PartsIter := ⟨parts.pseudo, parts.map.entries, .method⟩

/-- The loop of `next`. A direction that has nothing to give passes on to the
following one, so that six turns suffice. -/
def nextLoop : Nat → PartsIter → Option Field × PartsIter
  | 0, it => (none, it)
  | fuel + 1, it =>
    match it.nextType with
    | .method =>
      match it.pseudo.method with
      | some value => (some (.method, value), { it with pseudo := { it.pseudo with method := none } })
      | none => nextLoop fuel { it with nextType := .status }
    | .status =>
      match it.pseudo.status with
      | some value => (some (.status, value), { it with pseudo := { it.pseudo with status := none } })
      | none => nextLoop fuel { it with nextType := .scheme }
    | .scheme =>
      match it.pseudo.scheme with
      | some value => (some (.scheme, value), { it with pseudo := { it.pseudo with scheme := none } })
      | none => nextLoop fuel { it with nextType := .path }
    | .path =>
      match it.pseudo.path with
      | some value => (some (.path, value), { it with pseudo := { it.pseudo with path := none } })
      | none => nextLoop fuel { it with nextType := .authority }
    | .authority =>
      match it.pseudo.authority with
      | some value =>
        (some (.authority, value), { it with pseudo := { it.pseudo with authority := none } })
      | none => nextLoop fuel { it with nextType := .other }
    | .other =>
      match it.map with
      | ⟨h, v⟩ :: map => (some (.other h.name, v.toText), { it with map := map })
      | [] => (none, it)

def next (it : PartsIter) : Option Field × PartsIter := nextLoop 6 it

/-- The field of a pseudo header, if it is there. -/
def pseudoField (header : Header) (value : Option (List UInt8)) : List Field :=
  value.elim [] fun v => [(header, v)]

/-- The fields that an iterator gives while it looks in one direction. -/
def fieldsAt (it : PartsIter) : PartsIterDirection → List Field
  | .method => pseudoField .method it.pseudo.method
  | .status => pseudoField .status it.pseudo.status
  | .scheme => pseudoField .scheme it.pseudo.scheme
  | .path => pseudoField .path it.pseudo.path
  | .authority => pseudoField .authority it.pseudo.authority
  | .other => it.map.map fun e => (.other e.1.name, e.2.toText)

/-- The directions that follow. -/
def following : PartsIterDirection → List PartsIterDirection
  | .method => [.status, .scheme, .path, .authority, .other]
  | .status => [.scheme, .path, .authority, .other]
  | .scheme => [.path, .authority, .other]
  | .path => [.authority, .other]
  | .authority => [.other]
  | .other => []

/-- The fields an iterator still has to give. -/
def fields (it : PartsIter) : List Field :=
  it.fieldsAt it.nextType ++ (following it.nextType).flatMap it.fieldsAt

theorem nextLoop_spec (fuel : Nat) : ∀ it : PartsIter, (following it.nextType).length < fuel →
      (nextLoop fuel it).1 = it.fields.head? ∧ (nextLoop fuel it).2.fields = it.fields.tail := by
  induction fuel with
  | zero =>
    intro it h
    exact absurd h (Nat.not_lt_zero _)
  | succ fuel ih =>
    rintro ⟨⟨authority, method, path, scheme, status⟩, map, nextType⟩ hfuel
    cases nextType with
    | method =>
      cases method with
      | some value => exact ⟨rfl, rfl⟩
      | none => exact ih _ (Nat.lt_of_succ_lt_succ hfuel)
    | status =>
      cases status with
      | some value => exact ⟨rfl, rfl⟩
      | none => exact ih _ (Nat.lt_of_succ_lt_succ hfuel)
    | scheme =>
      cases scheme with
      | some value => exact ⟨rfl, rfl⟩
      | none => exact ih _ (Nat.lt_of_succ_lt_succ hfuel)
    | path =>
      cases path with
      | some value => exact ⟨rfl, rfl⟩
      | none => exact ih _ (Nat.lt_of_succ_lt_succ hfuel)
    | authority =>
      cases authority with
      | some value => exact ⟨rfl, rfl⟩
      | none => exact ih _ (Nat.lt_of_succ_lt_succ hfuel)
    | other =>
      cases map <;> exact ⟨rfl, rfl⟩

/-- `next` gives the first of the remaining fields. -/
theorem next_spec (it : PartsIter) : it.next.1 = it.fields.head? ∧ it.next.2.fields = it.fields.tail :=
  nextLoop_spec 6 it (by cases it.nextType <;> decide)

/-- There are at most five pseudo headers. -/
theorem length_fields_le (it : PartsIter) : it.fields.length ≤ it.map.length + 5 := by
  have hpseudo : ∀ (h : Header) (v : Option (List UInt8)), (pseudoField h v).length ≤ 1 := by
    intro h v
    cases v <;> simp [pseudoField]
  have h1 := hpseudo .method it.pseudo.method
  have h2 := hpseudo .status it.pseudo.status
  have h3 := hpseudo .scheme it.pseudo.scheme
  have h4 := hpseudo .path it.pseudo.path
  have h5 := hpseudo .authority it.pseudo.authority
  rw [fields]
  cases it.nextType <;> simp [following, fieldsAt] <;> omega

end PartsIter

end YlongHttp.H2.Hpack

namespace YlongHttp.H2

open H2.Hpack

/-- The fields of the parts in the order in which they are encoded. -/
def Parts.fields (parts : Parts) : List Field := (PartsIter.new parts).fields

end YlongHttp.H2

namespace YlongHttp.H2.Hpack

open Rust Codec

/-! ### The encoder -/

/-- The representation of a field and the dynamic table after it. -/
def represent (useHuffman : Bool) (table : DynamicTable) (f : Field) : ReprEncodeState × DynamicTable :=
  match TableSearcher.index table f.1 f.2 with
  | some (.header index) => (.indexed (Integer.index index 0x7f 0x80), table)
  | some (.headerName index) =>
    (.indexing (.new index 0x3f 0x40 f.2 useHuffman), table.update f.1 f.2)
  | none =>
    (.indexingWithName (.new 0x3f 0x40 f.1.intoString f.2 useHuffman), table.update f.1 f.2)

structure ReprEncoder where
  table : DynamicTable
  iter : Option PartsIter
  state : Option ReprEncodeState

namespace ReprEncoder

/-- The loop of `encode` over the fields; `len` is the length of the destination. -/
def encodeIter (useHuffman : Bool) (len : Nat) : Nat → PartsIter → DynamicTable →
    Dst UInt8 → Outcome (ReprEncoder × Dst UInt8) Empty Nat
  | 0, _, _, _ => .panic
  | fuel + 1, iter, table, dst =>
    match iter.next with
    | (none, _) => .ok dst.items.length (⟨table, none, none⟩, dst)
    | (some f, iter) =>
      let (state, table) := represent useHuffman table f
      match state.encode dst with
      | .ok () dst => encodeIter useHuffman len fuel iter table dst
      | .err state dst => .ok len (⟨table, some iter, some state⟩, dst)
      | .panic => .panic

/-- What `encode` does once the saved state is written. -/
def encodeRest (r : ReprEncoder) (useHuffman : Bool) (len : Nat) (dst : Dst UInt8) :
    Outcome (ReprEncoder × Dst UInt8) Empty Nat :=
  match r.iter with
  | some iter => encodeIter useHuffman len (iter.map.length + 6) iter r.table dst
  | none => .ok dst.items.length ({ r with state := none }, dst)

/-- `encode` into a destination of length `len`, with the number of bytes it returns. -/
def encode (r : ReprEncoder) (useHuffman : Bool) (len : Nat) : Outcome (ReprEncoder × Dst UInt8) Empty Nat :=
  if len = 0 then .ok 0 (r, Dst.new 0)
  else
    match r.state with
    | some state =>
      match state.encode (Dst.new len) with
      | .ok () dst => r.encodeRest useHuffman len dst
      | .err state dst => .ok len ({ r with state := some state }, dst)
      | .panic => .panic
    | none => r.encodeRest useHuffman len (Dst.new len)

end ReprEncoder

end YlongHttp.H2.Hpack
