/-
The static and dynamic tables of QPACK (`h3/qpack/table.rs`, `h3/qpack/error.rs`).

The dynamic table is one structure for both sides. It carries the facts that its counters
rest on: the used capacity is the size of the entries, and the entries are numbered by the
order of their insertion, from `removeCount` up to `insertCount`. Nothing ties the used
capacity to the capacity: `update` adds an entry whatever its size.

The decoder evicts by `updateSize` only. The encoder evicts by `canEvict`, which counts the
entries to go but looks at the oldest one each time, followed by `evictDrained`.
-/

import YlongHttp.H2.Hpack.Table
import YlongHttp.Rust.Outcome

namespace YlongHttp.H3.Qpack

open Rust List
open H2.Hpack (ascii)

inductive ErrorCode where
  | decompressionFailed
  | encoderStreamError
  | decoderStreamError
  | h3SettingsError
deriving DecidableEq, Repr

inductive NotClassified where
  | dynamicTableInsufficient
  | streamBlocked
deriving DecidableEq, Repr

inductive QpackError where
  | connectionError (code : ErrorCode)
  | internalError (e : NotClassified)
deriving DecidableEq, Repr

/-- The names of fields, with the lengths and texts that HPACK gives them. -/
abbrev NameField := H2.Hpack.Header

abbrev Field := H2.Hpack.Field

inductive TableIndex where
  | field (index : Nat)
  | fieldName (index : Nat)
  | none
deriving DecidableEq, Repr

/-! ### The static table -/

namespace StaticTable

def other (name : String) : NameField := .other (ascii name)

def entry (name : NameField) (value : String) : NameField × Option (List UInt8) :=
  (name, some (ascii value))

/-- The entries in order. `field` has no value for some of them. -/
def entries : List (NameField × Option (List UInt8)) :=
  [ (.authority, none), entry .path "/", entry (other "age") "0",
    (other "content-disposition", none), entry (other "content-length") "0", (other "cookie", none),
    (other "date", none), (other "etag", none), (other "if-modified-since", none),
    (other "if-none-match", none), (other "last-modified", none), (other "link", none),
    (other "location", none), (other "referer", none), (other "set-cookie", none),
    entry .method "CONNECT", entry .method "DELETE", entry .method "GET", entry .method "HEAD",
    entry .method "OPTIONS", entry .method "POST", entry .method "PUT", entry .scheme "http",
    entry .scheme "https", entry .status "103", entry .status "200", entry .status "304",
    entry .status "404", entry .status "503", entry (other "accept") "*/*",
    entry (other "accept") "application/dns-message",
    entry (other "accept-encoding") "gzip, deflate, br", entry (other "accept-ranges") "bytes",
    entry (other "access-control-allow-headers") "cache-control",
    entry (other "access-control-allow-headers") "content-type",
    entry (other "access-control-allow-origin") "*", entry (other "cache-control") "max-age=0",
    entry (other "cache-control") "max-age=2592000", entry (other "cache-control") "max-age=604800",
    entry (other "cache-control") "no-cache", entry (other "cache-control") "no-store",
    entry (other "cache-control") "public, max-age=31536000", entry (other "content-encoding") "br",
    entry (other "content-encoding") "gzip", entry (other "content-type") "application/dns-message",
    entry (other "content-type") "application/javascript",
    entry (other "content-type") "application/json",
    entry (other "content-type") "application/x-www-form-urlencoded",
    entry (other "content-type") "image/gif", entry (other "content-type") "image/jpeg",
    entry (other "content-type") "image/png", entry (other "content-type") "text/css",
    entry (other "content-type") "text/html; charset=utf-8",
    entry (other "content-type") "text/plain",
    entry (other "content-type") "text/plain;charset=utf-8", entry (other "range") "bytes=0-",
    entry (other "strict-transport-security") "max-age=31536000",
    entry (other "strict-transport-security") "max-age=31536000; includesubdomains",
    entry (other "strict-transport-security") "max-age=31536000; includesubdomains; preload",
    entry (other "vary") "accept-encoding", entry (other "vary") "origin",
    entry (other "x-content-type-options") "nosniff",
    entry (other "x-xss-protection") "1; mode=block", entry .status "100", entry .status "204",
    entry .status "206", entry .status "302", entry .status "400", entry .status "403",
    entry .status "421", entry .status "425", entry .status "500", (other "accept-language", none),
    entry (other "access-control-allow-credentials") "FALSE",
    entry (other "access-control-allow-credentials") "TRUE",
    entry (other "access-control-allow-headers") "*",
    entry (other "access-control-allow-methods") "get",
    entry (other "access-control-allow-methods") "get, post, options",
    entry (other "access-control-allow-methods") "options",
    entry (other "access-control-expose-headers") "content-length",
    entry (other "access-control-request-headers") "content-type",
    entry (other "access-control-request-method") "get",
    entry (other "access-control-request-method") "post", entry (other "alt-svc") "clear",
    (other "authorization", none),
    entry (other "content-security-policy") "script-src 'none'; object-src 'none'; base-uri 'none'",
    entry (other "early-data") "1", (other "expect-ct", none), (other "forwarded", none),
    (other "if-range", none), (other "origin", none), entry (other "purpose") "prefetch",
    (other "server", none), entry (other "timing-allow-origin") "*",
    entry (other "upgrade-insecure-requests") "1", (other "user-agent", none),
    (other "x-forwarded-for", none), entry (other "x-frame-options") "deny",
    entry (other "x-frame-options") "sameorigin" ]

def fieldName (index : Nat) : Option NameField := entries[index]?.map Prod.fst

def field (index : Nat) : Option Field := entries[index]?.bind fun e => e.2.map fun value => (e.1, value)

/-- An entry with the value, or else one with the name: the first of the name, but for
`access-control-allow-headers` the last. -/
def index (name : NameField) (value : List UInt8) : TableIndex :=
  match entries.findIdx? (· = (name, some value)) with
  | some i => .field i
  | none =>
    match entries.findIdx? (·.1 = name) with
    | some i => .fieldName (if name = other "access-control-allow-headers" then 75 else i)
    | none => .none

end StaticTable

/-! ### The dynamic table -/

/-- An entry, with the number of unacknowledged references to it. -/
structure DynamicField where
  index : Nat
  name : NameField
  value : List UInt8
  tracked : Nat
deriving DecidableEq, Repr

namespace DynamicField

def field (f : DynamicField) : Field := (f.name, f.value)

def size (f : DynamicField) : Nat := f.name.len + f.value.length + 32

def isTracked (f : DynamicField) : Bool := f.tracked > 0

def retrack (count : Nat → Nat) (f : DynamicField) : DynamicField := { f with tracked := count f.tracked }

end DynamicField

def usedSize (queue : List DynamicField) : Nat := (queue.map DynamicField.size).sum

/-- The entries carry consecutive indices from `first` on. -/
def Numbered : Nat → List DynamicField → Prop
  | _, [] => True
  | first, f :: queue => f.index = first ∧ Numbered (first + 1) queue

theorem numbered_append {f : DynamicField} : ∀ {queue : List DynamicField} {first : Nat}, Numbered first queue →
      f.index = first + queue.length → Numbered first (queue ++ [f])
  | [], _, _, h => ⟨h, trivial⟩
  | _ :: _, _, ⟨hhead, htail⟩, h =>
    ⟨hhead, numbered_append htail (by rw [h, length_cons]; omega)⟩

/-- The front of the queue is the oldest entry. -/
structure DynamicTable where
  queue : List DynamicField
  usedCap : Nat
  capacity : Nat
  insertCount : Nat
  removeCount : Nat
  knownReceivedCount : Nat
  usedCap_eq : usedCap = usedSize queue
  insertCount_eq : insertCount = removeCount + queue.length
  numbered : Numbered removeCount queue

namespace DynamicTable

theorem usedSize_nil : 0 = usedSize [] := rfl

theorem insertCount_nil : 0 = 0 + ([] : List DynamicField).length := rfl

def withEmpty : DynamicTable := ⟨[], 0, 0, 0, 0, 0, usedSize_nil, insertCount_nil, trivial⟩

def maxEntries (t : DynamicTable) : Nat := t.capacity / 32

/-! #### Insertion -/

theorem usedSize_push (t : DynamicTable) (f : DynamicField) : t.usedCap + f.size = usedSize (t.queue ++ [f]) := by
  simp [usedSize, t.usedCap_eq]

theorem insertCount_push (t : DynamicTable) (f : DynamicField) :
    t.insertCount + 1 = t.removeCount + (t.queue ++ [f]).length := by
  rw [t.insertCount_eq, length_append, length_singleton, Nat.add_assoc]

theorem numbered_push (t : DynamicTable) (name : NameField) (value : List UInt8) :
    Numbered t.removeCount (t.queue ++ [⟨t.insertCount, name, value, 0⟩]) :=
  numbered_append t.numbered t.insertCount_eq

/-- The new entry has the index `t.insertCount`, which `update` returns. -/
def update (t : DynamicTable) (name : NameField) (value : List UInt8) : DynamicTable :=
  { t with
    queue := t.queue ++ [⟨t.insertCount, name, value, 0⟩]
    usedCap := t.usedCap + (DynamicField.mk t.insertCount name value 0).size
    insertCount := t.insertCount + 1
    usedCap_eq := usedSize_push t _
    insertCount_eq := insertCount_push t _
    numbered := numbered_push t name value }

/-! #### Eviction -/

section Pop

variable {t : DynamicTable} {f : DynamicField} {queue : List DynamicField}

theorem usedSize_pop (h : t.queue = f :: queue) : t.usedCap - f.size = usedSize queue := by
  rw [t.usedCap_eq, h, usedSize, map_cons, sum_cons, Nat.add_sub_cancel_left]
  rfl

theorem insertCount_pop (h : t.queue = f :: queue) : t.insertCount = t.removeCount + 1 + queue.length := by
  rw [t.insertCount_eq, h, length_cons]
  omega

theorem numbered_pop (h : t.queue = f :: queue) : Numbered (t.removeCount + 1) queue :=
  (h ▸ t.numbered : Numbered t.removeCount (f :: queue)).2

end Pop

/-- Take the oldest entry off: `pop_front`, with the counters that follow it. -/
def popFront (t : DynamicTable) : Option DynamicTable :=
  match h : t.queue with
  | [] => none
  | f :: queue =>
    some
      { t with
        queue := queue
        usedCap := t.usedCap - f.size
        removeCount := t.removeCount + 1
        usedCap_eq := usedSize_pop h
        insertCount_eq := insertCount_pop h
        numbered := numbered_pop h }

def fitLoop : Nat → DynamicTable → DynamicTable
  | 0, t => t
  | fuel + 1, t =>
    if t.usedCap > t.capacity then
      match t.popFront with
      | some t => fitLoop fuel t
      | none => t
    else t

/-- Evict the oldest entries while the entries exceed the capacity. -/
def fitSize (t : DynamicTable) : DynamicTable := fitLoop t.queue.length t

def updateSize (t : DynamicTable) (maxSize : Nat) : DynamicTable :=
  fitSize { t with capacity := maxSize }

/-- The loop of `can_evict`. It asks for `self.queue.front()` each time, which stays the
oldest entry of the table: nothing is taken off before `evict_drained`. -/
def canEvictLoop {σ ε : Type} (t : DynamicTable) (bound : Nat) : Nat → Nat → Nat → Method σ ε (Option Nat)
  | 0, _, _ => Method.panicked
  | fuel + 1, usedCap, canEvict =>
    if usedCap > bound then
      match t.queue.head? with
      | some toEvict =>
        if toEvict.isTracked ∨ toEvict.index > t.knownReceivedCount then pure none
        else do
          let usedCap ← checkedSub usedCap toEvict.size
          canEvictLoop t bound fuel usedCap (canEvict + 1)
      | none => pure (some canEvict)
    else pure (some canEvict)

def canEvict {σ ε : Type} (t : DynamicTable) (required : Nat) : Method σ ε (Option Nat) :=
  if required > t.capacity then pure none
  else canEvictLoop t (t.capacity - required) (t.usedCap + 1) t.usedCap 0

def evictDrained {ε : Type} : Nat → Method DynamicTable ε Unit
  | 0 => pure ()
  | size + 1 => fun t =>
    match t.popFront with
    | some t => evictDrained size t
    | none => .panic

/-- The capacity of the encoder's table. A table that cannot shrink keeps its capacity. -/
def updateCapacity {ε : Type} (newCap : Nat) : Method DynamicTable ε (Option Nat) := do
  let t ← get
  if newCap < t.capacity then
    match ← t.canEvict (t.capacity - newCap) with
    | some size => do
      evictDrained size
      modify fun t => { t with capacity := newCap }
      return some newCap
    | none => return none
  else do
    set { t with capacity := newCap }
    return some newCap

/-! #### References -/

section Modify

variable (count : Nat → Nat)

theorem usedSize_modify : ∀ (queue : List DynamicField) (i : Nat),
    usedSize queue = usedSize (queue.modify i (DynamicField.retrack count))
  | [], i => by rw [modify_nil]
  | f :: queue, 0 => rfl
  | f :: queue, i + 1 => by
    have ih := usedSize_modify queue i
    simp only [usedSize, modify_succ_cons, map_cons, sum_cons] at ih ⊢
    rw [ih]

theorem numbered_modify : ∀ {queue : List DynamicField} {first : Nat} (i : Nat), Numbered first queue →
    Numbered first (queue.modify i (DynamicField.retrack count))
  | [], _, i, _ => by
    rw [modify_nil]
    trivial
  | f :: queue, _, 0, ⟨hhead, htail⟩ => ⟨hhead, htail⟩
  | f :: queue, _, i + 1, ⟨hhead, htail⟩ => ⟨hhead, numbered_modify i htail⟩

theorem insertCount_modify (t : DynamicTable) (i : Nat) :
    t.insertCount = t.removeCount + (t.queue.modify i (DynamicField.retrack count)).length := by
  rw [length_modify]
  exact t.insertCount_eq

end Modify

/-- Change the reference count of the entry at a position. -/
def retrack (t : DynamicTable) (i : Nat) (count : Nat → Nat) : DynamicTable :=
  { t with
    queue := t.queue.modify i (DynamicField.retrack count)
    usedCap_eq := t.usedCap_eq.trans (usedSize_modify count t.queue i)
    insertCount_eq := insertCount_modify count t i
    numbered := numbered_modify count i t.numbered }

def trackField {ε : Type} (index : Nat) : Method DynamicTable ε Unit := do
  let t ← get
  let i ← checkedSub index t.removeCount
  match t.queue[i]? with
  | some _ => set (t.retrack i (· + 1))
  | none => Method.panicked

def untrackedField {ε : Type} (index : Nat) : Method DynamicTable ε Unit := do
  let t ← get
  let i ← checkedSub index t.removeCount
  match t.queue[i]? with
  | some f => if f.tracked > 0 then set (t.retrack i (· - 1)) else Method.panicked
  | none => Method.panicked

/-- The count goes up by one less than the increment. -/
def increaseKnownReceiveCount {ε : Type} (increment : Nat) : Method DynamicTable ε Unit := do
  let t ← get
  let more ← checkedSub increment 1
  if t.knownReceivedCount + more < t.insertCount then
    set { t with knownReceivedCount := t.knownReceivedCount + more }
  else Method.panicked

/-! #### Lookup -/

/-- The newest entry of the name. Without `allowBlock` the search ends at the first entry
above the known received count. -/
def indexLoop (name : NameField) (value : List UInt8) (allowBlock : Bool) (known : Nat) :
    TableIndex → List DynamicField → TableIndex
  | index, [] => index
  | index, f :: queue =>
    if f.index > known ∧ allowBlock = false then index
    else if name = f.name then
      indexLoop name value allowBlock known
        (if value = f.value then .field f.index else .fieldName f.index) queue
    else indexLoop name value allowBlock known index queue

def index (t : DynamicTable) (name : NameField) (value : List UInt8) (allowBlock : Bool) : TableIndex :=
  indexLoop name value allowBlock t.knownReceivedCount .none t.queue

def field {σ ε : Type} (t : DynamicTable) (index : Nat) : Method σ ε (Option Field) := do
  let i ← checkedSub index t.removeCount
  return t.queue[i]?.map DynamicField.field

def fieldName {σ ε : Type} (t : DynamicTable) (index : Nat) : Method σ ε (Option NameField) := do
  let i ← checkedSub index t.removeCount
  return t.queue[i]?.map DynamicField.name

end DynamicTable

end YlongHttp.H3.Qpack
