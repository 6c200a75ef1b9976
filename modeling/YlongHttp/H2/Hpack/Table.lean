/-
The static and dynamic tables of HPACK (`h2/hpack/table.rs`).

A dynamic table carries the two facts its operations rely on: `currSize` is the
size of the entries, and it is at most the capacity. `fitLoop_spec` is what
eviction leaves behind. The search lemmas say which entry an index found by
`TableSearcher.index` points to; the index of a dynamic entry that has only the
name of the header is returned as the index of a whole header
(`IndexOf.nameOnly`).
-/

import Mathlib

namespace YlongHttp.H2.Hpack

open List

/-- The bytes of an ASCII literal. -/
def ascii (s : String) : List UInt8 := s.toList.map fun c => c.toNat.toUInt8

inductive Header where
  | authority
  | method
  | path
  | scheme
  | status
  | other (name : List UInt8)
deriving DecidableEq, Repr

namespace Header

def len : Header → Nat
  | .authority => 10
  | .method => 7
  | .path => 5
  | .scheme => 7
  | .status => 7
  | .other s => s.length

def intoString : Header → List UInt8
  | .authority => ascii ":authority"
  | .method => ascii ":method"
  | .path => ascii ":path"
  | .scheme => ascii ":scheme"
  | .status => ascii ":status"
  | .other s => s

end Header

/-- A header field: its name and its value. -/
abbrev Field := Header × List UInt8

/-- The size of a field in a table or a header list. -/
def Field.size (f : Field) : Nat := f.1.len + f.2.length + 32

inductive TableIndex where
  | header (index : Nat)
  | headerName (index : Nat)
deriving DecidableEq, Repr

/-! ### The static table -/

namespace StaticTable

/-- The names of entries 15 to 61. -/
def otherNames : List (List UInt8) :=
  [ "accept-charset", "accept-encoding", "accept-language", "accept-ranges", "accept",
    "access-control-allow-origin", "age", "allow", "authorization", "cache-control",
    "content-disposition", "content-encoding", "content-language", "content-length",
    "content-location", "content-range", "content-type", "cookie", "date", "etag", "expect",
    "expires", "from", "host", "if-match", "if-modified-since", "if-none-match", "if-range",
    "if-unmodified-since", "last-modified", "link", "location", "max-forwards",
    "proxy-authenticate", "proxy-authorization", "range", "referer", "refresh", "retry-after",
    "server", "set-cookie", "strict-transport-security", "transfer-encoding", "user-agent", "vary",
    "via", "www-authenticate" ].map ascii

def headerName (index : Nat) : Option Header :=
  if index = 0 then none
  else if index = 1 then some .authority
  else if index ≤ 3 then some .method
  else if index ≤ 5 then some .path
  else if index ≤ 7 then some .scheme
  else if index ≤ 14 then some .status
  else otherNames[index - 15]?.map .other

def header (index : Nat) : Option Field :=
  match index with
  | 0 => none
  | 1 => some (.authority, [])
  | 2 => some (.method, ascii "GET")
  | 3 => some (.method, ascii "POST")
  | 4 => some (.path, ascii "/")
  | 5 => some (.path, ascii "/index.html")
  | 6 => some (.scheme, ascii "http")
  | 7 => some (.scheme, ascii "https")
  | 8 => some (.status, ascii "200")
  | 9 => some (.status, ascii "204")
  | 10 => some (.status, ascii "206")
  | 11 => some (.status, ascii "304")
  | 12 => some (.status, ascii "400")
  | 13 => some (.status, ascii "404")
  | 14 => some (.status, ascii "500")
  | 16 => some (.other (ascii "accept-encoding"), ascii "gzip, deflate")
  | n => otherNames[n - 15]?.map fun name => (.other name, [])

/-- Only `accept-encoding` has an entry with a value of its own. -/
def indexHeaders (key value : List UInt8) : Option TableIndex :=
  match otherNames.findIdx? (· = key) with
  | some i =>
    if key = ascii "accept-encoding" ∧ value = ascii "gzip, deflate" then some (.header 16)
    else some (.headerName (i + 15))
  | none => none

def index (header : Header) (value : List UInt8) : Option TableIndex :=
  match header with
  | .authority => some (.headerName 1)
  | .method =>
    if value = ascii "GET" then some (.header 2)
    else if value = ascii "POST" then some (.header 3)
    else some (.headerName 2)
  | .path =>
    if value = ascii "/" then some (.header 4)
    else if value = ascii "/index.html" then some (.header 5)
    else some (.headerName 4)
  | .scheme =>
    if value = ascii "http" then some (.header 6)
    else if value = ascii "https" then some (.header 7)
    else some (.headerName 6)
  | .status =>
    if value = ascii "200" then some (.header 8)
    else if value = ascii "204" then some (.header 9)
    else if value = ascii "206" then some (.header 10)
    else if value = ascii "304" then some (.header 11)
    else if value = ascii "400" then some (.header 12)
    else if value = ascii "404" then some (.header 13)
    else if value = ascii "500" then some (.header 14)
    else some (.headerName 8)
  | .other s => indexHeaders s value

/-! What an index of the static table points to -/

/-- What the search found: an entry with the value, or one with the name. -/
def Points (f : Field) : TableIndex → Prop
  | .header i => 0 < i ∧ i ≤ 61 ∧ header i = some f
  | .headerName i => 0 < i ∧ i ≤ 61 ∧ headerName i = some f.1

theorem length_otherNames : otherNames.length = 47 := rfl

variable {value : List UInt8} {i : TableIndex} {h : Header}

theorem points_indexHeaders {key : List UInt8}
    (h : indexHeaders key value = some i) : Points (.other key, value) i := by
  unfold indexHeaders at h
  cases hfind : otherNames.findIdx? (· = key) with
  | none => simp [hfind] at h
  | some n =>
    obtain ⟨hlt, hkey, -⟩ := findIdx?_eq_some_iff_getElem.mp hfind
    rw [decide_eq_true_eq] at hkey
    rw [length_otherNames] at hlt
    simp only [hfind] at h
    split at h
    · rename_i hvalue
      obtain ⟨rfl, rfl⟩ := hvalue
      cases h
      exact ⟨by decide, by decide, rfl⟩
    · cases h
      refine ⟨by omega, by omega, ?_⟩
      have hget : otherNames[n]? = some key := by
        rw [getElem?_eq_getElem (by rw [length_otherNames]; exact hlt), hkey]
      simp only [headerName, show n + 15 ≠ 0 by omega, show n + 15 ≠ 1 by omega,
        show ¬ n + 15 ≤ 3 by omega, show ¬ n + 15 ≤ 5 by omega, show ¬ n + 15 ≤ 7 by omega,
        show ¬ n + 15 ≤ 14 by omega, ↓reduceIte, Nat.add_sub_cancel, hget, Option.map_some]

theorem points_index (hindex : index h value = some i) : Points (h, value) i := by
  cases h with
  | other key => exact points_indexHeaders hindex
  | _ =>
    simp only [index] at hindex
    repeat' split at hindex
    all_goals
      cases hindex
      subst_vars
      exact ⟨by decide, by decide, rfl⟩

theorem headerName_of_header {i : Nat} {f : Field} (h : header i = some f) : headerName i = some f.1 := by
  by_cases hi : i < 62
  · have hall : ∀ i < 62, (header i).map Prod.fst = headerName i := by decide +kernel
    rw [← hall i hi, h, Option.map_some]
  · have hnone : header i = none := by
      unfold header
      split
      all_goals first | omega | simp [length_otherNames, show 47 ≤ i - 15 by omega]
    rw [hnone] at h
    cases h

/-- Only names outside the table are not found. -/
theorem index_eq_none (hindex : index h value = none) : (∃ name, h = .other name) ∧ ∀ i, headerName i ≠ some h := by
  cases h with
  | other key =>
    refine ⟨⟨key, rfl⟩, ?_⟩
    intro i hi
    have hfind : otherNames.findIdx? (· = key) = none := by
      simp only [index, indexHeaders] at hindex
      split at hindex
      · split at hindex <;> cases hindex
      · assumption
    have hmem : key ∈ otherNames := by
      unfold headerName at hi
      repeat' split at hi
      all_goals try cases hi
      obtain ⟨name, hget, heq⟩ := Option.map_eq_some_iff.mp hi
      cases heq
      exact mem_of_getElem? hget
    simpa using findIdx?_eq_none_iff.mp hfind key hmem
  | _ =>
    simp only [index] at hindex
    repeat' split at hindex
    all_goals cases hindex

end StaticTable

/-! ### The dynamic table -/

/-- The size of the entries of a table. -/
def tableSize (queue : List Field) : Nat := (queue.map Field.size).sum

/-- The front of the queue is the newest entry. -/
structure DynamicTable where
  queue : List Field
  currSize : Nat
  maxSize : Nat
  currSize_eq : currSize = tableSize queue
  currSize_le : currSize ≤ maxSize

namespace DynamicTable

def withMaxSize (maxSize : Nat) : DynamicTable := ⟨[], 0, maxSize, rfl, Nat.zero_le _⟩

def headerName (t : DynamicTable) (index : Nat) : Option Header := t.queue[index]?.map Prod.fst

def header (t : DynamicTable) (index : Nat) : Option Field := t.queue[index]?

/-- The loop of `fit_size`: evict the oldest entries while the table is too big. -/
def fitLoop (maxSize : Nat) : Nat → List Field → Nat → List Field × Nat
  | 0, queue, currSize => (queue, currSize)
  | fuel + 1, queue, currSize =>
    if currSize > maxSize then
      match queue.getLast? with
      | some f => fitLoop maxSize fuel queue.dropLast (currSize - f.size)
      | none => (queue, currSize)
    else (queue, currSize)

theorem tableSize_dropLast {queue : List Field} {f : Field} (h : queue.getLast? = some f) :
    tableSize queue = tableSize queue.dropLast + f.size := by
  obtain ⟨ys, rfl⟩ := getLast?_eq_some_iff.mp h
  simp [tableSize]

/-- Eviction ends with a table that fits, and its size is right. -/
theorem fitLoop_spec (maxSize : Nat) : ∀ (fuel : Nat) {queue : List Field} {currSize : Nat}, queue.length ≤ fuel →
      currSize = tableSize queue →
      (fitLoop maxSize fuel queue currSize).2 = tableSize (fitLoop maxSize fuel queue currSize).1 ∧
        (fitLoop maxSize fuel queue currSize).2 ≤ maxSize := by
  intro fuel
  induction fuel with
  | zero =>
    intro queue currSize hlen hsize
    obtain rfl := length_eq_zero_iff.mp (Nat.le_zero.mp hlen)
    subst hsize
    simp [fitLoop, tableSize]
  | succ fuel ih =>
    intro queue currSize hlen hsize
    rw [fitLoop]
    split_ifs with hbig
    · cases hlast : queue.getLast? with
      | none =>
        rw [hsize, getLast?_eq_none_iff.mp hlast] at hbig
        simp [tableSize] at hbig
      | some f =>
        refine ih (by rw [length_dropLast]; omega) ?_
        rw [hsize, tableSize_dropLast hlast, Nat.add_sub_cancel]
    · exact ⟨hsize, Nat.le_of_not_gt hbig⟩

/-- `fit_size` on a table whose entries or capacity have just changed. -/
def fitSize (queue : List Field) (currSize maxSize : Nat) (h : currSize = tableSize queue) : DynamicTable :=
  let r := fitLoop maxSize queue.length queue currSize
  ⟨r.1, r.2, maxSize, (fitLoop_spec maxSize _ le_rfl h).1, (fitLoop_spec maxSize _ le_rfl h).2⟩

/-- The size of a table with a new entry. -/
theorem tableSize_push (t : DynamicTable) (header : Header) (value : List UInt8) :
    t.currSize + (header.len + value.length + 32) = tableSize ((header, value) :: t.queue) := by
  rw [t.currSize_eq, tableSize, tableSize, map_cons, Nat.add_comm]
  rfl

def update (t : DynamicTable) (header : Header) (value : List UInt8) : DynamicTable :=
  fitSize ((header, value) :: t.queue) (t.currSize + (header.len + value.length + 32)) t.maxSize
    (tableSize_push t header value)

def updateSize (t : DynamicTable) (maxSize : Nat) : DynamicTable :=
  fitSize t.queue t.currSize maxSize t.currSize_eq

@[simp] theorem maxSize_update (t : DynamicTable) (header : Header) (value : List UInt8) :
    (t.update header value).maxSize = t.maxSize := rfl

/-- Every entry takes at least 32 bytes of the capacity. -/
theorem length_queue_le (t : DynamicTable) : 32 * t.queue.length ≤ t.maxSize := by
  have hsum : ∀ queue : List Field, 32 * queue.length ≤ tableSize queue := by
    intro queue
    induction queue with
    | nil => exact Nat.zero_le _
    | cons f queue ih =>
      have hentry : 32 ≤ f.size := Nat.le_add_left 32 _
      rw [tableSize, map_cons, sum_cons, length_cons]
      unfold tableSize at ih
      omega
  calc 32 * t.queue.length ≤ tableSize t.queue := hsum t.queue
    _ = t.currSize := t.currSize_eq.symm
    _ ≤ t.maxSize := t.currSize_le

/-- The loop of `index`, with the first entry of the right name found so far. -/
def indexLoop (header : Header) (value : List UInt8) :
    Nat → Option TableIndex → List Field → Option TableIndex
  | _, index, [] => index
  | n, index, (h, v) :: queue =>
    if header = h ∧ value = v then some (.header n)
    else if header = h ∧ index = none then indexLoop header value (n + 1) (some (.headerName n)) queue
    else indexLoop header value (n + 1) index queue

def index (t : DynamicTable) (header : Header) (value : List UInt8) : Option TableIndex :=
  indexLoop header value 0 none t.queue

/-- The loop finds the first entry that is the field, or the first one with its name. -/
theorem indexLoop_eq (header : Header) (value : List UInt8) :
    ∀ (queue : List Field) (n : Nat) (index : Option TableIndex), indexLoop header value n index queue =
        if (header, value) ∈ queue then some (.header (n + queue.idxOf (header, value)))
        else index.or ((queue.findIdx? (·.1 = header)).map fun i => .headerName (n + i)) := by
  intro queue
  induction queue with
  | nil =>
    intro n index
    simp [indexLoop]
  | cons f queue ih =>
    obtain ⟨h, v⟩ := f
    intro n index
    by_cases hfield : (header, value) = (h, v)
    · cases hfield
      simp [indexLoop]
    · have hmem : (header, value) ∈ (h, v) :: queue ↔ (header, value) ∈ queue := by
        rw [mem_cons, or_iff_right hfield]
      have hidx : n + 1 + queue.idxOf (header, value) = n + ((h, v) :: queue).idxOf (header, value) := by
        rw [idxOf_cons_ne _ (Ne.symm hfield)]
        omega
      by_cases hname : header = h
      · subst hname
        have hvalue : value ≠ v := fun heq => hfield (congrArg _ heq)
        cases index with
        | none =>
          simp only [indexLoop, hvalue, and_false, ↓reduceIte, and_self, ih, hmem, hidx]
          simp [findIdx?_cons]
        | some i =>
          simp only [indexLoop, hvalue, and_false, ↓reduceIte, reduceCtorEq, ih, hmem, hidx]
          simp
      · have hfind : ((h, v) :: queue).findIdx? (·.1 = header) = (queue.findIdx? (·.1 = header)).map (· + 1) := by
          rw [findIdx?_cons]
          simp [Ne.symm hname]
        simp only [indexLoop, hname, false_and, ↓reduceIte, ih, hmem, hidx, hfind, Option.map_map]
        congr 3
        funext i
        simp only [Function.comp_apply, TableIndex.headerName.injEq]
        omega

theorem index_eq (t : DynamicTable) (header : Header) (value : List UInt8) : t.index header value =
      if (header, value) ∈ t.queue then some (.header (t.queue.idxOf (header, value)))
      else (t.queue.findIdx? (·.1 = header)).map .headerName := by
  rw [index, indexLoop_eq]
  simp

end DynamicTable

/-! ### Searching both tables -/

namespace TableSearcher

def searchHeaderName (dynamic : DynamicTable) (index : Nat) : Option Header :=
  if index ≤ 61 then StaticTable.headerName index else dynamic.headerName (index - 62)

def searchHeader (dynamic : DynamicTable) (index : Nat) : Option Field :=
  if index ≤ 61 then StaticTable.header index else dynamic.header (index - 62)

def index (dynamic : DynamicTable) (header : Header) (value : List UInt8) : Option TableIndex :=
  match StaticTable.index header value, dynamic.index header value with
  | some (.header i), _ => some (.header i)
  | _, some (.header i) => some (.header (i + 62))
  | some (.headerName i), _ => some (.headerName i)
  -- A dynamic entry that has only the name is given as a whole header.
  | _, some (.headerName i) => some (.header (i + 62))
  | none, none => none

end TableSearcher

/-- The static table has no entry with the name of the field, and the dynamic
table has one but none that is the field. -/
structure NameOnlyHit (t : DynamicTable) (f : Field) : Prop where
  unnamed : ∀ i, StaticTable.headerName i ≠ some f.1
  named : ∃ v, (f.1, v) ∈ t.queue
  absent : f ∉ t.queue

/-- What the index found for a field points to. -/
inductive IndexOf (t : DynamicTable) (f : Field) : Option TableIndex → Prop
  | known {i : Nat} (bound : i < t.queue.length + 62) (pos : 0 < i)
      (found : TableSearcher.searchHeader t i = some f) (miss : ¬ NameOnlyHit t f) :
      IndexOf t f (some (.header i))
  | named {i : Nat} (bound : i < 62) (pos : 0 < i)
      (found : TableSearcher.searchHeaderName t i = some f.1) (miss : ¬ NameOnlyHit t f) :
      IndexOf t f (some (.headerName i))
  | nameOnly {i : Nat} {value : List UInt8} (bound : i < t.queue.length + 62) (pos : 0 < i)
      (found : TableSearcher.searchHeader t i = some (f.1, value)) (differs : value ≠ f.2)
      (hit : NameOnlyHit t f) : IndexOf t f (some (.header i))
  | unknown {name : List UInt8} (other : f.1 = .other name) (miss : ¬ NameOnlyHit t f) : IndexOf t f none

variable {t : DynamicTable} {f : Field}

theorem searchHeader_dynamic {i : Nat} (h : t.queue[i]? = some f) : TableSearcher.searchHeader t (i + 62) = some f := by
  rw [TableSearcher.searchHeader, if_neg (by omega), Nat.add_sub_cancel, DynamicTable.header, h]

/-- A field in the dynamic table is found there. -/
theorem indexOf_mem (h : f ∈ t.queue) : IndexOf t f (some (.header (t.queue.idxOf f + 62))) := by
  have hlt := idxOf_lt_length_of_mem h
  refine .known (by omega) (by omega) (searchHeader_dynamic ?_) fun hit => hit.absent h
  rw [getElem?_eq_getElem hlt, getElem_idxOf hlt]

theorem index_spec (t : DynamicTable) (f : Field) : IndexOf t f (TableSearcher.index t f.1 f.2) := by
  obtain ⟨h, v⟩ := f
  simp only [TableSearcher.index]
  cases hstatic : StaticTable.index h v with
  | some i =>
    have hpoints := StaticTable.points_index hstatic
    cases i with
    | header i =>
      obtain ⟨hpos, hle, hfound⟩ := hpoints
      refine .known (by omega) hpos ?_ fun hit =>
        hit.unnamed i (StaticTable.headerName_of_header hfound)
      rw [TableSearcher.searchHeader, if_pos hle, hfound]
    | headerName i =>
      obtain ⟨hpos, hle, hfound⟩ := hpoints
      have hnamed : IndexOf t (h, v) (some (.headerName i)) := by
        refine .named (by omega) hpos ?_ fun hit => hit.unnamed i hfound
        rw [TableSearcher.searchHeaderName, if_pos hle, hfound]
      rw [DynamicTable.index_eq]
      by_cases hmem : (h, v) ∈ t.queue
      · simpa only [hmem, ↓reduceIte] using indexOf_mem hmem
      · simp only [hmem, ↓reduceIte]
        cases t.queue.findIdx? (·.1 = h) <;> exact hnamed
  | none =>
    obtain ⟨⟨name, hother⟩, hunnamed⟩ := StaticTable.index_eq_none hstatic
    rw [DynamicTable.index_eq]
    by_cases hmem : (h, v) ∈ t.queue
    · simpa only [hmem, ↓reduceIte] using indexOf_mem hmem
    · simp only [hmem, ↓reduceIte]
      cases hfind : t.queue.findIdx? (·.1 = h) with
      | none =>
        refine .unknown hother fun hit => ?_
        obtain ⟨v', hv'⟩ := hit.named
        simpa using findIdx?_eq_none_iff.mp hfind _ hv'
      | some n =>
        obtain ⟨hlt, hname, -⟩ := findIdx?_eq_some_iff_getElem.mp hfind
        rw [decide_eq_true_eq] at hname
        have hget : t.queue[n]? = some (h, t.queue[n].2) := by
          rw [getElem?_eq_getElem hlt, ← hname]
        have hentry : (h, t.queue[n].2) ∈ t.queue := mem_of_getElem? hget
        refine .nameOnly (by omega) (by omega) (searchHeader_dynamic hget) ?_
          ⟨hunnamed, ⟨_, hentry⟩, hmem⟩
        intro heq
        rw [heq] at hentry
        exact hmem hentry

end YlongHttp.H2.Hpack
