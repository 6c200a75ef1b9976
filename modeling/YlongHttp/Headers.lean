/-
Header names, values and maps (`headers.rs`).

A `HeaderName` holds only normalized bytes and a `HeaderValue` only valid ones, so
that a name or a value that the constructors refuse cannot be built. `Headers` is
the hash map of the source: an association list without duplicate keys, whose
order stands for the unspecified iteration order.
-/

import YlongHttp.Codec.Bits

namespace YlongHttp

open Codec List

/-- The kind of error that names and values give. -/
inductive HeaderError where
  | invalidInput
deriving DecidableEq, Repr

/-- `HEADER_CHARS`: the normalized byte, or zero for a byte that names cannot have. -/
def headerChars : List UInt8 :=
  [ 0,0,0,0,0,0,0,0,0,0, 0,0,0,0,0,0,0,0,0,0, 0,0,0,0,0,0,0,0,0,0, 0,0,32,33,34,35,36,37,38,39,
    0,0,42,43,44,45,46,47,48,49,
    50,51,52,53,54,55,56,57,0,0,
    0,0,0,0,0,97,98,99,100,101,
    102,103,104,105,106,107,108,109,110,111,
    112,113,114,115,116,117,118,119,120,121,
    122,0,0,0,94,95,96,97,98,99,
    100,101,102,103,104,105,106,107,108,109,
    110,111,112,113,114,115,116,117,118,119,
    120,121,122,0,124,0,126,0,0,0 ]

/-- `HEADER_CHARS[b]`; all bytes from 127 on are zero. -/
def headerChar (b : UInt8) : UInt8 := headerChars.getD b.toNat 0

/-- A normalized byte is its own normalization. -/
theorem headerChar_headerChar : ∀ b : UInt8, headerChar (headerChar b) = headerChar b :=
  forall_byte (by decide +kernel)

/-! ### Names -/

/-- A byte that a normalized name can have. -/
def NormalByte (b : UInt8) : Prop := headerChar b = b ∧ b ≠ 0

instance (b : UInt8) : Decidable (NormalByte b) := inferInstanceAs (Decidable (_ ∧ _))

structure HeaderName where
  name : List UInt8
  normal : ∀ b ∈ name, NormalByte b
deriving DecidableEq

namespace HeaderName

def normalize : List UInt8 → Except HeaderError (List UInt8)
  | [] => .ok []
  | b :: input =>
    if headerChar b = 0 then .error .invalidInput
    else
      match normalize input with
      | .ok dst => .ok (headerChar b :: dst)
      | .error e => .error e

theorem normal_of_normalize : ∀ {input dst : List UInt8}, normalize input = .ok dst → ∀ b ∈ dst, NormalByte b
  | [], dst, h, b, hb => by
    cases h
    cases hb
  | c :: input, dst, h, b, hb => by
    unfold normalize at h
    split at h
    · cases h
    · rename_i hc
      split at h
      · rename_i rest hrest
        cases h
        rcases mem_cons.mp hb with rfl | hb
        · exact ⟨headerChar_headerChar c, hc⟩
        · exact normal_of_normalize hrest b hb
      · cases h

def fromBytes (bytes : List UInt8) : Except HeaderError HeaderName :=
  match h : normalize bytes with
  | .ok name => .ok ⟨name, normal_of_normalize h⟩
  | .error e => .error e

variable {input bytes : List UInt8} {b : UInt8}

/-- Names of valid bytes are accepted. -/
theorem normalize_eq_ok (h : ∀ b ∈ input, headerChar b ≠ 0) : normalize input = .ok (input.map headerChar) := by
  induction input with
  | nil => rfl
  | cons b input ih =>
    rw [normalize, if_neg (h b (mem_cons_self ..)), ih fun c hc => h c (mem_cons_of_mem _ hc), map_cons]

theorem normalize_eq_error (hb : b ∈ input) (h : headerChar b = 0) : normalize input = .error .invalidInput := by
  induction input with
  | nil => cases hb
  | cons c input ih =>
    by_cases hc : headerChar c = 0
    · rw [normalize, if_pos hc]
    · have hmem : b ∈ input := by
        rcases mem_cons.mp hb with rfl | hmem
        · exact absurd h hc
        · exact hmem
      rw [normalize, if_neg hc, ih hmem]

theorem fromBytes_eq_ok {name : List UInt8} (h : normalize bytes = .ok name) :
    fromBytes bytes = .ok ⟨name, normal_of_normalize h⟩ := by
  unfold fromBytes
  split
  · rename_i name' h'
    cases h.symm.trans h'
    rfl
  · rename_i e h'
    cases h.symm.trans h'

/-- The name that is read depends on what the bytes are mapped to only. -/
theorem normalize_eq (input : List UInt8) : normalize input =
    if ∀ c ∈ input.map headerChar, c ≠ 0 then .ok (input.map headerChar) else .error .invalidInput := by
  split
  next h => exact normalize_eq_ok fun b hb => h _ (mem_map_of_mem hb)
  next h =>
    push Not at h
    obtain ⟨c, hc, rfl⟩ := h
    obtain ⟨b, hb, hzero⟩ := mem_map.mp hc
    exact normalize_eq_error hb hzero

theorem name_of_fromBytes {name : HeaderName} (h : fromBytes bytes = .ok name) : name.name = bytes.map headerChar := by
  unfold fromBytes at h
  split at h
  next name' h' =>
    cases h
    rw [normalize_eq] at h'
    split at h'
    next => exact (Except.ok.inj h').symm
    next => cases h'
  next => cases h

theorem fromBytes_congr {a b : List UInt8} (h : a.map headerChar = b.map headerChar) : fromBytes a = fromBytes b := by
  have hnorm : normalize a = normalize b := by
    rw [normalize_eq, normalize_eq, h]
  cases hb : normalize b with
  | ok name => rw [fromBytes_eq_ok hb, fromBytes_eq_ok (hnorm.trans hb)]
  | error e =>
    unfold fromBytes
    split
    next name h' => cases (hnorm.trans hb).symm.trans h'
    next e' h' =>
      split
      next name h'' => cases hb.symm.trans h''
      next e'' h'' => exact congrArg Except.error (Except.error.inj (h'.symm.trans (hnorm.trans h'')))

/-- A name reads back from its own bytes. -/
theorem fromBytes_name (name : HeaderName) : fromBytes name.name = .ok name := by
  have hmap : name.name.map headerChar = name.name :=
    (map_congr_left fun b hb => (name.normal b hb).1).trans (map_id _)
  have hok := normalize_eq_ok fun b hb => by
    rw [(name.normal b hb).1]
    exact (name.normal b hb).2
  rw [hmap] at hok
  rw [fromBytes_eq_ok hok]

/-- A byte that no name has is refused. -/
theorem fromBytes_eq_error (hb : b ∈ bytes) (h : headerChar b = 0) : fromBytes bytes = .error .invalidInput := by
  have herr := normalize_eq_error hb h
  unfold fromBytes
  split
  · rename_i name h'
    cases herr.symm.trans h'
  · rename_i e h'
    cases herr.symm.trans h'
    rfl

end HeaderName

/-! ### Values -/

/-- `HeaderValue::is_valid`. -/
def ValidByte (b : UInt8) : Prop := (32 ≤ b ∧ b ≠ 127) ∨ b = 9

instance (b : UInt8) : Decidable (ValidByte b) := inferInstanceAs (Decidable (_ ∨ _))

structure HeaderValue where
  inner : List (List UInt8)
  isSensitive : Bool
  valid : ∀ v ∈ inner, ∀ b ∈ v, ValidByte b
deriving DecidableEq

namespace HeaderValue

def fromBytes (bytes : List UInt8) : Except HeaderError HeaderValue :=
  if h : ∀ b ∈ bytes, ValidByte b then
    .ok ⟨[bytes], false, fun v hv => by rwa [List.mem_singleton.mp hv]⟩
  else .error .invalidInput

def append (value other : HeaderValue) : HeaderValue where
  inner := value.inner ++ other.inner
  isSensitive := value.isSensitive
  valid v hv := by
    rcases List.mem_append.mp hv with hv | hv
    · exact value.valid v hv
    · exact other.valid v hv

/-- `to_string`: the values in order, separated by a comma and a space. -/
def toText (value : HeaderValue) : List UInt8 := List.intercalate [0x2c, 0x20] value.inner

end HeaderValue

/-! ### Maps -/

abbrev Headers := AList fun _ : HeaderName => HeaderValue

namespace Headers

/-- `append`: the value is added to those the name already has. -/
def append (map : Headers) (name value : List UInt8) : Except HeaderError Headers :=
  match HeaderName.fromBytes name with
  | .error e => .error e
  | .ok name =>
    match HeaderValue.fromBytes value with
    | .error e => .error e
    | .ok value =>
      match map.lookup name with
      | some old => .ok (map.insert name (old.append value))
      | none => .ok (map.insert name value)

/-- A map accepts a field if its name and its value have valid bytes only. -/
def Accepts (name value : List UInt8) : Prop :=
  (∀ b ∈ name, headerChar b ≠ 0) ∧ ∀ b ∈ value, ValidByte b

instance (name value : List UInt8) : Decidable (Accepts name value) :=
  inferInstanceAs (Decidable (_ ∧ _))

variable {name value other : List UInt8} {map : Headers}

theorem append_of_accepts (h : Accepts name value) (map : Headers) : ∃ map', append map name value = .ok map' := by
  obtain ⟨hname, hvalue⟩ := h
  rw [append, HeaderName.fromBytes_eq_ok (HeaderName.normalize_eq_ok hname)]
  simp only [HeaderValue.fromBytes, dif_pos hvalue]
  split <;> exact ⟨_, rfl⟩

theorem append_of_not_accepts (h : ¬ Accepts name value) (map : Headers) :
    append map name value = .error .invalidInput := by
  by_cases hname : ∀ b ∈ name, headerChar b ≠ 0
  · have hvalue : ¬ ∀ b ∈ value, ValidByte b := fun hv => h ⟨hname, hv⟩
    rw [append, HeaderName.fromBytes_eq_ok (HeaderName.normalize_eq_ok hname)]
    simp only [HeaderValue.fromBytes, dif_neg hvalue]
  · push Not at hname
    obtain ⟨b, hb, hzero⟩ := hname
    rw [append, HeaderName.fromBytes_eq_error hb hzero]

/-- A new name gets the value as it is. -/
theorem append_new {name : HeaderName} (hnew : map.lookup name = none) (hvalue : ∀ b ∈ value, ValidByte b) :
    append map name.name value = .ok (map.insert name ⟨[value], false, fun v hv => by rwa [mem_singleton.mp hv]⟩) := by
  rw [append, HeaderName.fromBytes_name]
  simp only [HeaderValue.fromBytes, dif_pos hvalue, hnew]

def get (map : Headers) (name : List UInt8) : Option HeaderValue :=
  match HeaderName.fromBytes name with
  | .ok name => map.lookup name
  | .error _ => none

/-- `Headers::insert`: the value takes the place of those the name has. -/
def insertField (map : Headers) (name value : List UInt8) : Except HeaderError Headers :=
  match HeaderName.fromBytes name with
  | .error e => .error e
  | .ok name =>
    match HeaderValue.fromBytes value with
    | .error e => .error e
    | .ok value => .ok (AList.insert name value map)

def remove (map : Headers) (name : List UInt8) : Headers :=
  match HeaderName.fromBytes name with
  | .ok name => map.erase name
  | .error _ => map

theorem get_remove_self (map : Headers) (name : List UInt8) : (map.remove name).get name = none := by
  rw [get, remove]
  cases HeaderName.fromBytes name with
  | error e => rfl
  | ok key => exact AList.lookup_erase key map

theorem get_remove_of_ne (h : name.map headerChar ≠ other.map headerChar) (map : Headers) :
    (map.remove name).get other = map.get other := by
  rw [get, remove, get]
  cases hname : HeaderName.fromBytes name with
  | error e => rfl
  | ok key =>
    cases hother : HeaderName.fromBytes other with
    | error e => rfl
    | ok key' =>
      refine AList.lookup_erase_ne ?_
      rintro rfl
      exact h ((HeaderName.name_of_fromBytes hname).symm.trans (HeaderName.name_of_fromBytes hother))

theorem get_insertField_of_ne {map' : Headers}
    (h : name.map headerChar ≠ other.map headerChar) (hinsert : map.insertField name value = .ok map') :
    map'.get other = map.get other := by
  rw [insertField] at hinsert
  cases hname : HeaderName.fromBytes name with
  | error e =>
    rw [hname] at hinsert
    cases hinsert
  | ok key =>
    rw [hname] at hinsert
    cases hvalue : HeaderValue.fromBytes value with
    | error e =>
      rw [hvalue] at hinsert
      cases hinsert
    | ok value =>
      rw [hvalue] at hinsert
      cases hinsert
      rw [get, get]
      cases hother : HeaderName.fromBytes other with
      | error e => rfl
      | ok key' =>
        refine AList.lookup_insert_ne ?_
        rintro rfl
        exact h ((HeaderName.name_of_fromBytes hname).symm.trans (HeaderName.name_of_fromBytes hother))

/-- The names of the list are taken out one after the other. -/
def removeAll (map : Headers) (names : List (List UInt8)) : Headers := names.foldl remove map

variable {names : List (List UInt8)}

theorem get_removeAll_of_ne (h : ∀ name ∈ names, name.map headerChar ≠ other.map headerChar) (map : Headers) :
    (map.removeAll names).get other = map.get other := by
  induction names generalizing map with
  | nil => rfl
  | cons name names ih =>
    refine (ih (fun name hname => h name (mem_cons_of_mem _ hname)) _).trans ?_
    exact get_remove_of_ne (h name mem_cons_self) map

/-- What is not there stays away. -/
theorem get_removeAll_of_none (names : List (List UInt8))
    (h : map.get other = none) : (map.removeAll names).get other = none := by
  induction names generalizing map with
  | nil => exact h
  | cons name names ih =>
    refine ih (show (map.remove name).get other = none from ?_)
    by_cases hname : name.map headerChar = other.map headerChar
    · have hself := get_remove_self map name
      rwa [get, HeaderName.fromBytes_congr hname] at hself
    · rw [get_remove_of_ne hname, h]

theorem get_removeAll_of_mem (h : name ∈ names) (map : Headers) : (map.removeAll names).get name = none := by
  induction names generalizing map with
  | nil => cases h
  | cons first names ih =>
    rcases mem_cons.mp h with rfl | hmem
    · exact get_removeAll_of_none names (get_remove_self map name)
    · exact ih hmem (map.remove first)

end Headers

end YlongHttp
