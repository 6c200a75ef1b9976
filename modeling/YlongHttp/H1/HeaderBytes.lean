/-
The bytes of HTTP/1 field lines (`util/header_bytes.rs`) and the map operations that rely
on a parser having checked them (`headers.rs`).

The unsafe functions of the source state what their callers have to guarantee. Here the
guarantee is an argument, so that a caller without it cannot call them.
-/

import YlongHttp.Headers
import YlongHttp.H2.Hpack.Table

namespace YlongHttp

open Codec
open H2.Hpack (ascii)

/-- `HEADER_NAME_BYTES`. -/
def headerNameBytes : List Bool :=
  let o := false
  let T := true
  [
    o,o,o,o,o,o,o,o,o,o,o,o,o,o,o,o,
    o,o,o,o,o,o,o,o,o,o,o,o,o,o,o,o,
    o,T,o,T,T,T,T,T,o,o,T,T,o,T,T,o,
    T,T,T,T,T,T,T,T,T,T,o,o,o,o,o,o,
    o,T,T,T,T,T,T,T,T,T,T,T,T,T,T,T,
    T,T,T,T,T,T,T,T,T,T,T,o,o,o,T,T,
    T,T,T,T,T,T,T,T,T,T,T,T,T,T,T,T,
    T,T,T,T,T,T,T,T,T,T,T,o,T,o,T,o,
    o,o,o,o,o,o,o,o,o,o,o,o,o,o,o,o,
    o,o,o,o,o,o,o,o,o,o,o,o,o,o,o,o,
    o,o,o,o,o,o,o,o,o,o,o,o,o,o,o,o,
    o,o,o,o,o,o,o,o,o,o,o,o,o,o,o,o,
    o,o,o,o,o,o,o,o,o,o,o,o,o,o,o,o,
    o,o,o,o,o,o,o,o,o,o,o,o,o,o,o,o,
    o,o,o,o,o,o,o,o,o,o,o,o,o,o,o,o,
    o,o,o,o,o,o,o,o,o,o,o,o,o,o,o,o ]

def headerNameByte (b : UInt8) : Bool := headerNameBytes.getD b.toNat false

/-- `HEADER_VALUE_BYTES`. -/
def headerValueBytes : List Bool :=
  let o := false
  let T := true
  [
    o,o,o,o,o,o,o,o,o,T,o,o,o,o,o,o,
    o,o,o,o,o,o,o,o,o,o,o,o,o,o,o,o,
    T,T,T,T,T,T,T,T,T,T,T,T,T,T,T,T,
    T,T,T,T,T,T,T,T,T,T,T,T,T,T,T,T,
    T,T,T,T,T,T,T,T,T,T,T,T,T,T,T,T,
    T,T,T,T,T,T,T,T,T,T,T,T,T,T,T,T,
    T,T,T,T,T,T,T,T,T,T,T,T,T,T,T,T,
    T,T,T,T,T,T,T,T,T,T,T,T,T,T,T,o,
    T,T,T,T,T,T,T,T,T,T,T,T,T,T,T,T,
    T,T,T,T,T,T,T,T,T,T,T,T,T,T,T,T,
    T,T,T,T,T,T,T,T,T,T,T,T,T,T,T,T,
    T,T,T,T,T,T,T,T,T,T,T,T,T,T,T,T,
    T,T,T,T,T,T,T,T,T,T,T,T,T,T,T,T,
    T,T,T,T,T,T,T,T,T,T,T,T,T,T,T,T,
    T,T,T,T,T,T,T,T,T,T,T,T,T,T,T,T,
    T,T,T,T,T,T,T,T,T,T,T,T,T,T,T,T ]

def headerValueByte (b : UInt8) : Bool := headerValueBytes.getD b.toNat false

/-! ### The grammar -/

/-- `tchar` of the grammar. -/
def IsTchar (b : UInt8) : Prop :=
  b ∈ ascii "!#$%&'*+-.^_`|~" ∨ (0x30 ≤ b ∧ b ≤ 0x39) ∨ (0x41 ≤ b ∧ b ≤ 0x5a) ∨ (0x61 ≤ b ∧ b ≤ 0x7a)

instance (b : UInt8) : Decidable (IsTchar b) := inferInstanceAs (Decidable (_ ∨ _))

/-- A byte of a field value or of a reason phrase: HTAB, SP, VCHAR or obs-text. -/
def IsText (b : UInt8) : Prop := b = 0x09 ∨ (0x20 ≤ b ∧ b ≤ 0x7e) ∨ 0x80 ≤ b

instance (b : UInt8) : Decidable (IsText b) := inferInstanceAs (Decidable (_ ∨ _))

/-! ### Names and values that are already checked -/

/-- `u8::to_ascii_lowercase`. -/
def toAsciiLowercase (b : UInt8) : UInt8 := if 0x41 ≤ b ∧ b ≤ 0x5a then b + 0x20 else b

theorem normalByte_toAsciiLowercase : ∀ b : UInt8, headerNameByte b = true → NormalByte (toAsciiLowercase b) :=
  forall_byte (by decide +kernel)

/-- The table of values allows what `HeaderValue::is_valid` allows. -/
theorem headerValueByte_iff : ∀ b : UInt8, headerValueByte b = true ↔ ValidByte b :=
  forall_byte (by decide +kernel)

def HeaderName.fromValidatedH1Name (bytes : List UInt8) (h : ∀ b ∈ bytes, headerNameByte b = true) :
    HeaderName where
  name := bytes.map toAsciiLowercase
  normal b hb := by
    obtain ⟨c, hc, rfl⟩ := List.mem_map.mp hb
    exact normalByte_toAsciiLowercase c (h c hc)

def HeaderValue.fromValidatedH1Value (bytes : List UInt8) (h : ∀ b ∈ bytes, headerValueByte b = true) :
    HeaderValue where
  inner := [bytes]
  isSensitive := false
  valid v hv b hb := by
    rw [List.mem_singleton.mp hv] at hb
    exact (headerValueByte_iff b).mp (h b hb)

def Headers.appendValidatedH1 (map : Headers) (name value : List UInt8)
    (hname : ∀ b ∈ name, headerNameByte b = true) (hvalue : ∀ b ∈ value, headerValueByte b = true) :
    Headers :=
  let name := HeaderName.fromValidatedH1Name name hname
  let value := HeaderValue.fromValidatedH1Value value hvalue
  match map.lookup name with
  | some old => map.insert name (old.append value)
  | none => map.insert name value

/-! ### The values of a name -/

/-- The values of a name in their order, if the map has the name. -/
def Headers.values (map : Headers) (name : HeaderName) : Option (List (List UInt8)) :=
  (map.lookup name).map HeaderValue.inner

theorem Headers.values_appendValidatedH1 (map : Headers) {name value : List UInt8}
    (hname : ∀ b ∈ name, headerNameByte b = true) (hvalue : ∀ b ∈ value, headerValueByte b = true)
    (key : HeaderName) : (map.appendValidatedH1 name value hname hvalue).values key =
      if name.map toAsciiLowercase = key.name then some ((map.values key).getD [] ++ [value])
      else map.values key := by
  by_cases hkey : name.map toAsciiLowercase = key.name
  · obtain rfl : HeaderName.fromValidatedH1Name name hname = key := by
      obtain ⟨bytes, normal⟩ := key
      cases hkey
      rfl
    rw [if_pos hkey, values, values, appendValidatedH1]
    cases map.lookup (HeaderName.fromValidatedH1Name name hname) with
    | some | none =>
      simp only [AList.lookup_insert]
      rfl
  · have hne : key ≠ HeaderName.fromValidatedH1Name name hname := by
      rintro rfl
      exact hkey rfl
    rw [if_neg hkey, values, values, appendValidatedH1]
    cases map.lookup (HeaderName.fromValidatedH1Name name hname) <;> simp only [AList.lookup_insert_ne hne]

end YlongHttp
