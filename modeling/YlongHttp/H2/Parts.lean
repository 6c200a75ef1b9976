/-
Pseudo headers and the parts of a HEADERS frame (`pseudo.rs`, `h2/parts.rs`).
-/

import YlongHttp.Headers
import YlongHttp.H2.Hpack.Table

namespace YlongHttp.H2

open H2.Hpack

structure PseudoHeaders where
  authority : Option (List UInt8)
  method : Option (List UInt8)
  path : Option (List UInt8)
  scheme : Option (List UInt8)
  status : Option (List UInt8)
deriving DecidableEq, Repr

def PseudoHeaders.new : PseudoHeaders := ⟨none, none, none, none, none⟩

structure Parts where
  pseudo : PseudoHeaders
  map : Headers

namespace Parts

def new : Parts := ⟨PseudoHeaders.new, ∅⟩

/-- `Parts::update`. The `unwrap` on the result of `append` panics if the map
refuses the field: `none`. -/
def update (parts : Parts) (header : Header) (value : List UInt8) : Option Parts :=
  match header with
  | .authority => some { parts with pseudo := { parts.pseudo with authority := some value } }
  | .method => some { parts with pseudo := { parts.pseudo with method := some value } }
  | .path => some { parts with pseudo := { parts.pseudo with path := some value } }
  | .scheme => some { parts with pseudo := { parts.pseudo with scheme := some value } }
  | .status => some { parts with pseudo := { parts.pseudo with status := some value } }
  | .other name =>
    match parts.map.append name value with
    | .ok map => some { parts with map := map }
    | .error _ => none

/-- A field the parts can take: a pseudo header, or one that a header map accepts. -/
def Accepts : Field → Prop
  | (.other name, value) => Headers.Accepts name value
  | _ => True

theorem update_of_accepts {f : Field} (h : Accepts f) (parts : Parts) :
    ∃ parts', parts.update f.1 f.2 = some parts' := by
  obtain ⟨header, value⟩ := f
  cases header with
  | other name =>
    obtain ⟨map, hmap⟩ := Headers.append_of_accepts h parts.map
    exact ⟨{ parts with map := map }, by simp only [update, hmap]⟩
  | _ => exact ⟨_, rfl⟩

theorem update_of_not_accepts {f : Field} (h : ¬ Accepts f) (parts : Parts) : parts.update f.1 f.2 = none := by
  obtain ⟨header, value⟩ := f
  cases header with
  | other name =>
    simp only [update, Headers.append_of_not_accepts h parts.map]
  | _ => exact absurd trivial h

end Parts

end YlongHttp.H2
