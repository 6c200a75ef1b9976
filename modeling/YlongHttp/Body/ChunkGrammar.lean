/-
The grammar of chunked bodies, as a comment in `body/chunk.rs` has it.

A chunked body is a sequence of chunks, each a size line and the data, followed by a size
line for zero and a blank line. `ChunkedBody` is the grammar without trailer section.
`Chunks` and `Framed` leave open what a size line is, so that a decoder that accepts other
size lines can be compared with the grammar.
-/

import YlongHttp.H1.HeaderBytes

namespace YlongHttp.Body

open List

def crlf : List UInt8 := [0x0d, 0x0a]

/-! ### Sizes -/

def hexDigit (b : UInt8) : Option Nat :=
  if 0x30 ≤ b ∧ b ≤ 0x39 then some (b.toNat - 0x30)
  else if 0x61 ≤ b ∧ b ≤ 0x66 then some (b.toNat - 0x61 + 10)
  else if 0x41 ≤ b ∧ b ≤ 0x46 then some (b.toNat - 0x41 + 10)
  else none

def isHex (b : UInt8) : Bool := (hexDigit b).isSome

/-- The value of digits that follow digits of the value `n`. -/
def hexFrom (n : Nat) (digits : List UInt8) : Nat :=
  digits.foldl (fun n b => n * 16 + (hexDigit b).getD 0) n

def hexValue (digits : List UInt8) : Nat := hexFrom 0 digits

@[simp] theorem hexFrom_cons (n : Nat) (b : UInt8) (digits : List UInt8) :
    hexFrom n (b :: digits) = hexFrom (n * 16 + (hexDigit b).getD 0) digits := rfl

theorem le_hexFrom (digits : List UInt8) : ∀ n, n ≤ hexFrom n digits := by
  induction digits with
  | nil =>
    intro n
    exact Nat.le_refl n
  | cons b digits ih =>
    intro n
    rw [hexFrom_cons]
    refine Nat.le_trans ?_ (ih _)
    omega

/-! ### Extensions -/

def isBws (b : UInt8) : Bool := b == 0x20 || b == 0x09

def Blanks (bytes : List UInt8) : Prop := ∀ b ∈ bytes, isBws b = true

instance (bytes : List UInt8) : Decidable (Blanks bytes) := inferInstanceAs (Decidable (∀ b ∈ bytes, _))

def Token (bytes : List UInt8) : Prop := bytes ≠ [] ∧ ∀ b ∈ bytes, IsTchar b

instance (bytes : List UInt8) : Decidable (Token bytes) := inferInstanceAs (Decidable (_ ∧ _))

/-- The inside of a quoted string: `qdtext` or `quoted-pair`. -/
inductive Quoted : List UInt8 → Prop where
  | nil : Quoted []
  | text {b : UInt8} {rest : List UInt8} (h : IsText b) (hquote : b ≠ 0x22) (hslash : b ≠ 0x5c)
      (hrest : Quoted rest) : Quoted (b :: rest)
  | pair {b : UInt8} {rest : List UInt8} (h : IsText b) (hrest : Quoted rest) : Quoted (0x5c :: b :: rest)

/-- `chunk-ext-val`. -/
inductive ExtValue : List UInt8 → Prop where
  | token {bytes : List UInt8} (h : Token bytes) : ExtValue bytes
  | quoted {inside : List UInt8} (h : Quoted inside) : ExtValue (0x22 :: inside ++ [0x22])

inductive ChunkExt : List UInt8 → Prop where
  | nil : ChunkExt []
  | name {bws bws' name rest : List UInt8} (h : Blanks bws) (h' : Blanks bws') (hname : Token name)
      (hrest : ChunkExt rest) : ChunkExt (bws ++ 0x3b :: bws' ++ name ++ rest)
  | value {bws bws' name before after value rest : List UInt8} (h : Blanks bws) (h' : Blanks bws')
      (hname : Token name) (hbefore : Blanks before) (hafter : Blanks after) (hvalue : ExtValue value)
      (hrest : ChunkExt rest) :
      ChunkExt (bws ++ 0x3b :: bws' ++ name ++ before ++ 0x3d :: after ++ value ++ rest)

/-- `chunk-size [ chunk-ext ]` for the size `n`. -/
def SizeLine (line : List UInt8) (n : Nat) : Prop :=
  ∃ digits ext, line = digits ++ ext ∧ digits ≠ [] ∧ (∀ b ∈ digits, isHex b = true) ∧ hexValue digits = n ∧ ChunkExt ext

/-! ### Bodies -/

variable {W W' : List UInt8 → Nat → Prop}

/-- Chunks with size lines of `W`, and their data. -/
inductive Chunks (W : List UInt8 → Nat → Prop) : List UInt8 → List UInt8 → Prop where
  | nil : Chunks W [] []
  | cons {line data bytes body : List UInt8} (hline : W line data.length) (hne : data ≠ [])
      (hrest : Chunks W bytes body) :
      Chunks W (line ++ crlf ++ data ++ crlf ++ bytes) (data ++ body)

/-- Chunks, the last chunk and the blank line. -/
def Framed (W : List UInt8 → Nat → Prop) (bytes body : List UInt8) : Prop :=
  ∃ front line, Chunks W front body ∧ W line 0 ∧ bytes = front ++ line ++ crlf ++ crlf

variable {bytes body : List UInt8}

theorem Chunks.mono (h : ∀ {line n}, W line n → W' line n) (hchunks : Chunks W bytes body) : Chunks W' bytes body := by
  induction hchunks with
  | nil => exact .nil
  | cons hline hne _ ih => exact .cons (h hline) hne ih

theorem Framed.mono (h : ∀ {line n}, W line n → W' line n) : Framed W bytes body → Framed W' bytes body := by
  rintro ⟨front, line, hchunks, hline, rfl⟩
  exact ⟨front, line, hchunks.mono h, h hline, rfl⟩

variable {line ext : List UInt8} {b : UInt8}

theorem Framed.last (hline : W line 0) : Framed W (line ++ crlf ++ crlf) [] :=
  ⟨[], line, .nil, hline, rfl⟩

theorem Framed.cons {data : List UInt8} (hline : W line data.length) (hne : data ≠ []) :
    Framed W bytes body → Framed W (line ++ crlf ++ data ++ crlf ++ bytes) (data ++ body) := by
  rintro ⟨front, last, hchunks, hlast, rfl⟩
  refine ⟨line ++ crlf ++ data ++ crlf ++ front, last, .cons hline hne hchunks, hlast, ?_⟩
  simp only [append_assoc]

/-- Chunks in front of a body are part of it. -/
theorem Chunks.framed {front content : List UInt8} (h : Chunks W front content)
    (hframed : Framed W bytes body) : Framed W (front ++ bytes) (content ++ body) := by
  induction h with
  | nil => exact hframed
  | cons hline hne _ ih =>
    have hcons := Framed.cons hline hne ih
    simp only [append_assoc] at hcons ⊢
    exact hcons

/-- A well-formed chunked body, all of whose sizes are less than `bound`. -/
def ChunkedBody (bound : Nat) : List UInt8 → List UInt8 → Prop :=
  Framed fun line n => SizeLine line n ∧ n < bound

/-- `usize` has 64 bits. -/
def usizeBound : Nat := 2 ^ 64

/-! ### Extensions have no line ends -/

/-- A byte that is not part of a line end. -/
def Inline (b : UInt8) : Prop := b ≠ 0x0d ∧ b ≠ 0x0a

instance (b : UInt8) : Decidable (Inline b) := inferInstanceAs (Decidable (_ ∧ _))

theorem inline_of {P : UInt8 → Prop} (hcr : ¬ P 0x0d) (hlf : ¬ P 0x0a) (h : P b) : Inline b := by
  constructor
  · rintro rfl
    exact hcr h
  · rintro rfl
    exact hlf h

theorem inline_of_isText (h : IsText b) : Inline b := inline_of (by decide) (by decide) h

theorem Blanks.inline (h : Blanks bytes) : ∀ b ∈ bytes, Inline b := fun b hb =>
  inline_of (P := fun b => isBws b = true) (by decide) (by decide) (h b hb)

theorem Token.inline (h : Token bytes) : ∀ b ∈ bytes, Inline b := fun b hb =>
  inline_of (P := IsTchar) (by decide) (by decide) (h.2 b hb)

theorem Quoted.inline (h : Quoted bytes) : ∀ b ∈ bytes, Inline b := by
  induction h with
  | nil =>
    rintro b ⟨⟩
  | text h _ _ _ ih => exact forall_mem_cons.mpr ⟨inline_of_isText h, ih⟩
  | pair h _ ih =>
    exact forall_mem_cons.mpr ⟨by decide, forall_mem_cons.mpr ⟨inline_of_isText h, ih⟩⟩

theorem ExtValue.inline (h : ExtValue bytes) : ∀ b ∈ bytes, Inline b := by
  cases h with
  | token h => exact h.inline
  | quoted h =>
    simp only [cons_append, forall_mem_cons, forall_mem_append]
    exact ⟨by decide, h.inline, by decide +kernel⟩

theorem ChunkExt.inline (h : ChunkExt ext) : ∀ b ∈ ext, Inline b := by
  induction h with
  | nil =>
    rintro b ⟨⟩
  | name h h' hname _ ih =>
    simp only [append_assoc, cons_append, forall_mem_cons, forall_mem_append]
    exact ⟨h.inline, by decide, h'.inline, hname.inline, ih⟩
  | value h h' hname hbefore hafter hvalue _ ih =>
    simp only [append_assoc, cons_append, forall_mem_cons, forall_mem_append]
    exact ⟨h.inline, by decide, h'.inline, hname.inline, hbefore.inline, by decide, hafter.inline, hvalue.inline, ih⟩

/-- A byte with which an extension can start. -/
def startsExt (b : UInt8) : Bool := b == 0x20 || b == 0x09 || b == 0x3b

theorem startsExt_head {bws : List UInt8} (h : Blanks bws) (rest : List UInt8) :
    ∃ b tail, bws ++ 0x3b :: rest = b :: tail ∧ startsExt b = true := by
  cases bws with
  | nil => exact ⟨0x3b, rest, rfl, rfl⟩
  | cons b bws =>
    refine ⟨b, bws ++ 0x3b :: rest, rfl, ?_⟩
    have hb := h b (mem_cons_self ..)
    simp only [isBws, Bool.or_eq_true] at hb
    simp only [startsExt, Bool.or_eq_true]
    exact .inl hb

theorem ChunkExt.starts (h : ChunkExt ext) : ext = [] ∨ ∃ b tail, ext = b :: tail ∧ startsExt b = true := by
  cases h with
  | nil => exact .inl rfl
  | name h h' hname _ | value h h' hname hbefore hafter hvalue _ =>
    simp only [append_assoc, cons_append]
    exact .inr (startsExt_head h _)

end YlongHttp.Body
