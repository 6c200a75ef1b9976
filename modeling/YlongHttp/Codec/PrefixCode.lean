/-
Prefix codes and the automata that decode them.

A code assigns a bit string to every symbol. In a prefix-free code a bit string
has at most one reading as codewords followed by a rest in which no further
codeword is complete (`PrefixFree.decode_unique`).

A decoder reads its input in chunks of bits and keeps the bits of an unfinished
codeword in its state. `Tracks` is what one step of its table must satisfy: the
bits pending before the step and the bits read are the codewords emitted and the
bits pending afterwards, and a step is refused only at the end-of-string symbol.
`Tracks.run_of_reading` lifts that to whole inputs.
-/

import YlongHttp.Codec.Bits

namespace YlongHttp.Codec

open List

variable {α : Type} {code : α → List Bool}

/-- No codeword begins another one. -/
def PrefixFree (code : α → List Bool) : Prop :=
  ∀ a b, code a <+: code b → a = b

/-- No codeword is complete at the start of `p`. -/
def Unfinished (code : α → List Bool) (p : List Bool) : Prop :=
  ∀ a, ¬ code a <+: p

namespace PrefixFree

/-- Two codewords that begin the same bit string are the same. -/
theorem eq_of_append_eq (free : PrefixFree code) {a b : α} {r r' : List Bool}
    (h : code a ++ r = code b ++ r') : a = b ∧ r = r' := by
  have ha : code a <+: code b ++ r' := h ▸ prefix_append _ _
  have hb : code b <+: code b ++ r' := prefix_append _ _
  have hab : a = b := by
    rcases prefix_or_prefix_of_prefix ha hb with h' | h'
    · exact free a b h'
    · exact (free b a h').symm
  subst hab
  exact ⟨rfl, append_cancel_left h⟩

/-- Codewords that begin a reading of `xs` are the first symbols of `xs`. -/
theorem split_reading (free : PrefixFree code) {pad : List Bool} (hpad : Unfinished code pad) :
    ∀ {out xs : List α} {r : List Bool}, out.flatMap code ++ r = xs.flatMap code ++ pad →
      ∃ rest, xs = out ++ rest ∧ r = rest.flatMap code ++ pad
  | [], xs, r, h => ⟨xs, rfl, by simpa using h⟩
  | a :: out, [], r, h => by
    refine absurd ⟨out.flatMap code ++ r, ?_⟩ (hpad a)
    simpa [flatMap_cons] using h
  | a :: out, x :: xs, r, h => by
    rw [flatMap_cons, flatMap_cons, append_assoc, append_assoc] at h
    obtain ⟨rfl, htail⟩ := free.eq_of_append_eq h
    obtain ⟨rest, rfl, hr⟩ := split_reading free hpad htail
    exact ⟨rest, rfl, hr⟩

/-- A bit string has one reading. -/
theorem decode_unique (free : PrefixFree code) {xs ys : List α} {p q : List Bool}
    (hp : Unfinished code p) (hq : Unfinished code q)
    (h : xs.flatMap code ++ p = ys.flatMap code ++ q) : xs = ys ∧ p = q := by
  obtain ⟨rest, rfl, hrest⟩ := free.split_reading hq h
  cases rest with
  | nil => exact ⟨by simp, by simpa using hrest⟩
  | cons a rest =>
    refine absurd ⟨rest.flatMap code ++ q, ?_⟩ (hp a)
    rw [hrest, flatMap_cons, append_assoc]

end PrefixFree

/-! ### Prefix freedom from disjoint intervals -/

section Intervals

variable (width value : α → Nat) (depth : Nat)

/-- The first leaf of the full binary tree of depth `depth` below a codeword. -/
def firstLeaf (a : α) : Nat := value a * 2 ^ (depth - width a)

/-- The leaf after the last one below a codeword. -/
def endLeaf (a : α) : Nat := (value a + 1) * 2 ^ (depth - width a)

variable {width value depth}

/-- The leaves below a codeword that extends another one lie below the shorter one. -/
theorem firstLeaf_of_prefix {a b : α} (hv : ∀ a, value a < 2 ^ width a) (hw : ∀ a, width a ≤ depth)
    (h : bits (width a) (value a) <+: bits (width b) (value b)) :
    firstLeaf width value depth a ≤ firstLeaf width value depth b ∧
      firstLeaf width value depth b < endLeaf width value depth a := by
  obtain ⟨r, hr⟩ := h
  have hlen : width b = width a + r.length := by
    have := congrArg length hr
    simpa using this.symm
  have hdecomp : value b = value a * 2 ^ r.length + value b % 2 ^ r.length := by
    have hsplit := bits_append (width a) r.length (value b / 2 ^ r.length)
      (Nat.mod_lt (value b) (Nat.two_pow_pos r.length))
    rw [Nat.div_add_mod', ← hlen, ← hr] at hsplit
    have hhigh := (append_inj hsplit (by simp)).1
    have hdiv : value b / 2 ^ r.length < 2 ^ width a := by
      rw [Nat.div_lt_iff_lt_mul (Nat.two_pow_pos _), ← pow_add, ← hlen]
      exact hv b
    have := bits_inj (hv a) hdiv hhigh
    rw [this, Nat.div_add_mod']
  have hpow : 2 ^ (depth - width a) = 2 ^ r.length * 2 ^ (depth - width b) := by
    rw [← pow_add]
    congr 1
    have := hw b
    omega
  unfold firstLeaf endLeaf
  rw [hpow, ← mul_assoc, ← mul_assoc]
  constructor
  · exact Nat.mul_le_mul_right _ (by omega)
  · refine (Nat.mul_lt_mul_right (Nat.two_pow_pos _)).mpr ?_
    rw [add_mul]
    omega

/-- Codewords listed so that each ends before the next one starts are prefix
free. -/
theorem prefixFree_of_disjoint (order : List α) (hmem : ∀ a, a ∈ order)
    (hv : ∀ a, value a < 2 ^ width a) (hw : ∀ a, width a ≤ depth) (hsep : order.Pairwise fun a b =>
      endLeaf width value depth a ≤ firstLeaf width value depth b) :
    PrefixFree fun a => bits (width a) (value a) := by
  have hlt : ∀ a, firstLeaf width value depth a < endLeaf width value depth a := fun a =>
    (Nat.mul_lt_mul_right (Nat.two_pow_pos _)).mpr (Nat.lt_succ_self _)
  let Apart (a b : α) : Prop := endLeaf width value depth a ≤ firstLeaf width value depth b ∨
    endLeaf width value depth b ≤ firstLeaf width value depth a
  have : Std.Symm Apart := ⟨fun _ _ h => h.symm⟩
  have apart : order.Pairwise Apart := hsep.imp Or.inl
  intro a b h
  obtain ⟨hle, hin⟩ := firstLeaf_of_prefix hv hw h
  by_contra hne
  have hb := hlt b
  rcases apart.forall (hmem a) (hmem b) hne with hside | hside <;> omega

end Intervals

/-! ### Decoding automata -/

section Automaton

variable {S C : Type} (step : S → C → Option (S × List α))

/-- Feed chunks to a decoder; `none` once a step refuses its chunk. -/
def runChunks : S → List C → Option (S × List α)
  | s, [] => some (s, [])
  | s, c :: cs =>
    match step s c with
    | none => none
    | some (s', out) => (runChunks s' cs).map fun r => (r.1, out ++ r.2)

/-- What a decoding table says about a code: `pending` are the bits a state has
read of an unfinished codeword, and `eos` is the symbol no string contains. -/
structure Tracks (code : α → List Bool) (eos : α) (chunkBits : C → List Bool)
    (pending : S → List Bool) : Prop where
  unfinished : ∀ s, Unfinished code (pending s)
  accepts : ∀ {s c s' out}, step s c = some (s', out) → pending s ++ chunkBits c = out.flatMap code ++ pending s'
  refuses : ∀ {s c}, step s c = none → code eos <+: pending s ++ chunkBits c

variable {step} {eos : α} {chunkBits : C → List Bool} {pending : S → List Bool}

/-- What a run has emitted and keeps pending is what it has read. -/
theorem Tracks.run_sound (tracks : Tracks step code eos chunkBits pending) :
    ∀ {cs : List C} {s s' : S} {out : List α}, runChunks step s cs = some (s', out) →
      pending s ++ cs.flatMap chunkBits = out.flatMap code ++ pending s'
  | [], s, s', out, h => by
    simp only [runChunks, Option.some.injEq, Prod.mk.injEq] at h
    obtain ⟨rfl, rfl⟩ := h
    simp
  | c :: cs, s, s', out, h => by
    cases hstep : step s c with
    | none => simp [runChunks, hstep] at h
    | some r =>
      obtain ⟨mid, first⟩ := r
      simp only [runChunks, hstep, Option.map_eq_some_iff, Prod.mk.injEq] at h
      obtain ⟨⟨last, rest⟩, hrun, rfl, rfl⟩ := h
      rw [flatMap_cons, ← append_assoc, tracks.accepts hstep, append_assoc,
        tracks.run_sound hrun, flatMap_append, append_assoc]

/-- A run over a reading of `xs` that does not contain the end-of-string symbol
emits `xs` and keeps the padding pending. -/
theorem Tracks.run_of_reading (tracks : Tracks step code eos chunkBits pending)
    (free : PrefixFree code) {pad : List Bool} (hpad : Unfinished code pad) :
    ∀ {cs : List C} {s : S} {xs : List α}, eos ∉ xs → pending s ++ cs.flatMap chunkBits = xs.flatMap code ++ pad →
      ∃ s', runChunks step s cs = some (s', xs) ∧ pending s' = pad
  | [], s, xs, _, h => by
    have h' : ([] : List α).flatMap code ++ pending s = xs.flatMap code ++ pad := by simpa using h
    obtain ⟨rfl, hp⟩ := free.decode_unique (tracks.unfinished s) hpad h'
    exact ⟨s, rfl, hp⟩
  | c :: cs, s, xs, heos, h => by
    rw [flatMap_cons, ← append_assoc] at h
    cases hstep : step s c with
    | none =>
      -- A refused step would need the end-of-string symbol in front of the reading.
      obtain ⟨r, hr⟩ := tracks.refuses hstep
      rw [← hr, append_assoc] at h
      have h' : [eos].flatMap code ++ (r ++ cs.flatMap chunkBits) = xs.flatMap code ++ pad := by simpa using h
      obtain ⟨rest, rfl, -⟩ := free.split_reading hpad h'
      exact absurd (by simp) heos
    | some r =>
      obtain ⟨mid, first⟩ := r
      rw [tracks.accepts hstep, append_assoc] at h
      obtain ⟨rest, rfl, hrest⟩ := free.split_reading hpad h
      obtain ⟨s', hrun, hs'⟩ := tracks.run_of_reading free hpad
        (fun hmem => heos (mem_append_right _ hmem)) hrest
      exact ⟨s', by simp [runChunks, hstep, hrun], hs'⟩

/-- A run emits only what its steps emit. -/
theorem run_mem {quiet : α → Prop} (hstep : ∀ {s c s' out}, step s c = some (s', out) → ∀ a ∈ out, quiet a) :
    ∀ {cs : List C} {s s' : S} {out : List α}, runChunks step s cs = some (s', out) → ∀ a ∈ out, quiet a
  | [], s, s', out, h => by
    obtain ⟨-, rfl⟩ := h
    simp
  | c :: cs, s, s', out, h => by
    cases hfirst : step s c with
    | none => simp [runChunks, hfirst] at h
    | some r =>
      simp only [runChunks, hfirst, Option.map_eq_some_iff, Prod.mk.injEq] at h
      obtain ⟨⟨last, rest⟩, hrun, rfl, rfl⟩ := h
      intro a ha
      rcases mem_append.mp ha with ha | ha
      · exact hstep hfirst a ha
      · exact run_mem hstep hrun a ha

/-- A run whose steps never emit a symbol has not read the symbol. -/
theorem Tracks.not_read (tracks : Tracks step code eos chunkBits pending) (free : PrefixFree code) {x : α}
    (hstep : ∀ {s c s' out}, step s c = some (s', out) → ∀ a ∈ out, a ≠ x) {cs : List C} {s s' : S}
    {out : List α} (hrun : runChunks step s cs = some (s', out)) (xs : List α) (rest : List Bool) :
    pending s ++ cs.flatMap chunkBits ≠ xs.flatMap code ++ (code x ++ rest) := by
  intro hread
  have hreading : (xs ++ [x]).flatMap code ++ rest = out.flatMap code ++ pending s' := by
    rw [← tracks.run_sound hrun, hread, flatMap_append, append_assoc, flatMap_singleton]
  obtain ⟨more, rfl, -⟩ := free.split_reading (tracks.unfinished s') hreading
  exact run_mem hstep hrun x (by simp) rfl

end Automaton

end YlongHttp.Codec
