/-
The Huffman tables describe one prefix code.

`code` is the code of `huffmanEncodeTable` as bit strings. `prefixFree_code`
holds because the codewords, listed in the order of their bits, occupy disjoint
ranges. `pending` gives every state of the decoder the bits it stands for, named
by a symbol whose codeword they begin; `entryOk_decodeEntry` says that every entry of
`huffmanDecodeTable` steps between these bit strings.

The checks of whole tables run in the kernel, over tables packed into numbers.
-/

import YlongHttp.Huffman.Basic
import YlongHttp.Codec.Packed
import YlongHttp.Codec.PrefixCode

namespace YlongHttp.Huffman

open Codec List

/-- The bytes and, after them, the end-of-string symbol. -/
abbrev Symbol := Fin 257

instance neZero_symbols : NeZero 257 := ⟨by decide⟩

def width (a : Symbol) : Nat := (huffmanEncodeTable.getD a (0, 0)).1

def value (a : Symbol) : Nat := (huffmanEncodeTable.getD a (0, 0)).2

def code (a : Symbol) : List Bool := bits (width a) (value a)

def eos : Symbol := 256

def symbolOf (byte : UInt8) : Symbol := ⟨byte.toNat, by have := byte.toNat_lt; omega⟩

variable (a : Symbol)

@[simp] theorem length_code : (code a).length = width a := length_bits _ _

/-! ### The code table -/

theorem length_huffmanEncodeTable : huffmanEncodeTable.length = 257 := by
  decide +kernel

theorem huffmanEncodeTable_bounds : ∀ e ∈ huffmanEncodeTable, 5 ≤ e.1 ∧ e.1 ≤ 30 ∧ e.2 < 2 ^ e.1 := by
  decide +kernel

theorem entry_mem : huffmanEncodeTable.getD a (0, 0) ∈ huffmanEncodeTable := by
  have h : (a : Nat) < huffmanEncodeTable.length := by
    rw [length_huffmanEncodeTable]
    exact a.isLt
  rw [getD_eq_getElem _ _ h]
  exact getElem_mem h

theorem width_le : width a ≤ 30 :=
  (huffmanEncodeTable_bounds _ (entry_mem a)).2.1

theorem value_lt : value a < 2 ^ width a :=
  (huffmanEncodeTable_bounds _ (entry_mem a)).2.2

theorem value_lt_word : value a < 2 ^ 32 :=
  (value_lt a).trans_le (Nat.pow_le_pow_right (by decide) ((width_le a).trans (by decide)))

/-- A length and a bit string of that length in one word. -/
def word (len v : Nat) : Nat := len * 2 ^ 32 + v

/-- The code table in one number. -/
def codeWords : Nat := pack 40 (huffmanEncodeTable.map fun e => word e.1 e.2)

def codeWord (a : Nat) : Nat := digit 40 codeWords a

variable {len v s : Nat}

theorem word_inj {len' v' : Nat} (h : v < 2 ^ 32) (h' : v' < 2 ^ 32)
    (heq : word len v = word len' v') : len = len' ∧ v = v' := by
  unfold word at heq
  omega

theorem codeWord_eq : codeWord a = word (width a) (value a) := by
  have small : ∀ x ∈ huffmanEncodeTable.map fun e => word e.1 e.2, x < 2 ^ 40 := by
    intro x hx
    obtain ⟨e, he, rfl⟩ := mem_map.mp hx
    obtain ⟨-, hwidth, hvalue⟩ := huffmanEncodeTable_bounds e he
    have : 2 ^ e.1 ≤ 2 ^ 30 := Nat.pow_le_pow_right (by decide) hwidth
    unfold word
    omega
  rw [codeWord, codeWords, digit_pack small]
  have h : (a : Nat) < huffmanEncodeTable.length := by
    rw [length_huffmanEncodeTable]
    exact a.isLt
  rw [getD_eq_getElem _ _ (by simpa using h), getElem_map, width, value, getD_eq_getElem _ _ h]

/-! ### Prefix freedom -/

/-- The symbols in the order of their codewords. -/
def codeOrder : List Symbol :=
  [ 48,49,50,97,99,101,105,111,115,116,32,37,45,46,47,51,52,53,54,55,56,57,61,
    65,95,98,100,102,103,104,108,109,110,112,114,117,58,66,67,68,69,70,71,72,73,
    74,75,76,77,78,79,80,81,82,83,84,85,86,87,89,106,107,113,118,119,120,121,
    122,38,42,44,59,88,90,33,34,40,41,63,39,43,124,35,62,0,36,64,91,93,126,94,
    125,60,96,123,92,195,208,128,130,131,162,184,194,224,226,153,161,167,172,176,
    177,179,209,216,217,227,229,230,129,132,133,134,136,146,154,156,160,163,164,
    169,170,173,178,181,185,186,187,189,190,196,198,228,232,233,1,135,137,138,139,
    140,141,143,147,149,150,151,152,155,157,158,165,166,168,174,175,180,182,183,
    188,191,197,231,239,9,142,144,145,148,159,171,206,215,225,236,237,199,207,234,
    235,192,193,200,201,202,205,210,213,218,219,238,240,242,243,255,203,204,211,
    212,214,221,222,223,241,244,245,246,247,248,250,251,252,253,254,2,3,4,5,6,7,
    8,11,12,14,15,16,17,18,19,20,21,23,24,25,26,27,28,29,30,31,127,220,249,10,
    13, 22, 256 ]

def wordFirstLeaf (c : Nat) : Nat := (c % 2 ^ 32) * 2 ^ (30 - c / 2 ^ 32)

def wordEndLeaf (c : Nat) : Nat := (c % 2 ^ 32 + 1) * 2 ^ (30 - c / 2 ^ 32)

/-- The codeword of `a` ends before that of `b` starts. -/
def Before (a b : Symbol) : Prop := wordEndLeaf (codeWord a) ≤ wordFirstLeaf (codeWord b)

instance (a b : Symbol) : Decidable (Before a b) := Nat.decLe _ _

instance : IsTrans Symbol Before where
  trans _ _ _ hab hbc := hab.trans ((Nat.mul_le_mul_right _ (Nat.le_succ _)).trans hbc)

def separated : List Symbol → Bool
  | a :: b :: rest => decide (Before a b) && separated (b :: rest)
  | _ => true

theorem separated_codeOrder : separated codeOrder = true := by
  decide +kernel

theorem memberMask_codeOrder : memberMask (codeOrder.map Fin.val) = 2 ^ 257 - 1 := by
  decide +kernel

theorem mem_codeOrder : a ∈ codeOrder := by
  have h : (a : Nat) ∈ codeOrder.map Fin.val := by
    rw [← testBit_memberMask, memberMask_codeOrder, Nat.testBit_two_pow_sub_one]
    exact decide_eq_true a.isLt
  obtain ⟨b, hb, hval⟩ := mem_map.mp h
  rwa [← Fin.ext hval]

theorem isChain_of_separated : ∀ {l : List Symbol}, separated l = true → l.IsChain Before
  | [], _ => .nil
  | [a], _ => .singleton a
  | a :: b :: rest, h => by
    simp only [separated, Bool.and_eq_true, decide_eq_true_eq] at h
    exact .cons_cons h.1 (isChain_of_separated h.2)

theorem pairwise_codeOrder : codeOrder.Pairwise Before :=
  isChain_iff_pairwise.mp (isChain_of_separated separated_codeOrder)

theorem prefixFree_code : PrefixFree code := by
  have leaves : ∀ a : Symbol, wordFirstLeaf (codeWord a) = firstLeaf width value 30 a ∧
      wordEndLeaf (codeWord a) = endLeaf width value 30 a := by
    intro a
    have hword : word (width a) (value a) / 2 ^ 32 = width a ∧ word (width a) (value a) % 2 ^ 32 = value a := by
      have := value_lt_word a
      unfold word
      omega
    rw [codeWord_eq, wordFirstLeaf, wordEndLeaf, hword.1, hword.2]
    exact ⟨rfl, rfl⟩
  refine prefixFree_of_disjoint codeOrder mem_codeOrder value_lt width_le ?_
  refine pairwise_codeOrder.imp fun {a b} h => ?_
  rw [← (leaves a).2, ← (leaves b).1]
  exact h

/-! ### The states of the decoder -/

/-- For every state the number of bits it stands for, and a symbol whose codeword
begins with them. -/
def stateTable : List (Nat × Symbol) :=
  [ (0, 48), (1, 48), (2, 48), (3, 48), (4, 48), (4, 50), (3, 99), (4, 99), (4, 105), (2, 115),
    (3, 115), (4, 115), (4, 32), (5, 32), (5, 45), (3, 47), (4, 47), (5, 47), (5, 52), (4, 54),
    (5, 54), (5, 56), (1, 61), (2, 61), (3, 61), (4, 61), (5, 61), (5, 95), (4, 100), (5, 100),
    (5, 103), (3, 108), (4, 108), (5, 108), (5, 110), (4, 114), (5, 114), (5, 58), (6, 58), (6, 67),
    (2, 69), (3, 69), (4, 69), (5, 69), (6, 69), (6, 71), (5, 73), (6, 73), (6, 75), (4, 77),
    (5, 77), (6, 77), (6, 79), (5, 81), (6, 81), (6, 83), (3, 85), (4, 85), (5, 85), (6, 85),
    (6, 87), (5, 106), (6, 106), (6, 113), (4, 119), (5, 119), (6, 119), (6, 121), (5, 38), (6, 38),
    (7, 38), (7, 44), (6, 88), (7, 88), (7, 33), (8, 33), (9, 33), (9, 40), (8, 63), (9, 63),
    (10, 39), (9, 124), (10, 124), (11, 35), (10, 0), (11, 0), (12, 0), (12, 64), (11, 93), (12, 93),
    (12, 94), (13, 94), (13, 60), (14, 60), (14, 123), (15, 92), (16, 92), (17, 92), (18, 92),
    (18, 208), (19, 128), (17, 131), (18, 131), (19, 131), (19, 184), (18, 224), (19, 224),
    (19, 153), (20, 153), (20, 167), (16, 176), (17, 176), (18, 176), (19, 176), (20, 176),
    (20, 179), (19, 216), (20, 216), (20, 227), (18, 230), (19, 230), (20, 230), (21, 129),
    (20, 133), (21, 133), (21, 136), (19, 154), (20, 154), (21, 154), (21, 160), (20, 164),
    (21, 164), (21, 170), (17, 178), (18, 178), (19, 178), (20, 178), (21, 178), (21, 185),
    (20, 187), (21, 187), (21, 190), (19, 198), (20, 198), (21, 198), (21, 232), (20, 1), (21, 1),
    (22, 1), (22, 137), (21, 139), (22, 139), (22, 141), (18, 147), (19, 147), (20, 147), (21, 147),
    (22, 147), (22, 150), (21, 152), (22, 152), (22, 157), (20, 165), (21, 165), (22, 165),
    (22, 168), (21, 175), (22, 175), (22, 182), (19, 188), (20, 188), (21, 188), (22, 188),
    (22, 197), (21, 239), (22, 239), (23, 9), (22, 144), (23, 144), (23, 148), (20, 171), (21, 171),
    (22, 171), (23, 171), (23, 215), (22, 236), (23, 236), (23, 199), (24, 199), (24, 234),
    (21, 192), (22, 192), (23, 192), (24, 192), (25, 192), (25, 200), (24, 202), (25, 202),
    (25, 210), (23, 218), (24, 218), (25, 218), (25, 238), (24, 242), (25, 242), (25, 255),
    (26, 203), (22, 211), (23, 211), (24, 211), (25, 211), (26, 211), (26, 214), (25, 222),
    (26, 222), (26, 241), (24, 245), (25, 245), (26, 245), (26, 247), (25, 250), (26, 250),
    (26, 252), (23, 254), (24, 254), (25, 254), (26, 254), (27, 2), (26, 4), (27, 4), (27, 6),
    (25, 8), (26, 8), (27, 8), (27, 12), (26, 15), (27, 15), (27, 17), (24, 19), (25, 19), (26, 19),
    (27, 19), (27, 21), (26, 24), (27, 24), (27, 26), (25, 28), (26, 28), (27, 28), (27, 30),
    (26, 127), (27, 127), (27, 249), (28, 10), (29, 10), (29, 22) ]

def pendingWidth (s : Nat) : Nat := (stateTable.getD s (0, 0)).1

def pendingSymbol (s : Nat) : Symbol := (stateTable.getD s (0, 0)).2

def pendingValue (s : Nat) : Nat :=
  value (pendingSymbol s) >>> (width (pendingSymbol s) - pendingWidth s)

/-- The bits of an unfinished codeword that a state stands for. -/
def pending (s : Nat) : List Bool := bits (pendingWidth s) (pendingValue s)

/-- The states in one number. -/
def stateWords : Nat :=
  pack 40 (stateTable.map fun e =>
    word e.1 ((codeWord e.2 % 2 ^ 32) >>> (codeWord e.2 / 2 ^ 32 - e.1)))

def stateWord (s : Nat) : Nat := digit 40 stateWords s

theorem length_stateTable : stateTable.length = 256 := by
  decide +kernel

/-- The bits of a state are a proper beginning of a codeword. -/
theorem stateTable_lt : ∀ e ∈ stateTable, e.1 < codeWord e.2 / 2 ^ 32 := by
  decide +kernel

theorem codeWord_div : codeWord a / 2 ^ 32 = width a := by
  have := value_lt_word a
  rw [codeWord_eq, word]
  omega

theorem codeWord_mod : codeWord a % 2 ^ 32 = value a := by
  have := value_lt_word a
  rw [codeWord_eq, word]
  omega

theorem state_mem (hs : s < 256) : stateTable.getD s (0, 0) ∈ stateTable := by
  rw [getD_eq_getElem _ _ (by rwa [length_stateTable])]
  exact getElem_mem _

theorem pendingWidth_lt (hs : s < 256) : pendingWidth s < width (pendingSymbol s) := by
  rw [← codeWord_div]
  exact stateTable_lt _ (state_mem hs)

theorem pendingValue_lt (hs : s < 256) : pendingValue s < 2 ^ pendingWidth s := by
  have hlt := pendingWidth_lt hs
  rw [pendingValue, Nat.shiftRight_eq_div_pow, Nat.div_lt_iff_lt_mul (Nat.two_pow_pos _),
    ← pow_add, Nat.add_sub_cancel' hlt.le]
  exact value_lt _

theorem pendingValue_lt_word (s : Nat) : pendingValue s < 2 ^ 32 :=
  (Nat.shiftRight_le _ _).trans_lt (value_lt_word _)

theorem stateWord_eq (hs : s < 256) : stateWord s = word (pendingWidth s) (pendingValue s) := by
  have small : ∀ x ∈ stateTable.map (fun e =>
      word e.1 ((codeWord e.2 % 2 ^ 32) >>> (codeWord e.2 / 2 ^ 32 - e.1))), x < 2 ^ 40 := by
    intro x hx
    obtain ⟨e, he, rfl⟩ := mem_map.mp hx
    have hwidth := stateTable_lt e he
    rw [codeWord_div] at hwidth
    have hmax := width_le e.2
    have hvalue : (codeWord e.2 % 2 ^ 32) >>> (codeWord e.2 / 2 ^ 32 - e.1) < 2 ^ 32 :=
      (Nat.shiftRight_le _ _).trans_lt (Nat.mod_lt _ (by decide))
    unfold word
    omega
  have hlen : s < stateTable.length := by rwa [length_stateTable]
  rw [stateWord, stateWords, digit_pack small, getD_eq_getElem _ _ (by simpa using hlen),
    getElem_map, codeWord_div, codeWord_mod, pendingValue, pendingSymbol, pendingWidth,
    getD_eq_getElem _ _ hlen]

/-- No codeword is complete in the bits a state stands for. -/
theorem unfinished_pending (hs : s < 256) : Unfinished code (pending s) := by
  intro a ha
  have hlt := pendingWidth_lt hs
  have hpre : pending s <+: code (pendingSymbol s) := by
    have hsplit := bits_split (pendingWidth s) (width (pendingSymbol s) - pendingWidth s)
      (value (pendingSymbol s))
    rw [Nat.add_sub_cancel' hlt.le] at hsplit
    exact ⟨_, hsplit.symm⟩
  have hsame := prefixFree_code a _ (ha.trans hpre)
  have hlen := ha.length_le
  rw [length_code, pending, length_bits, hsame] at hlen
  omega

/-! ### The decoding table -/

/-- What an entry of the decoding table says, for a state that stands for `len`
bits of value `v` and for the four bits `n`. -/
def entryOk (len v n : Nat) (e : Nat × Nat × Nat) : Bool :=
  if e.2.2 &&& 0x4 = 0x4 then
    -- The bits read so far begin with the end-of-string symbol.
    decide (30 ≤ len + 4) && decide ((v * 16 + n) >>> (len + 4 - 30) = codeWord 256 % 2 ^ 32)
  else if e.2.2 &&& 0x2 = 0x2 then
    decide (e.1 < 256 ∧ e.2.1 < 256) && decide (codeWord e.2.1 / 2 ^ 32 ≤ len + 4) &&
      decide ((v * 16 + n) >>> (len + 4 - codeWord e.2.1 / 2 ^ 32) = codeWord e.2.1 % 2 ^ 32) &&
      decide (stateWord e.1 = word (len + 4 - codeWord e.2.1 / 2 ^ 32)
        ((v * 16 + n) % 2 ^ (len + 4 - codeWord e.2.1 / 2 ^ 32)))
  else decide (e.1 < 256) && decide (stateWord e.1 = word (len + 4) (v * 16 + n))

/-- The `maybe_eos` flag of an entry: the bits of the next state are one to seven
ones. -/
def flagOk (e : Nat × Nat × Nat) : Bool :=
  decide (e.2.2 &&& 0x4 = 0x4) ||
    (decide (e.2.2 &&& 0x1 = 0x1) ==
      decide (0 < stateWord e.1 / 2 ^ 32 ∧ stateWord e.1 / 2 ^ 32 < 8 ∧
        stateWord e.1 % 2 ^ 32 = 2 ^ (stateWord e.1 / 2 ^ 32) - 1))

def rowOk (len v : Nat) : Nat → List (Nat × Nat × Nat) → Bool
  | _, [] => true
  | n, e :: es => entryOk len v n e && flagOk e && rowOk len v (n + 1) es

def tableOk : Nat → List (List (Nat × Nat × Nat)) → Bool
  | _, [] => true
  | s, row :: rows =>
    decide (row.length = 16) && rowOk (stateWord s / 2 ^ 32) (stateWord s % 2 ^ 32) 0 row &&
      tableOk (s + 1) rows

theorem length_huffmanDecodeTable : huffmanDecodeTable.length = 256 := by
  decide +kernel

theorem tableOk_huffmanDecodeTable : tableOk 0 huffmanDecodeTable = true := by
  decide +kernel

theorem rowOk_get : ∀ {row : List (Nat × Nat × Nat)} {n i : Nat} {e : Nat × Nat × Nat}, rowOk len v n row = true →
      row[i]? = some e → entryOk len v (n + i) e = true ∧ flagOk e = true
  | [], n, i, e, _, h => by simp at h
  | e' :: es, n, 0, e, hrow, h => by
    simp only [rowOk, Bool.and_eq_true] at hrow
    simp only [getElem?_cons_zero, Option.some.injEq] at h
    subst h
    exact hrow.1
  | e' :: es, n, i + 1, e, hrow, h => by
    simp only [rowOk, Bool.and_eq_true] at hrow
    have := rowOk_get hrow.2 h
    rwa [show n + 1 + i = n + (i + 1) by omega] at this

theorem tableOk_get : ∀ {rows : List (List (Nat × Nat × Nat))} {s i : Nat} {row : List (Nat × Nat × Nat)},
      tableOk s rows = true → rows[i]? = some row →
      row.length = 16 ∧ rowOk (stateWord (s + i) / 2 ^ 32) (stateWord (s + i) % 2 ^ 32) 0 row = true
  | [], s, i, row, _, h => by simp at h
  | row' :: rows, s, 0, row, htable, h => by
    simp only [tableOk, Bool.and_eq_true, decide_eq_true_eq] at htable
    simp only [getElem?_cons_zero, Option.some.injEq] at h
    subst h
    exact htable.1
  | row' :: rows, s, i + 1, row, htable, h => by
    simp only [tableOk, Bool.and_eq_true] at htable
    have := tableOk_get htable.2 h
    rwa [show s + 1 + i = s + (i + 1) by omega] at this

/-- Every entry of the decoding table is right. -/
theorem entryOk_decodeEntry {n : Nat} (hs : s < 256) (hn : n < 16) :
    entryOk (pendingWidth s) (pendingValue s) n (decodeEntry s n) = true ∧ flagOk (decodeEntry s n) = true := by
  have hrow : s < huffmanDecodeTable.length := by rwa [length_huffmanDecodeTable]
  obtain ⟨hlen, hok⟩ := tableOk_get tableOk_huffmanDecodeTable (getElem?_eq_getElem hrow)
  have hvalue := pendingValue_lt_word s
  have hdiv : stateWord s / 2 ^ 32 = pendingWidth s := by
    rw [stateWord_eq hs, word]
    omega
  have hmod : stateWord s % 2 ^ 32 = pendingValue s := by
    rw [stateWord_eq hs, word]
    omega
  rw [zero_add, hdiv, hmod] at hok
  have hentry : n < huffmanDecodeTable[s].length := by
    rw [hlen]
    exact hn
  have hdecode : decodeEntry s n = huffmanDecodeTable[s][n] := by
    rw [decodeEntry, getD_eq_getElem _ _ hrow, getD_eq_getElem _ _ hentry]
  have hget := rowOk_get hok (getElem?_eq_getElem hentry)
  rw [zero_add] at hget
  rw [hdecode]
  exact hget

end YlongHttp.Huffman
