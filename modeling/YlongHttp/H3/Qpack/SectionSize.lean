/-
What the size limit of field sections bounds.

Every line but an indexed one is charged to the size of its section before it is taken, and a
section that exceeds the limit is refused. So the limit bounds the charged lines of a
delivered section, and since a section that is delivered is also delivered under the smallest
limit that its charged lines allow (`deliver_limit`), it bounds all lines exactly if
none of them is an indexed one: `total_le_iff_no_indexed`.
-/

import YlongHttp.H3.Qpack.Section

namespace YlongHttp.H3.Qpack

open Rust Outcome

/-! ### Sizes of lines -/

/-- The size of all lines of a section. -/
def totalSize (lines : List (Representation × Field)) : Nat := (lines.map fun l => l.2.size).sum

def chargedSize (lines : List (Representation × Field)) : Nat := (lines.map fun l => l.1.charge l.2).sum

theorem chargedSize_append (lines : List (Representation × Field)) (l : Representation × Field) :
    chargedSize (lines ++ [l]) = chargedSize lines + l.1.charge l.2 := by
  simp [chargedSize]

variable {lines : List (Representation × Field)}

theorem totalSize_eq_charged (h : ∀ l ∈ lines, l.1.isIndexed = false) : totalSize lines = chargedSize lines := by
  unfold totalSize chargedSize
  congr 1
  apply List.map_congr_left
  intro l hl
  rw [Representation.charge, h l hl]
  rfl

theorem charge_le (l : Representation × Field) : l.1.charge l.2 ≤ l.2.size := by
  unfold Representation.charge
  split
  · exact Nat.zero_le _
  · exact le_rfl

/-- An indexed line makes the difference. -/
theorem charged_lt_total : ∀ {lines : List (Representation × Field)},
    (∃ l ∈ lines, l.1.isIndexed = true) → chargedSize lines < totalSize lines
  | [], ⟨l, hl, _⟩ => absurd hl List.not_mem_nil
  | l :: lines, h => by
    have hle : chargedSize lines ≤ totalSize lines := by
      apply List.sum_le_sum
      intro l _
      exact charge_le l
    rw [chargedSize, totalSize, List.map_cons, List.map_cons, List.sum_cons, List.sum_cons]
    by_cases hindexed : l.1.isIndexed = true
    · have hpos : 0 < l.2.size := Nat.succ_pos _
      have hzero : l.1.charge l.2 = 0 := by rw [Representation.charge, hindexed]; rfl
      unfold chargedSize totalSize at hle
      omega
    · obtain ⟨l', hl', hl'indexed⟩ := h
      have hmem : l' ∈ lines := by
        rcases List.mem_cons.mp hl' with rfl | hmem
        · exact absurd hl'indexed hindexed
        · exact hmem
      have hlt := charged_lt_total ⟨l', hmem, hl'indexed⟩
      have := charge_le l
      unfold chargedSize totalSize at hlt
      omega

/-! ### Limits -/

/-- The lines within a limit: the size is what they are charged. -/
structure Charged (limit : Nat) (lines : FiledLines) : Prop where
  size : lines.headerSize = chargedSize lines.decoded
  le : lines.headerSize ≤ limit

namespace QpackDecoder

/-- The same section under another limit. -/
def limited (limit : Nat) (s : QpackDecoder × ReprMessage) : QpackDecoder × ReprMessage :=
  (s.1.setMaxFieldSectionSize limit, s.2)

/-- What a successful part of a section does to its size, and that it only needs a limit for
the size that it leaves. -/
structure Grows (s s' : QpackDecoder × ReprMessage) : Prop where
  limit : s'.1.maxFieldSectionSize = s.1.maxFieldSectionSize
  le : s.2.lines.headerSize ≤ s'.2.lines.headerSize
  charged : Charged s.1.maxFieldSectionSize s.2.lines → Charged s.1.maxFieldSectionSize s'.2.lines

theorem Grows.refl (s : QpackDecoder × ReprMessage) : Grows s s := ⟨rfl, le_rfl, id⟩

variable {s s' : QpackDecoder × ReprMessage} {base limit streamId : Nat} {state : FieldDecodeState} {buf : List UInt8}
  {d : QpackDecoder}

theorem Grows.trans {mid : QpackDecoder × ReprMessage} (h : Grows s mid) (h' : Grows mid s') : Grows s s' where
  limit := h'.limit.trans h.limit
  le := le_trans h.le h'.le
  charged := fun hs => h.limit ▸ h'.charged (h.limit.symm ▸ h.charged hs)

variable {line : Representation} {u : Unit} {d' : QpackDecoder}

section

variable (hline : line.isPrefix = false) (h : searchLine base line s = .ok u s')

include hline h

theorem grows_searchLine : Grows s s' := by
  obtain ⟨lines, hsearch, rfl⟩ := searchLine_eq_ok.mp h
  obtain ⟨f, -, htake⟩ := (search_eq_ok hline).mp hsearch
  obtain ⟨parts, -, rfl, hfits⟩ := take_eq_ok.mp htake
  refine ⟨rfl, Nat.le_add_right _ _, fun hcharged => ⟨?_, ?_⟩⟩
  · simp only [FiledLines.taken, chargedSize_append, hcharged.size]
  · cases hindexed : line.isIndexed with
    | true =>
      simp only [FiledLines.taken, Representation.charge, hindexed, ↓reduceIte, add_zero]
      exact hcharged.le
    | false => exact (hfits hindexed).2

theorem limited_searchLine (hlimit : s'.2.lines.headerSize ≤ limit) :
    searchLine base line (limited limit s) = .ok u (limited limit s') := by
  obtain ⟨lines, hsearch, rfl⟩ := searchLine_eq_ok.mp h
  obtain ⟨f, hfind, htake⟩ := (search_eq_ok hline).mp hsearch
  obtain ⟨parts, hparts, hlines, hfits⟩ := take_eq_ok.mp htake
  have hfind' : Searcher.find ⟨limit, s.1.table, base⟩ line = .found f := by
    rw [← hfind]
    cases line <;> rfl
  have htake' : Searcher.take ⟨limit, s.1.table, base⟩ line f s.2.lines = .ok u lines :=
    take_eq_ok.mpr ⟨parts, hparts, hlines, fun hindexed => ⟨(hfits hindexed).1, hlimit⟩⟩
  exact searchLine_eq_ok.mpr ⟨lines, (search_eq_ok hline).mpr ⟨f, hfind', htake'⟩, rfl⟩

end

theorem grows_readPrefix {encoded deltaBase : Nat} {signal : Bool} {rest : List UInt8}
        (h : readPrefix streamId encoded signal deltaBase rest s = .ok state s') :
    Grows s s' ∧ ∀ limit, readPrefix streamId encoded signal deltaBase rest (limited limit s) =
      .ok state (limited limit s') := by
  obtain ⟨required, base, hrequired, hbase, hcase⟩ := readPrefix_eq_ok.mp h
  constructor
  · rcases hcase with ⟨-, -, rfl⟩ | ⟨-, -, -, rfl⟩
    · exact ⟨rfl, le_rfl, id⟩
    · exact ⟨rfl, le_rfl, id⟩
  · intro limit
    refine readPrefix_eq_ok.mpr ⟨required, base, hrequired, hbase, ?_⟩
    rcases hcase with ⟨hle, hstate, rfl⟩ | ⟨hlt, hroom, hstate, rfl⟩
    · exact .inl ⟨hle, hstate, rfl⟩
    · exact .inr ⟨hlt, hroom, hstate, rfl⟩

theorem Decodes.grows (h : Decodes streamId buf base s state s') : Grows s s' := by
  induction h with
  | ends hread => exact ⟨rfl, le_rfl, id⟩
  | line hread hline hsearch _ ih =>
    have hsame : Grows _ _ := grows_searchLine hline hsearch
    exact ⟨ih.limit.trans hsame.limit, le_trans hsame.le ih.le, (hsame.trans ih).charged⟩
  | blocks hread hstart =>
    have hsame := (grows_readPrefix hstart).1
    exact ⟨hsame.limit, hsame.le, hsame.charged⟩
  | starts hread hstart _ ih =>
    have hsame := (grows_readPrefix hstart).1
    exact ⟨ih.limit.trans hsame.limit, le_trans hsame.le ih.le, (hsame.trans ih).charged⟩

theorem Decodes.limited (h : Decodes streamId buf base s state s') (hlimit : s'.2.lines.headerSize ≤ limit) :
    Decodes streamId buf base (limited limit s) state (limited limit s') := by
  induction h with
  | ends hread => exact .ends hread
  | line hread hline hsearch hrest ih =>
    have hmid := limited_searchLine hline hsearch (le_trans hrest.grows.le hlimit)
    exact .line hread hline hmid (ih hlimit)
  | blocks hread hstart => exact .blocks hread ((grows_readPrefix hstart).2 limit)
  | starts hread hstart hrest ih => exact .starts hread ((grows_readPrefix hstart).2 limit) (ih hlimit)

theorem Buffered.grows (h : Buffered streamId buf s state s') : Grows s s' := by
  rcases h with ⟨-, -, rfl⟩ | ⟨-, h⟩
  · exact Grows.refl _
  · exact h.grows

theorem Buffered.limited (h : Buffered streamId buf s state s') (hlimit : s'.2.lines.headerSize ≤ limit) :
    Buffered streamId buf (limited limit s) state (limited limit s') := by
  rcases h with ⟨hbuf, hstate, rfl⟩ | ⟨hbuf, h⟩
  · exact .inl ⟨hbuf, hstate, rfl⟩
  · exact .inr ⟨hbuf, h.limited hlimit⟩

theorem grows_decodeMessage (h : decodeMessage buf streamId s = .ok state s') :
    Grows s s' ∧ ∀ limit, s'.2.lines.headerSize ≤ limit →
      decodeMessage buf streamId (limited limit s) = .ok state (limited limit s') := by
  rcases decodeMessage_eq_ok.mp h with ⟨hremaining, hbuf⟩ | ⟨vec, first, mid, hremaining, hvec, hbuf⟩
  · refine ⟨hbuf.grows, fun limit hlimit => decodeMessage_eq_ok.mpr (.inl ⟨hremaining, ?_⟩)⟩
    exact hbuf.limited hlimit
  · have htaken : Grows s (s.1, { s.2 with remaining := none }) := ⟨rfl, le_rfl, id⟩
    refine ⟨htaken.trans (hvec.grows.trans hbuf.grows), fun limit hlimit => ?_⟩
    refine decodeMessage_eq_ok.mpr (.inr ⟨vec, first, QpackDecoder.limited limit mid, hremaining, ?_, ?_⟩)
    · exact hvec.limited (le_trans hbuf.grows.le hlimit)
    · exact hbuf.limited hlimit

/-! ### Calls under another limit -/

/-- The lines of a stream that has not been finished. -/
def linesOf (d : QpackDecoder) (streamId : Nat) : FiledLines := ((d.streams.lookup streamId).getD .new).lines

theorem decodeRepr_grows (h : d.decodeRepr buf streamId = .ok state d') :
    d'.maxFieldSectionSize = d.maxFieldSectionSize ∧
      (d.linesOf streamId).headerSize ≤ (d'.linesOf streamId).headerSize ∧
      (Charged d.maxFieldSectionSize (d.linesOf streamId) → Charged d.maxFieldSectionSize (d'.linesOf streamId)) ∧
      ∀ limit, (d'.linesOf streamId).headerSize ≤ limit → (d.setMaxFieldSectionSize limit).decodeRepr buf streamId =
          .ok state (d'.setMaxFieldSectionSize limit) := by
  obtain ⟨hblocked, s', hmessage, rfl⟩ := decodeRepr_eq_ok.mp h
  obtain ⟨hgrows, hlimited⟩ := grows_decodeMessage hmessage
  have hlines : linesOf { s'.1 with streams := s'.1.streams.insert streamId s'.2 } streamId = s'.2.lines := by
    simp only [linesOf, AList.lookup_insert, Option.getD_some]
  rw [hlines]
  refine ⟨hgrows.limit, hgrows.le, hgrows.charged, fun limit hlimit => ?_⟩
  exact decodeRepr_eq_ok.mpr ⟨hblocked, _, hlimited limit hlimit, rfl⟩

theorem insLoop_limited (limit : Nat) : ∀ {fuel : Nat} {r : Reading InstDecodeState} {d d' : QpackDecoder} {u : Unit},
    insLoop fuel r d = .ok u d' → d'.streams = d.streams ∧ d'.maxFieldSectionSize = d.maxFieldSectionSize ∧
        insLoop fuel r (d.setMaxFieldSectionSize limit) = .ok u (d'.setMaxFieldSectionSize limit) := by
  intro fuel
  induction fuel with
  | zero =>
    rintro r d d' u ⟨⟩
  | succ fuel ih =>
    intro r d d' u h
    rw [insLoop] at h ⊢
    by_cases hempty : r.buf.isEmpty = true
    · simp only [hempty, ↓reduceIte] at h ⊢
      cases h
      exact ⟨rfl, rfl, rfl⟩
    · simp only [hempty, Bool.false_eq_true, ↓reduceIte] at h ⊢
      cases hread : EncInstDecoder.decode r with
      | panic | err =>
        rw [hread] at h
        cases h
      | ok found r' =>
        rw [hread] at h
        cases found with
        | none =>
          cases h
          exact ⟨rfl, rfl, rfl⟩
        | some inst =>
          simp only [Method.bind_apply, Method.onField, setMaxFieldSectionSize] at h ⊢
          cases happly : Updater.apply d.maxTableCapacity inst d.table with
          | panic | err =>
            rw [happly] at h
            cases h
          | ok v t =>
            rw [happly] at h
            exact ih h

theorem decodeIns_limited {ids : List Nat} (h : d.decodeIns buf = .ok ids d') (limit : Nat) :
    d'.streams = d.streams ∧ d'.maxFieldSectionSize = d.maxFieldSectionSize ∧
      (d.setMaxFieldSectionSize limit).decodeIns buf = .ok ids (d'.setMaxFieldSectionSize limit) := by
  obtain ⟨u, mid, hloop, hunblock⟩ := bind_eq_ok.mp h
  obtain ⟨hstreams, hmax, hlimited⟩ := insLoop_limited limit hloop
  cases hunblock
  refine ⟨hstreams, hmax, bind_eq_ok.mpr ⟨u, _, hlimited, rfl⟩⟩

/-! ### Delivered sections -/

/-- What arrives while a section is decoded: a segment of it, or bytes of the encoder stream. -/
inductive Arrival where
  | instructions (buf : List UInt8)
  | segment (buf : List UInt8)

/-- The lines of the section that a stream delivers: every call for it succeeds, and `finish`
returns its parts. -/
def deliver (streamId : Nat) : List Arrival → QpackDecoder → Option (List (Representation × Field))
  | [], d => (d.finish streamId).value? fun _ _ => (d.linesOf streamId).decoded
  | .instructions buf :: rest, d =>
    match d.decodeIns buf with
    | .ok _ d => deliver streamId rest d
    | _ => none
  | .segment buf :: rest, d =>
    match d.decodeRepr buf streamId with
    | .ok _ d => deliver streamId rest d
    | _ => none

/-- A section that is delivered has charged no more than the limit, and any limit for what it
has charged delivers it. -/
theorem deliver_limit :
    ∀ {arrivals : List Arrival} {d : QpackDecoder}, Charged d.maxFieldSectionSize (d.linesOf streamId) →
      deliver streamId arrivals d = some lines →
        (d.linesOf streamId).headerSize ≤ chargedSize lines ∧ chargedSize lines ≤ d.maxFieldSectionSize ∧
          ∀ limit, chargedSize lines ≤ limit →
            deliver streamId arrivals (d.setMaxFieldSectionSize limit) = some lines := by
  intro arrivals
  induction arrivals with
  | nil =>
    intro d hcharged h
    obtain ⟨result, d', hfinish, rfl⟩ := value?_eq_some.mp h
    rw [← hcharged.size]
    refine ⟨le_rfl, hcharged.le, fun limit _ => ?_⟩
    have hfinish' : (d.setMaxFieldSectionSize limit).finish streamId =
        .ok result (d'.setMaxFieldSectionSize limit) := by
      obtain ⟨message, hlookup, hstate, hresult, rfl⟩ := finish_eq_ok.mp hfinish
      exact finish_eq_ok.mpr ⟨message, hlookup, hstate, hresult, rfl⟩
    exact value?_eq_some.mpr ⟨result, _, hfinish', rfl⟩
  | cons arrival arrivals ih =>
    intro d hcharged h
    cases arrival with
    | instructions buf =>
      rw [deliver] at h
      split at h
      · rename_i ids d' hins
        obtain ⟨hstreams, hmax, -⟩ := decodeIns_limited hins 0
        have hlines : d'.linesOf streamId = d.linesOf streamId := by rw [linesOf, hstreams, linesOf]
        rw [← hlines, ← hmax] at hcharged ⊢
        obtain ⟨hle, hwithin, hlimited⟩ := ih hcharged h
        refine ⟨hle, hwithin, fun limit hlimit => ?_⟩
        rw [deliver, (decodeIns_limited hins limit).2.2]
        exact hlimited limit hlimit
      · cases h
    | segment buf =>
      rw [deliver] at h
      split at h
      · rename_i state d' hrepr
        obtain ⟨hmax, hgrows, hkeeps, hlimit⟩ := decodeRepr_grows hrepr
        have hcharged' := hkeeps hcharged
        rw [← hmax] at hcharged' ⊢
        obtain ⟨hle, hwithin, hlimited⟩ := ih hcharged' h
        refine ⟨le_trans hgrows hle, hwithin, fun limit hlines => ?_⟩
        rw [deliver, hlimit limit (le_trans hle hlines)]
        exact hlimited limit hlines
      · cases h

theorem charged_new (hfresh : d.streams.lookup streamId = none) (limit : Nat) :
    Charged (d.setMaxFieldSectionSize limit).maxFieldSectionSize
      ((d.setMaxFieldSectionSize limit).linesOf streamId) := by
  have hlines : (d.setMaxFieldSectionSize limit).linesOf streamId = .new := by
    rw [linesOf, setMaxFieldSectionSize, hfresh]
    rfl
  rw [hlines]
  exact ⟨rfl, Nat.zero_le _⟩

/-- The lines of a delivered section stay within every limit that it is delivered under exactly
if none of them is an indexed one. -/
theorem total_le_iff_no_indexed (d : QpackDecoder) (streamId : Nat)
    (hfresh : d.streams.lookup streamId = none) (arrivals : List Arrival) :
    (∀ limit lines, deliver streamId arrivals (d.setMaxFieldSectionSize limit) = some lines → totalSize lines ≤ limit) ↔
      ∀ limit lines, deliver streamId arrivals (d.setMaxFieldSectionSize limit) = some lines →
        ∀ l ∈ lines, l.1.isIndexed = false := by
  constructor
  · intro hbound limit lines h
    by_contra hsome
    have hindexed : ∃ l ∈ lines, l.1.isIndexed = true := by
      by_contra hnone
      refine hsome fun l hl => ?_
      cases hkind : l.1.isIndexed with
      | false => rfl
      | true => exact absurd ⟨l, hl, hkind⟩ hnone
    -- The smallest limit under which the section is delivered is too small for its lines.
    have hdeliver := (deliver_limit (charged_new hfresh limit) h).2.2 (chargedSize lines) le_rfl
    exact absurd (hbound _ lines hdeliver) (not_le.mpr (charged_lt_total hindexed))
  · intro hnone limit lines h
    rw [totalSize_eq_charged (hnone limit lines h)]
    exact (deliver_limit (charged_new hfresh limit) h).2.1

/-- A section of one literal line. -/
theorem total_le_iff_literal :
    (∀ limit lines, deliver 0 [.segment [0x00, 0x00, 0x21, 0x61, 0x01, 0x62]]
        ((QpackDecoder.new 0 0).setMaxFieldSectionSize limit) = some lines → totalSize lines ≤ limit) ↔
      ∀ limit lines, deliver 0 [.segment [0x00, 0x00, 0x21, 0x61, 0x01, 0x62]]
        ((QpackDecoder.new 0 0).setMaxFieldSectionSize limit) = some lines → ∀ l ∈ lines, l.1.isIndexed = false :=
  total_le_iff_no_indexed (.new 0 0) 0 rfl _

/-- The line `:path: /` of the static table has 38 bytes and is delivered under a limit of 10. -/
theorem deliver_beyond_limit :
    (deliver 0 [.segment [0x00, 0x00, 0xc1]] ((QpackDecoder.new 0 0).setMaxFieldSectionSize 10)).map totalSize =
      some 38 := by
  decide +kernel

end QpackDecoder

end YlongHttp.H3.Qpack
