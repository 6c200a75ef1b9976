/-
Authorities on their own (`Authority::from_bytes`).

`authority_token` counts colons and brackets byte by byte, and `host_port` splits the text at
its last colon. What is accepted has the shape of a bracketed literal, or nothing, followed by
bytes with at most one colon (`AuthorityText.shape`), so that the split agrees with the count
and the host has colons in the literal only (`AuthorityText.host`). The port is what
`str::parse::<u16>` accepts, and that is decimal digits with or without a plus sign in front of
them (`Authority.fromBytes_wellFormed_iff`).
-/

import YlongHttp.Uri.RoundTrip

namespace YlongHttp

open H2.Hpack (ascii)
open Codec List

def Authority.fromBytes (bytes : List UInt8) : Except InvalidUri Authority :=
  if bytes.isEmpty then .error .uriMissAuthority
  else do
    let (authority, rest) ← Uri.authorityToken bytes
    match rest, authority with
    | [], some auth => return auth
    | _, _ => throw .invalidAuthority

namespace Uri

variable {a : Authority} {port : List UInt8}

theorem authorityText_of_fromBytes {bytes : List UInt8} (h : Authority.fromBytes bytes = .ok a) :
    ∃ s, AuthorityText bytes a s := by
  rw [Authority.fromBytes] at h
  split at h
  next => cases h
  next =>
    obtain ⟨⟨authority, rest⟩, htoken, hrest⟩ := bind_eq_ok.mp h
    cases rest with
    | cons b rest => cases authority <;> cases hrest
    | nil =>
      obtain ⟨-, ⟨rfl, -⟩ | ⟨text, a', s, rfl, rfl, htext⟩⟩ := authorityToken_cases htoken
      · cases hrest
      · cases hrest
        rw [append_nil]
        exact ⟨s, htext⟩

/-! ### One byte of an authority -/

/-- What `authority_token` does with a byte that it goes on from. -/
inductive Reads (i : Nat) : UInt8 → AuthorityScan → AuthorityScan → Prop where
  | opens {s : AuthorityScan} (hstart : i = 0) : Reads i 0x5b s { s with leftBracket := true }
  | bracket {s : AuthorityScan} (hstart : i ≠ 0) (hleft : s.leftBracket = false) : Reads i 0x5b s s
  | closes {s : AuthorityScan} (hleft : s.leftBracket = true) (hright : s.rightBracket = false) :
      Reads i 0x5d s { s with rightBracket := true, colonNum := 0 }
  | unopened {s : AuthorityScan} (hleft : s.leftBracket = false) : Reads i 0x5d s s
  | colon {s : AuthorityScan} : Reads i 0x3a s { s with colonNum := s.colonNum + 1 }
  | other {b : UInt8} {s : AuthorityScan} (hopen : b ≠ 0x5b) (hclose : b ≠ 0x5d) (hcolon : b ≠ 0x3a)
      (huser : b ≠ 0x40) : Reads i b s s

variable {i : Nat} {b : UInt8} {s s' : AuthorityScan} {host : List UInt8}

theorem reads_of_authorityByte (h : authorityByte i b s = .ok s') : Reads i b s s' := by
  rw [authorityByte] at h
  split at h
  next hopen =>
    subst hopen
    split at h
    next hstart =>
      cases h
      exact .opens hstart
    next hstart =>
      split at h
      next => cases h
      next hleft =>
        cases h
        exact .bracket hstart (Bool.eq_false_iff.mpr hleft)
  next hopen =>
    split at h
    next hclose =>
      subst hclose
      split at h
      next hleft =>
        split at h
        next => cases h
        next hright =>
          cases h
          exact .closes hleft (Bool.eq_false_iff.mpr hright)
      next hleft =>
        cases h
        exact .unopened (Bool.eq_false_iff.mpr hleft)
    next hclose =>
      split at h
      next => cases h
      next huser =>
        split at h
        next hcolon =>
          subst hcolon
          cases h
          exact .colon
        next hcolon =>
          split at h
          next =>
            cases h
            exact .other hopen hclose hcolon huser
          next => cases h

theorem scanAuthority_cons {text : List UInt8}
    (h : scanAuthority (b :: text) i s = .ok s') : ∃ mid, Reads i b s mid ∧ scanAuthority text (i + 1) mid = .ok s' := by
  obtain ⟨mid, hbyte, hrest⟩ := bind_eq_ok.mp h
  exact ⟨mid, reads_of_authorityByte hbyte, hrest⟩

/-! ### Runs of bytes -/

variable {text : List UInt8} {i : Nat} {s s' : AuthorityScan}

section

variable (h : scanAuthority text i s = .ok s')

include h

theorem no_userinfo : 0x40 ∉ text := by
  induction text generalizing i s with
  | nil => exact not_mem_nil
  | cons b text ih =>
    obtain ⟨mid, hread, hrest⟩ := scanAuthority_cons h
    rw [mem_cons, not_or]
    refine ⟨?_, ih hrest⟩
    rintro rfl
    cases hread with
    | other _ _ _ huser => exact huser rfl

/-- Bytes outside of a literal: the colons are counted. -/
theorem scan_plain (hleft : s.leftBracket = false)
    (hstart : i ≠ 0 ∨ text.head? ≠ some 0x5b) : s'.leftBracket = false ∧ s'.colonNum = s.colonNum + text.count 0x3a := by
  induction text generalizing i s with
  | nil =>
    cases h
    exact ⟨hleft, rfl⟩
  | cons b text ih =>
    obtain ⟨mid, hread, hrest⟩ := scanAuthority_cons h
    have hnext : i + 1 ≠ 0 ∨ text.head? ≠ some 0x5b := .inl (Nat.succ_ne_zero i)
    cases hread with
    | opens hzero =>
      rcases hstart with hpos | hhead
      · exact absurd hzero hpos
      · exact absurd rfl hhead
    | bracket | unopened => simpa using ih hrest hleft hnext
    | closes hopened =>
      rw [hleft] at hopened
      cases hopened
    | colon =>
      obtain ⟨hleft', hcount⟩ := ih hrest hleft hnext
      rw [count_cons_self, hcount]
      exact ⟨hleft', by simp only; omega⟩
    | other _ _ hcolon =>
      rw [count_cons_of_ne hcolon]
      exact ih hrest hleft hnext

/-- Bytes behind a literal: the colons are counted, and no other literal is closed. -/
theorem scan_after (hpos : i ≠ 0) (hleft : s.leftBracket = true)
    (hright : s.rightBracket = true) : s'.colonNum = s.colonNum + text.count 0x3a := by
  induction text generalizing i s with
  | nil =>
    cases h
    rfl
  | cons b text ih =>
    obtain ⟨mid, hread, hrest⟩ := scanAuthority_cons h
    cases hread with
    | opens hzero => exact absurd hzero hpos
    | bracket _ hopen | unopened hopen =>
      rw [hleft] at hopen
      cases hopen
    | closes _ hopen =>
      rw [hright] at hopen
      cases hopen
    | colon =>
      rw [count_cons_self, ih hrest (Nat.succ_ne_zero i) hleft hright]
      simp only
      omega
    | other _ _ hcolon =>
      rw [count_cons_of_ne hcolon]
      exact ih hrest (Nat.succ_ne_zero i) hleft hright

/-- Bytes of a literal that is closed: the colons behind it are counted. -/
theorem scan_inside (hpos : i ≠ 0) (hleft : s.leftBracket = true)
    (hright : s.rightBracket = false) (hclosed : s'.rightBracket = true) :
    ∃ inner after, text = inner ++ 0x5d :: after ∧ 0x5d ∉ inner ∧ s'.colonNum = after.count 0x3a := by
  induction text generalizing i s with
  | nil =>
    cases h
    rw [hright] at hclosed
    cases hclosed
  | cons b text ih =>
    obtain ⟨mid, hread, hrest⟩ := scanAuthority_cons h
    -- the bytes before the closing bracket
    have hinner : b ≠ 0x5d → mid.leftBracket = true → mid.rightBracket = false →
        ∃ inner after, b :: text = inner ++ 0x5d :: after ∧ 0x5d ∉ inner ∧ s'.colonNum = after.count 0x3a := by
      intro hb hmid hmid'
      obtain ⟨inner, after, rfl, hinner, hcount⟩ := ih hrest (Nat.succ_ne_zero i) hmid hmid'
      refine ⟨b :: inner, after, rfl, ?_, hcount⟩
      rw [mem_cons, not_or]
      exact ⟨hb.symm, hinner⟩
    cases hread with
    | opens hzero => exact absurd hzero hpos
    | bracket _ hopen | unopened hopen =>
      rw [hleft] at hopen
      cases hopen
    | closes =>
      have hcount := scan_after hrest (Nat.succ_ne_zero i) hleft rfl
      rw [Nat.zero_add] at hcount
      exact ⟨[], text, rfl, not_mem_nil, hcount⟩
    | colon => exact hinner (by decide) hleft hright
    | other _ hclose => exact hinner hclose hleft hright

theorem scan_leftBracket (hleft : s.leftBracket = true) : s'.leftBracket = true := by
  induction text generalizing i s with
  | nil =>
    cases h
    exact hleft
  | cons b text ih =>
    obtain ⟨mid, hread, hrest⟩ := scanAuthority_cons h
    refine ih hrest ?_
    cases hread with
    | opens => rfl
    | bracket | closes | unopened | colon | other => exact hleft

end

/-! ### The shape of an authority -/

/-- A bracketed literal, or nothing. -/
def Literal (literal : List UInt8) : Prop :=
  literal = [] ∨ ∃ inner, literal = 0x5b :: (inner ++ [0x5d]) ∧ 0x5d ∉ inner

theorem AuthorityText.shape (h : AuthorityText text a s) :
    ∃ literal after, text = literal ++ after ∧ Literal literal ∧ s.colonNum = after.count 0x3a := by
  by_cases hhead : text.head? = some 0x5b
  · cases text with
    | nil => cases hhead
    | cons b text =>
      cases hhead
      obtain ⟨mid, hread, hrest⟩ := scanAuthority_cons h.scan
      cases hread with
      | bracket hstart | other hstart => exact absurd rfl hstart
      | opens =>
        -- the opening bracket has to be closed
        have hright : s.rightBracket = true := h.brackets ▸ scan_leftBracket hrest rfl
        obtain ⟨inner, after, rfl, hinner, hcount⟩ := scan_inside hrest (Nat.succ_ne_zero 0) rfl rfl hright
        refine ⟨0x5b :: (inner ++ [0x5d]), after, ?_, .inr ⟨inner, rfl, hinner⟩, hcount⟩
        simp
  · obtain ⟨-, hcount⟩ := scan_plain h.scan rfl (.inr hhead)
    rw [Nat.zero_add] at hcount
    exact ⟨[], text, rfl, .inl rfl, hcount⟩

/-! ### Host and port -/

/-- The last colon of a text is in one place. -/
theorem lastColon_unique {host' port' : List UInt8} (h : host ++ 0x3a :: port = host' ++ 0x3a :: port')
    (hport : 0x3a ∉ port) (hport' : 0x3a ∉ port') : host = host' ∧ port = port' := by
  rcases append_eq_append_iff.mp h with ⟨more, rfl, hmore⟩ | ⟨more, rfl, hmore⟩
  · cases more with
    | nil =>
      cases hmore
      exact ⟨(append_nil host).symm, rfl⟩
    | cons c more =>
      cases hmore
      exact absurd (mem_append_right more mem_cons_self) hport
  · cases more with
    | nil =>
      cases hmore
      exact ⟨append_nil host', rfl⟩
    | cons c more =>
      cases hmore
      exact absurd (mem_append_right more mem_cons_self) hport'

theorem rsplitOnce_port (h : rsplitOnce text = some (host, port)) : 0x3a ∉ port := by
  rw [rsplitOnce] at h
  split at h
  next => cases h
  next index hindex =>
    cases h
    obtain ⟨hlt, -, hbefore⟩ := findIdx?_eq_some_iff_getElem.mp hindex
    rw [length_reverse] at hlt
    intro hmem
    obtain ⟨j, hj, hcolon⟩ := mem_drop_iff_getElem.mp hmem
    have hno := hbefore (index - 1 - j) (by omega)
    rw [getElem_reverse, Bool.not_eq_true, beq_eq_false_iff_ne] at hno
    refine hno (Eq.trans ?_ hcolon)
    congr 1
    omega

/-- The split at the last colon. -/
structure SplitAt (text host port : List UInt8) : Prop where
  text : text = host ++ 0x3a :: port
  host : host ≠ []
  port : 0x3a ∉ port

/-- What `host_port` gives. -/
theorem hostPort_cases {colonNum : Nat} (h : hostPort text colonNum = .ok a) :
    colonNum = 0 ∧ a = ⟨text, none⟩ ∨ colonNum ≠ 0 ∧ ∃ host port, SplitAt text host port ∧
      (port = [] ∧ a = ⟨host, none⟩ ∨ (parseU16 port).isSome ∧ a = ⟨host, some port⟩) := by
  rw [hostPort] at h
  split at h
  next hcolon =>
    refine .inr ⟨hcolon, ?_⟩
    split at h
    next host port hsplit =>
      split at h
      next => cases h
      next hhost =>
        have hat : SplitAt text host port := by
          refine ⟨rsplitOnce_eq hsplit, ?_, rsplitOnce_port hsplit⟩
          rintro rfl
          exact hhost rfl
        refine ⟨host, port, hat, ?_⟩
        split at h
        next hport =>
          cases h
          exact .inl ⟨isEmpty_iff.mp hport, rfl⟩
        next =>
          split at h
          next => cases h
          next hparse =>
            cases h
            exact .inr ⟨Option.isSome_iff_ne_none.mpr fun hnone => hparse (Option.isNone_iff_eq_none.mpr hnone), rfl⟩
    next => cases h
  next hcolon =>
    cases h
    exact .inl ⟨not_not.mp hcolon, rfl⟩

/-- Colons are in a leading bracketed literal only. -/
def ColonsInLiteral (host : List UInt8) : Prop :=
  ∃ literal after, host = literal ++ after ∧ Literal literal ∧ 0x3a ∉ after

theorem AuthorityText.host_colons (h : AuthorityText text a s) : ColonsInLiteral a.host := by
  obtain ⟨literal, after, rfl, hliteral, hcount⟩ := h.shape
  rcases hostPort_cases h.parts with ⟨hzero, rfl⟩ | ⟨hpos, host, port, hsplit, hhost⟩
  · rw [hcount, count_eq_zero] at hzero
    exact ⟨literal, after, rfl, hliteral, hzero⟩
  · have hone : after.count 0x3a = 1 := by
      have hcolons := h.colons
      omega
    have hmem : 0x3a ∈ after := count_pos_iff.mp (by omega)
    -- the only colon behind the literal is the one that the text is split at
    obtain ⟨before, port', rfl, hbefore⟩ := eq_append_cons_of_mem hmem
    rw [count_append, count_cons_self] at hone
    have hport' : 0x3a ∉ port' := count_eq_zero.mp (by omega)
    have htext := hsplit.text
    rw [← append_assoc] at htext
    obtain ⟨rfl, -⟩ := lastColon_unique htext hport' hsplit.port
    have heq : a.host = literal ++ before := by
      rcases hhost with ⟨-, rfl⟩ | ⟨-, rfl⟩
      · rfl
      · rfl
    exact ⟨literal, before, heq, hliteral, hbefore⟩

theorem AuthorityText.host_start (h : AuthorityText text a s) : a.host ≠ [] ∧ a.host <+: text := by
  rcases hostPort_cases h.parts with ⟨-, rfl⟩ | ⟨-, host, port, hsplit, ⟨-, rfl⟩ | ⟨-, rfl⟩⟩
  · exact ⟨h.nonempty, prefix_refl text⟩
  · exact ⟨hsplit.host, _, hsplit.text.symm⟩
  · exact ⟨hsplit.host, _, hsplit.text.symm⟩

/-! ### Ports -/

def Digit (b : UInt8) : Prop := 0x30 ≤ b ∧ b ≤ 0x39

instance (b : UInt8) : Decidable (Digit b) := inferInstanceAs (Decidable (_ ∧ _))

/-- The number that decimal digits stand for. -/
def decimal (digits : List UInt8) : Nat := digits.foldl (fun n b => 10 * n + (b.toNat - 0x30)) 0

/-- Decimal digits of a number of sixteen bits. -/
structure PortDigits (port : List UInt8) : Prop where
  nonempty : port ≠ []
  digits : ∀ b ∈ port, Digit b
  value : decimal port ≤ 65535

/-- What `str::parse::<u16>` accepts. -/
theorem parseU16_isSome (h : (parseU16 port).isSome) :
    PortDigits port ∨ ∃ digits, port = 0x2b :: digits ∧ ∀ b ∈ digits, Digit b := by
  have hdigits : ∀ digits : List UInt8, (if digits.isEmpty ∨ ¬ digits.all fun b => 0x30 ≤ b && b ≤ 0x39 then none
      else if decimal digits < 65536 then some (decimal digits) else none).isSome → PortDigits digits := by
    intro digits h
    split at h
    next => cases h
    next hvalid =>
      rw [not_or, not_not, all_eq_true] at hvalid
      split at h
      next hvalue =>
        refine ⟨?_, ?_, Nat.le_of_lt_succ hvalue⟩
        · rintro rfl
          exact hvalid.1 rfl
        · intro b hb
          have hdigit := hvalid.2 b hb
          rwa [Bool.and_eq_true, decide_eq_true_eq, decide_eq_true_eq] at hdigit
      next => cases h
  unfold parseU16 at h
  dsimp only at h
  split at h
  next rest => exact .inr ⟨rest, rfl, (hdigits rest h).digits⟩
  next => exact .inl (hdigits port h)

end Uri

/-! ### Accepted authorities -/

/-- A port is decimal digits, a host is not empty, has no byte that ends it and no userinfo, and
colons in a leading literal only. -/
structure Authority.WellFormed (a : Authority) : Prop where
  port : ∀ port ∈ a.port, Uri.PortDigits port
  host : a.host ≠ []
  bytes : ∀ b ∈ a.host, b ≠ 0x2f ∧ b ≠ 0x3f ∧ b ≠ 0x23 ∧ b ≠ 0x40
  colons : Uri.ColonsInLiteral a.host

/-- The text ends with a colon, a plus sign and digits. -/
def PlusPort (text : List UInt8) : Prop :=
  ∃ host digits, text = host ++ 0x3a :: 0x2b :: digits ∧ ∀ b ∈ digits, Uri.Digit b

namespace Uri

variable {a : Authority} {s : AuthorityScan} {port : List UInt8}

theorem AuthorityText.host_bytes {text : List UInt8} (h : AuthorityText text a s) :
    ∀ b ∈ a.host, b ≠ 0x2f ∧ b ≠ 0x3f ∧ b ≠ 0x23 ∧ b ≠ 0x40 := by
  intro b hb
  have hmem : b ∈ text := h.host_start.2.subset hb
  have hstop := h.bytes b hmem
  simp only [authorityStop, Bool.or_eq_false_iff, beq_eq_false_iff_ne] at hstop
  refine ⟨hstop.1.1, hstop.1.2, hstop.2, ?_⟩
  rintro rfl
  exact no_userinfo h.scan hmem


/-- A byte of a port. -/
def PortByte (b : UInt8) : Prop := Digit b ∨ b = 0x2b

theorem portByte_of_isSome (h : (parseU16 port).isSome) : ∀ b ∈ port, PortByte b := by
  rcases parseU16_isSome h with hdigits | ⟨digits, rfl, hdigits⟩
  · exact fun b hb => .inl (hdigits.digits b hb)
  · exact forall_mem_cons.mpr ⟨.inr rfl, fun b hb => .inl (hdigits b hb)⟩

theorem PortByte.plain : ∀ b : UInt8, PortByte b →
    b ≠ 0x5b ∧ b ≠ 0x5d ∧ b ≠ 0x40 ∧ b ≠ 0x3a ∧ uriValueByte b = true ∧ authorityStop b = false := by
  unfold PortByte
  exact forall_byte (by decide +kernel)

theorem colon_not_mem_port (h : ∀ b ∈ port, PortByte b) : 0x3a ∉ port :=
  fun hmem => (PortByte.plain _ (h _ hmem)).2.2.2.1 rfl

/-- A port leaves the scan as it is. -/
theorem scanAuthority_port (h : ∀ b ∈ port, PortByte b) (i : Nat) (s : AuthorityScan) :
    scanAuthority port i s = .ok s := by
  induction port generalizing i with
  | nil => rfl
  | cons b port ih =>
    obtain ⟨hopen, hclose, huser, hcolon, hvalue, -⟩ := PortByte.plain b (h b mem_cons_self)
    rw [scanAuthority, authorityByte, if_neg hopen, if_neg hclose, if_neg huser, if_neg hcolon, if_pos hvalue]
    exact ih (fun c hc => h c (mem_cons_of_mem b hc)) (i + 1)

/-- The colon in front of a port is counted. -/
theorem scanAuthority_hostPort {host : List UInt8} (hport : ∀ b ∈ port, PortByte b) (s : AuthorityScan) :
    scanAuthority (host ++ 0x3a :: port) 0 s =
      scanAuthority host 0 s >>= fun mid => .ok { mid with colonNum := mid.colonNum + 1 } := by
  rw [scanAuthority_append]
  refine congrArg _ (funext fun mid => ?_)
  exact scanAuthority_port hport _ { mid with colonNum := mid.colonNum + 1 }

/-- Behind the last colon comes the port. -/
theorem AuthorityText.of_port {host : List UInt8}
    (h : AuthorityText (host ++ 0x3a :: port) a s) (hne : port ≠ []) (hport : ∀ b ∈ port, PortByte b) :
    a = ⟨host, some port⟩ := by
  have hscan := h.scan
  rw [scanAuthority_hostPort hport] at hscan
  obtain ⟨mid, -, hmid⟩ := bind_eq_ok.mp hscan
  cases hmid
  rcases hostPort_cases h.parts with ⟨hzero, -⟩ | ⟨-, host', port', hsplit, hparts⟩
  · cases hzero
  · obtain ⟨rfl, rfl⟩ := lastColon_unique hsplit.text (colon_not_mem_port hport) hsplit.port
    rcases hparts with ⟨hnil, -⟩ | ⟨-, rfl⟩
    · exact absurd hnil hne
    · rfl

/-- The host of an authority, before its port. -/
theorem AuthorityText.host_scan (h : AuthorityText (authorityText a) a s) :
    ∃ mid, scanAuthority a.host 0 ⟨0, false, false⟩ = .ok mid ∧ mid.colonNum = 0 ∧ mid.leftBracket = mid.rightBracket := by
  rcases hostPort_cases h.parts with ⟨hzero, ha⟩ | ⟨-, host, port, hsplit, ⟨-, rfl⟩ | ⟨hparse, rfl⟩⟩
  · have hhost : a.host = authorityText a := congrArg Authority.host ha
    rw [hhost]
    exact ⟨s, h.scan, hzero, h.brackets⟩
  · exact absurd hsplit.text (by simp [authorityText])
  · have hscan := h.scan
    rw [hsplit.text, scanAuthority_hostPort (portByte_of_isSome hparse)] at hscan
    obtain ⟨mid, hmid, hs⟩ := bind_eq_ok.mp hscan
    cases hs
    exact ⟨mid, hmid, Nat.le_zero.mp (Nat.le_of_succ_le_succ h.colons), h.brackets⟩

theorem rsplitOnce_append (host : List UInt8) (h : 0x3a ∉ port) :
    rsplitOnce (host ++ 0x3a :: port) = some (host, port) := by
  cases hsplit : rsplitOnce (host ++ 0x3a :: port) with
  | none =>
    rw [rsplitOnce] at hsplit
    split at hsplit
    next hnone => simp [findIdx?_eq_none_iff] at hnone
    next => cases hsplit
  | some parts =>
    obtain ⟨rfl, rfl⟩ := lastColon_unique (rsplitOnce_eq hsplit) h (rsplitOnce_port hsplit)
    rfl

/-- The host of an authority is accepted with any port. -/
theorem AuthorityText.with_port
    (h : AuthorityText (authorityText a) a s) (hne : port ≠ []) (hport : (parseU16 port).isSome) :
    Authority.fromBytes (a.host ++ 0x3a :: port) = .ok ⟨a.host, some port⟩ := by
  obtain ⟨mid, hscan, hzero, hbrackets⟩ := h.host_scan
  obtain ⟨hhost, hstart⟩ := h.host_start
  have hbytes := portByte_of_isSome hport
  have htext : AuthorityText (a.host ++ 0x3a :: port) ⟨a.host, some port⟩ { mid with colonNum := 1 } := by
    refine ⟨by simp, ?_, ?_, hbrackets, Nat.le_refl 1, ?_⟩
    · intro b hb
      rcases mem_append.mp hb with hb | hb
      · exact h.bytes b (hstart.subset hb)
      · rcases mem_cons.mp hb with rfl | hb
        · rfl
        · exact (PortByte.plain b (hbytes b hb)).2.2.2.2.2
    · rw [scanAuthority_hostPort hbytes, hscan]
      exact congrArg (fun n => Except.ok { mid with colonNum := n + 1 }) hzero
    · have hparse : ¬ (parseU16 port).isNone = true := by simpa [Option.isSome_iff_ne_none] using hport
      rw [hostPort, if_pos Nat.one_ne_zero, rsplitOnce_append a.host (colon_not_mem_port hbytes)]
      simp only [List.isEmpty_iff, if_neg hhost, if_neg hne, if_neg hparse]
  have htoken := authorityToken_text htext (ends_nil _)
  rw [append_nil] at htoken
  rw [Authority.fromBytes, if_neg (by simp), htoken]
  rfl

end Uri

/-- An accepted authority is well formed unless its text ends with a colon, a plus sign and
digits: then the plus sign is in the port. -/
theorem Authority.fromBytes_wellFormed_iff (bytes : List UInt8) (a : Authority) (h : fromBytes bytes = .ok a) :
    a.WellFormed ↔ ¬ PlusPort bytes := by
  obtain ⟨s, htext⟩ := Uri.authorityText_of_fromBytes h
  constructor
  · rintro hwell ⟨host, digits, rfl, hdigits⟩
    have hbytes : ∀ b ∈ 0x2b :: digits, Uri.PortByte b :=
      forall_mem_cons.mpr ⟨.inr rfl, fun b hb => .inl (hdigits b hb)⟩
    obtain rfl := htext.of_port (cons_ne_nil _ _) hbytes
    have hport := hwell.port _ rfl
    exact absurd (hport.digits 0x2b mem_cons_self) (by decide)
  · intro hplus
    refine ⟨?_, htext.host_start.1, htext.host_bytes, htext.host_colons⟩
    intro port hport
    rcases Uri.hostPort_cases htext.parts with ⟨-, rfl⟩ | ⟨-, host, port', hsplit, ⟨-, rfl⟩ | ⟨hparse, rfl⟩⟩
    · cases hport
    · cases hport
    · cases hport
      rcases Uri.parseU16_isSome hparse with hwell | ⟨digits, rfl, hdigits⟩
      · exact hwell
      · exact absurd ⟨host, digits, hsplit.text, hdigits⟩ hplus

/-- A literal and a port. -/
theorem Authority.fromBytes_loopback : fromBytes (ascii "[::1]:8080") = .ok ⟨ascii "[::1]", some (ascii "8080")⟩ ∧
    WellFormed ⟨ascii "[::1]", some (ascii "8080")⟩ := by
  refine ⟨?ok, (fromBytes_wellFormed_iff _ _ ?ok).mpr ?_⟩
  case ok => decide +kernel
  rintro ⟨host, digits, htext, -⟩
  have hmem : 0x2b ∈ ascii "[::1]:8080" := by
    rw [htext]
    simp
  exact absurd hmem (by decide)

/-- A port with a plus sign is accepted. -/
theorem Authority.fromBytes_plus : fromBytes (ascii "a:+80") = .ok ⟨ascii "a", some (ascii "+80")⟩ ∧
    ¬ WellFormed ⟨ascii "a", some (ascii "+80")⟩ := by
  refine ⟨by decide +kernel, ?_⟩
  intro hwell
  exact absurd ((hwell.port _ rfl).digits 0x2b (by decide)) (by decide)

end YlongHttp
