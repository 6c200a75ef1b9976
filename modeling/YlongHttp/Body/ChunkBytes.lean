/-
Chunked bodies from byte slices.

The number of whole windows that have been written is set to one after each of them. So the
second window comes again and again if it is a whole one, and `data` does not come to an end
for a body of two whole windows or more (`not_produces_long`). For a shorter body the windows
are those of the body (`supply`).
-/

import YlongHttp.Body.ChunkWritten

namespace YlongHttp.Body

open Rust Method List

namespace FromBytes

/-! ### The windows of a body -/

/-- The windows behind `count` whole windows: the second window is the last that is ever
loaded. -/
def windows (body : List UInt8) (count : Nat) : Windows := fun k =>
  (0, if k = 0 then (body.drop (count * chunkSize)).take chunkSize else (body.drop chunkSize).take chunkSize)

def load : Method (ChunkBody FromBytes) Infallible (Poll Unit) := do
  ChunkBody.beginWindow
  loadWindow
  return .ready ()

def Ahead (ws : Windows) (body : FromBytes) (c : ChunkData) : Prop :=
  ws = windows body c.chunkCount ∧ c.chunkCount * chunkSize ≤ body.length

def Loaded (ws : Windows) (body : FromBytes) (c : ChunkData) : Prop :=
  Ahead ws body c ∧ c.chunkLast = (ws 0).2.length

theorem length_window (body : List UInt8) (count : Nat) :
    (windows body count 0).2.length = min chunkSize (body.length - count * chunkSize) := by
  simp only [windows, if_true, length_take, length_drop]

theorem supply : Supply load window Ahead Loaded where
  pending := by
    rintro ws b ⟨rfl, -⟩ hwaits
    exact absurd rfl hwaits
  load := by
    rintro ws b ⟨rfl, hcount⟩ -
    refine ⟨b.source, { b.chunkData with chunkLast := (windows b.source b.chunkData.chunkCount 0).2.length }, ?_,
      ⟨rfl, hcount⟩, rfl⟩
    have hlast : (if b.source.length - b.chunkData.chunkCount * chunkSize < chunkSize
        then b.source.length - b.chunkData.chunkCount * chunkSize else chunkSize) =
        (windows b.source b.chunkData.chunkCount 0).2.length := by
      rw [length_window]
      split <;> omega
    simp only [load, loadWindow, ChunkBody.beginWindow, bind_apply, modify_apply, get_apply,
      Outcome.bind_ok, checkedSub_eq_ok hcount, pure_apply, hlast, ChunkBody.loaded]
  window := by
    rintro ws b ⟨⟨rfl, hcount⟩, hlast⟩
    have hlength := length_window b.source b.chunkData.chunkCount
    rw [← hlast] at hlength
    have hstop : b.chunkData.chunkCount * chunkSize + b.chunkData.chunkLast ≤ b.source.length := by omega
    simp only [window, get_bind, slice_eq_ok (Nat.le_add_right ..) hstop, Outcome.ok.injEq, and_true]
    rw [drop_take, Nat.add_sub_cancel_left, hlength, ← length_drop, ← take_eq_take_min]
    rfl
  length := by
    rintro ws body c ⟨⟨rfl, -⟩, hlast⟩
    exact ⟨hlast, rfl⟩
  full := by
    rintro ws body c ⟨⟨rfl, hcount⟩, -⟩ hfull
    rw [Windows.Full, length_window] at hfull
    constructor
    · funext k
      cases k with
      | zero => simp only [windows, Windows.next, one_mul, if_true, Nat.succ_ne_zero, if_false]
      | succ k => simp only [windows, Windows.next, Nat.succ_ne_zero, if_false]
    · rw [one_mul]
      omega
  tail := by
    rintro ws body c ⟨⟨rfl, hcount⟩, -⟩ -
    exact ⟨windows body 0, rfl, rfl, by simp⟩

/-! ### Long bodies -/

/-- All windows are whole ones, and come without waiting. -/
def Whole (ws : Windows) : Prop := ∀ k, (ws k).1 = 0 ∧ (ws k).2.length = chunkSize

/-- A position with whole windows to come. -/
def Endless : Position → Prop
  | .size _ ws => Whole ws
  | .sizeEnd _ ws => Whole ws
  | .data _ ws => Whole ws
  | .dataEnd _ ws => Whole ws
  | _ => False

variable {p : Position} {body : List UInt8}

theorem endless_next (h : Endless p) : Endless p.next := by
  cases p with
  | data i ws =>
    have hfull : ws.Full := (h 0).2
    rw [Position.next, if_pos hfull]
    intro k
    exact h (k + 1)
  | size | sizeEnd | dataEnd | finish | last | done => exact h

theorem endless_stay (h : Endless p) (n : Nat) : Endless (p.stay n) := by
  cases p with
  | size i ws =>
    have hfull : ws.Full := (h 0).2
    rw [Position.stay, if_pos hfull]
    exact h
  | sizeEnd | data | dataEnd | finish | last | done => exact h

theorem waits_of_endless (h : Endless p) : p.waits = 0 := by
  cases p with
  | size | dataEnd => exact (h 0).1
  | sizeEnd | data | last | done => rfl
  | finish i waits => exact h.elim

theorem token_ne_nil_of_endless {b : ChunkBody FromBytes} (hholds : Holds Ahead Loaded b p)
    (h : Endless p) : p.token ≠ [] := by
  rw [← length_pos_iff]
  cases hholds with
  | @size ws _ _ _ _ _ _ i ready full tail =>
    have hi : i < 3 := full (h 0).2
    rw [Position.token, (h 0).2, length_drop]
    exact Nat.sub_pos_of_lt hi
  | sizeEnd _ index | dataEnd _ index =>
    rw [Position.token, length_drop]
    exact Nat.sub_pos_of_lt index
  | data loaded index =>
    rw [Position.token, length_drop]
    rcases index with hi | rfl
    · exact Nat.sub_pos_of_lt hi
    · rw [(h 0).2]
      decide
  | finish | last | done => exact h.elim

/-- A round at such a position writes something. -/
theorem dataStep_endless {b : ChunkBody FromBytes} (room : Nat) (h : ∃ p, Holds Ahead Loaded b p ∧ Endless p) :
    ∃ written b', ChunkBody.dataStep (ChunkBody.windowEncode loadWindow window) (room + 1) b =
      .ok (some written) b' ∧ written ≠ [] ∧ ∃ p, Holds Ahead Loaded b' p ∧ Endless p := by
  obtain ⟨p, hholds, hendless⟩ := h
  have hdone : p ≠ .done := by
    rintro rfl
    exact hendless
  obtain ⟨b', hstep, hholds'⟩ :=
    hholds.write supply hdone (waits_of_endless hendless) (room + 1)
  rw [load, sourceStep_eq] at hstep
  refine ⟨p.token.take (room + 1), b', ready_eq_ok.mp hstep, ?_, p.advance (room + 1), hholds', ?_⟩
  · intro hnil
    have htoken := token_ne_nil_of_endless hholds hendless
    rcases take_eq_nil_iff.mp hnil with hzero | hnil
    · exact absurd hzero (Nat.succ_ne_zero room)
    · exact htoken hnil
  · rw [Position.advance]
    split
    · exact endless_next hendless
    · exact endless_stay hendless _

/-- Two whole windows or more never come to an end. -/
theorem not_produces_long (h : 2 * chunkSize ≤ body.length) {rooms : Nat → Nat}
    (hrooms : ∀ k, 0 < rooms k) (out : List UInt8) : ¬ Produces data rooms (chunkBody body) out := by
  have hwhole : Whole (windows body 0) := by
    intro k
    constructor
    · rfl
    · cases k with
      | zero =>
        rw [length_window]
        omega
      | succ k =>
        simp only [windows, Nat.succ_ne_zero, if_false, length_take, length_drop]
        omega
  have hholds : Holds Ahead Loaded (chunkBody body) (.size 0 (windows body 0)) :=
    holds_new ⟨rfl, by simp⟩
  exact not_produces_of_endless (fun room s => dataStep_endless room) (fun _ _ _ => rfl) hrooms
    ⟨.size 0 (windows body 0), hholds, hwhole⟩ out

/-! ### Short bodies -/

/-- Where the size of the last window begins if at most one whole window comes first. -/
def tailStart (body : List UInt8) : Nat := if body.length < chunkSize then 0 else chunkSize + 7

/-- The windows of a short body, and where the size of the last one begins. -/
theorem windows_short (h : body.length < 2 * chunkSize) :
    ∃ n, (windows body 0).Fulls n ∧ body = (windows body 0).content n ∧
      (windows body 0 n).2.length = body.length % chunkSize ∧ ((windows body 0).front n).length = tailStart body := by
  have hfirst := length_window body 0
  rcases lt_or_ge body.length chunkSize with hlt | hge
  · refine ⟨0, ?_, ?_, ?_, ?_⟩
    · rw [Windows.Fulls, Windows.Full]
      omega
    · exact (take_of_length_le (le_of_lt hlt)).symm
    · rw [hfirst, Nat.mod_eq_of_lt hlt]
      exact min_eq_right (le_of_lt hlt)
    · rw [tailStart, if_pos hlt]
      rfl
  · have hsecond : ((windows body 0).next 0).2 = body.drop chunkSize :=
      take_of_length_le (by rw [length_drop]; omega)
    have hfull : (windows body 0 0).2.length = chunkSize := hfirst.trans (min_eq_left hge)
    refine ⟨1, ⟨hfull, ?_⟩, ?_, ?_, ?_⟩
    · rw [Windows.Fulls, Windows.Full, hsecond, length_drop]
      omega
    · simp only [Windows.content, hsecond]
      simp only [windows, if_true, zero_mul, drop_zero, take_append_drop]
    · have hmod : body.length % chunkSize = body.length - chunkSize := by
        rw [Nat.mod_eq_sub_mod hge, Nat.mod_eq_of_lt (by omega)]
      rw [hmod, ← length_drop, ← hsecond]
      rfl
    · rw [tailStart, if_neg (Nat.not_lt_of_le hge)]
      simp only [Windows.front, Windows.chunk, length_append, hfull, length_lowerHex_chunkSize, length_nil]
      rfl

/-- The bytes of a body come out as a chunked body if there is a last window that is not empty,
at most one whole window comes before it, and no buffer ends inside the size of the last
window. -/
theorem data_chunkedBody_iff (body : List UInt8) (rooms : Nat → Nat) (hrooms : ∀ k, 0 < rooms k) :
    (∃ out, Produces data rooms (chunkBody body) out ∧ ChunkedBody usizeBound out body) ↔
      body.length % chunkSize ≠ 0 ∧ body.length < 2 * chunkSize ∧
        ∀ k, roomUpTo rooms k ≤ tailStart body ∨
          tailStart body + (lowerHex (body.length % chunkSize)).length ≤ roomUpTo rooms k := by
  rcases lt_or_ge body.length (2 * chunkSize) with hshort | hlong
  · obtain ⟨n, hfulls, hcontent, hlength, hfront⟩ := windows_short hshort
    have hbound : (windows body 0 n).2.length < usizeBound := by
      rw [hlength]
      exact lt_trans (Nat.mod_lt _ (by decide)) (by decide)
    have hholds : Holds Ahead Loaded (chunkBody body) (.size 0 (windows body 0)) := holds_new ⟨rfl, by simp⟩
    have hcut : ¬ SizeCut rooms n (windows body 0) ↔ ∀ k, roomUpTo rooms k ≤ tailStart body ∨
        tailStart body + (lowerHex (body.length % chunkSize)).length ≤ roomUpTo rooms k := by
      rw [sizeCut_iff fun _ => rfl, tailSize, hlength, hfront]
      simp only [not_exists, not_and_or, not_lt]
    have hne : (windows body 0 n).2 ≠ [] ↔ body.length % chunkSize ≠ 0 := by
      rw [← hlength, ne_eq, ne_eq, length_eq_zero_iff]
    have hiff : (∃ out, Produces data rooms (chunkBody body) out ∧ ChunkedBody usizeBound out body) ↔ _ :=
      produces_chunkedBody_iff supply (fun _ => rfl) hrooms hholds hfulls hbound body
    rw [hiff, hcut, hne]
    constructor
    · rintro ⟨-, htail, hrooms⟩
      exact ⟨htail, hshort, hrooms⟩
    · rintro ⟨htail, -, hrooms⟩
      exact ⟨hcontent, htail, hrooms⟩
  · constructor
    · rintro ⟨out, hout, -⟩
      exact absurd hout (not_produces_long hlong hrooms out)
    · rintro ⟨-, hshort, -⟩
      exact absurd hshort (Nat.not_lt_of_le hlong)

/-- The bytes `hello` in buffers of 16 bytes. -/
theorem data_chunkedBody_hello : (∀ _ : Nat, 0 < 16) ∧
    ∃ out, Produces data (fun _ => 16) (chunkBody [0x68, 0x65, 0x6c, 0x6c, 0x6f]) out ∧
      ChunkedBody usizeBound out [0x68, 0x65, 0x6c, 0x6c, 0x6f] := by
  have hrooms : ∀ _ : Nat, 0 < 16 := fun _ => Nat.zero_lt_succ 15
  refine ⟨hrooms, (data_chunkedBody_iff _ _ hrooms).mpr ⟨by decide, by decide, ?_⟩⟩
  -- a size of one digit cannot be cut
  intro k
  exact (Nat.eq_zero_or_pos _).imp le_of_eq id

/-- For the empty body, the last chunk comes out twice. -/
theorem data_emptyBody : Produces data (fun _ => 16) (chunkBody []) (lastChunk ++ lastChunk) ∧
    ¬ ChunkedBody usizeBound (lastChunk ++ lastChunk) [] := by
  have hrooms : ∀ _ : Nat, 0 < 16 := fun _ => Nat.zero_lt_succ 15
  have hholds : Holds Ahead Loaded (chunkBody []) (.size 0 (windows [] 0)) := holds_new ⟨rfl, by decide⟩
  have hfulls : (windows [] 0).Fulls 0 := by
    rw [Windows.Fulls]
    decide
  have hcut : ¬ SizeCut (fun _ => 16) 0 (windows [] 0) := by
    rintro ⟨k, hpos, hlt⟩
    exact absurd hpos (Nat.not_lt_of_le (Nat.le_of_lt_succ hlt))
  constructor
  · exact produces_text supply (fun _ => rfl) hrooms hholds hfulls hcut
  · exact not_chunkedBody_empty hfulls rfl []

end FromBytes

end YlongHttp.Body
