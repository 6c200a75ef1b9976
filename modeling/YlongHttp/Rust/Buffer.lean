/-
Writing into a mutable slice.

A slice is the list of its items. The operations that write into one return it as it is
afterwards, and panic where an index is out of range.
-/

import YlongHttp.Rust.Outcome

namespace YlongHttp.Rust

open List

variable {σ ε α : Type}

/-- `buf[i] = x`. -/
def setIndex (buf : List α) (i : Nat) (x : α) : Method σ ε (List α) :=
  if i < buf.length then pure (buf.set i x) else Method.panicked

/-- `buf[..src.len()].copy_from_slice(src)`. -/
def copyFromSlice (buf src : List α) : Method σ ε (List α) :=
  if src.length ≤ buf.length then pure (src ++ buf.drop src.length) else Method.panicked

/-- The loop over `buf.iter_mut().enumerate().take(len)` that assigns `item i` to the item
at `i`; the first item is at `start`. -/
def fillItems (item : Nat → Method σ ε α) (start : Nat) : Nat → List α → Method σ ε (List α)
  | 0, buf => pure buf
  | _ + 1, [] => pure []
  | len + 1, _ :: buf => do
    let x ← item start
    let buf ← fillItems item (start + 1) len buf
    return x :: buf

/-- The loop over `0..len` with a body that writes into the slice; the first index is
`start`. -/
def fillRange (body : Nat → List α → Method σ ε (List α)) (start : Nat) :
    Nat → List α → Method σ ε (List α)
  | 0, buf => pure buf
  | len + 1, buf => do
    let buf ← body start buf
    fillRange body (start + 1) len buf

variable {buf xs : List α} {i k n : Nat} {item : Nat → Method σ ε α} {s : σ}
  {body : Nat → List α → Method σ ε (List α)}

theorem setIndex_eq_ok (h : i < buf.length) (x : α) (s : σ) :
    (setIndex buf i x : Method σ ε (List α)) s = .ok (buf.set i x) s := by
  simp only [setIndex, if_pos h, Method.pure_apply]

theorem copyFromSlice_eq_ok {src : List α} (h : src.length ≤ buf.length) (s : σ) :
    (copyFromSlice buf src : Method σ ε (List α)) s = .ok (src ++ buf.drop src.length) s := by
  simp only [copyFromSlice, if_pos h, Method.pure_apply]

theorem getElem?_take_drop {x : α} (h : ((xs.drop k).take n)[i]? = some x) : i < n ∧ xs[k + i]? = some x := by
  rw [getElem?_take] at h
  split at h
  next hi =>
    rw [getElem?_drop] at h
    exact ⟨hi, h⟩
  next => cases h

theorem length_take_drop (h : k + n ≤ xs.length) : ((xs.drop k).take n).length = n := by
  rw [length_take_of_le]
  rw [length_drop]
  omega

/-- Items that are read from a list end up in front of the slice. -/
theorem fillItems_eq_ok (xs : List α) : ∀ (start : Nat) {buf : List α}, xs.length ≤ buf.length →
      (∀ i x, xs[i]? = some x → item (start + i) s = .ok x s) →
        fillItems item start xs.length buf s = .ok (xs ++ buf.drop xs.length) s := by
  induction xs with
  | nil =>
    intro start buf _ _
    rfl
  | cons x xs ih =>
    intro start buf hlen hitem
    cases buf with
    | nil => exact absurd hlen (Nat.not_succ_le_zero _)
    | cons b buf =>
      have hx : item start s = .ok x s := hitem 0 x rfl
      have hrest : fillItems item (start + 1) xs.length buf s = .ok (xs ++ buf.drop xs.length) s := by
        refine ih (start + 1) (Nat.le_of_succ_le_succ hlen) fun i y hy => ?_
        rw [add_assoc, add_comm 1 i]
        exact hitem (i + 1) y hy
      simp only [length_cons, fillItems, Method.bind_apply, hx, Outcome.bind_ok, hrest,
        Method.pure_apply, cons_append, drop_succ_cons]

/-- Items that are read from place `k` of a list on. -/
theorem fillItems_drop (hn : k + n ≤ xs.length) (hbuf : n ≤ buf.length)
    (hitem : ∀ i x, i < n → xs[k + i]? = some x → item i s = .ok x s) :
    fillItems item 0 n buf s = .ok ((xs.drop k).take n ++ buf.drop n) s := by
  have hlen := length_take_drop hn
  have hread : ∀ i x, ((xs.drop k).take n)[i]? = some x → item (0 + i) s = .ok x s := by
    intro i x hx
    obtain ⟨hi, hx⟩ := getElem?_take_drop hx
    rw [zero_add]
    exact hitem i x hi hx
  have hfill := fillItems_eq_ok ((xs.drop k).take n) 0 (le_trans (le_of_eq hlen) hbuf) hread
  rwa [hlen] at hfill

/-- A body that writes each item to its index. -/
theorem fillRange_eq_ok (xs : List α) : ∀ (start : Nat) {buf : List α}, start + xs.length ≤ buf.length →
      (∀ i x buf, xs[i]? = some x → start + i < buf.length → body (start + i) buf s = .ok (buf.set (start + i) x) s) →
      fillRange body start xs.length buf s = .ok (buf.take start ++ xs ++ buf.drop (start + xs.length)) s := by
  induction xs with
  | nil =>
    intro start buf _ _
    simp [fillRange]
  | cons x xs ih =>
    intro start buf hlen hbody
    rw [length_cons] at hlen
    have hlt : start < buf.length := by omega
    have hset : buf.set start x = buf.take start ++ x :: buf.drop (start + 1) := by
      rw [set_eq_take_append_cons_drop, if_pos hlt]
    have htake : (buf.set start x).take (start + 1) = buf.take start ++ [x] := by
      have hshort : (buf.take start).length = start := length_take_of_le (le_of_lt hlt)
      rw [hset, take_append, hshort, take_of_length_le (by omega), Nat.add_sub_cancel_left, take_succ_cons, take_zero]
    have hdrop : (buf.set start x).drop (start + 1 + xs.length) = buf.drop (start + (xs.length + 1)) := by
      rw [drop_set_of_lt (by omega)]
      congr 1
      omega
    have hfits : start + 1 + xs.length ≤ (buf.set start x).length := by
      rw [length_set]
      omega
    have hnext : ∀ i y b, xs[i]? = some y → start + 1 + i < b.length →
        body (start + 1 + i) b s = .ok (b.set (start + 1 + i) y) s := by
      intro i y b hy hb
      rw [add_assoc, add_comm 1 i] at hb ⊢
      exact hbody (i + 1) y b hy hb
    have hrest := ih (start + 1) hfits hnext
    have hfirst : body start buf s = .ok (buf.set start x) s := hbody 0 x buf rfl hlt
    simp only [length_cons, fillRange, Method.bind_apply, hfirst, Outcome.bind_ok, hrest, htake,
      hdrop, append_assoc, nil_append, cons_append]

/-- What every step keeps of the slice, if steps leave the state alone. -/
theorem fillRange_keeps {K : List α → Prop}
    (hbody : ∀ i b b' s', K b → body i b s = .ok b' s' → K b' ∧ s' = s) {buf' : List α} {s' : σ} :
    ∀ (len start : Nat) {buf : List α}, K buf → fillRange body start len buf s = .ok buf' s' → K buf' ∧ s' = s := by
  intro len
  induction len with
  | zero =>
    rintro start buf hK ⟨⟩
    exact ⟨hK, rfl⟩
  | succ len ih =>
    intro start buf hK h
    obtain ⟨b, t, hb, hrest⟩ := Outcome.bind_eq_ok.mp h
    obtain ⟨hK', rfl⟩ := hbody start buf b t hK hb
    exact ih (start + 1) hK' hrest

/-- A loop that succeeds has run all of its items. -/
theorem fillItems_of_ok (hitem : ∀ i x s', item i s = .ok x s' → s' = s) {buf' : List α} {s' : σ} :
    ∀ (len start : Nat) {buf : List α}, fillItems item start len buf s = .ok buf' s' →
      s' = s ∧ ∀ i, i < len → i < buf.length → ∃ x, item (start + i) s = .ok x s := by
  intro len
  induction len generalizing buf' s' with
  | zero =>
    rintro start buf ⟨⟩
    exact ⟨rfl, fun i hi => absurd hi (Nat.not_lt_zero i)⟩
  | succ len ih =>
    intro start buf h
    cases buf with
    | nil =>
      cases h
      exact ⟨rfl, fun i _ hi => absurd hi (Nat.not_lt_zero i)⟩
    | cons b buf =>
      obtain ⟨x, t, hx, hrest⟩ := Outcome.bind_eq_ok.mp h
      obtain rfl := hitem start x t hx
      obtain ⟨more, u, hmore, hlast⟩ := Outcome.bind_eq_ok.mp hrest
      obtain ⟨rfl, hitems⟩ := ih (start + 1) hmore
      cases hlast
      refine ⟨rfl, fun i hi hlen => ?_⟩
      cases i with
      | zero => exact ⟨x, hx⟩
      | succ i =>
        obtain ⟨y, hy⟩ := hitems i (Nat.lt_of_succ_lt_succ hi) (Nat.lt_of_succ_lt_succ hlen)
        exact ⟨y, by rwa [add_assoc, add_comm 1 i] at hy⟩

/-- A body that writes the items from place `k` of a list on. -/
theorem fillRange_drop (hn : k + n ≤ xs.length) (hbuf : n ≤ buf.length)
    (hbody : ∀ i x b, i < n → xs[k + i]? = some x → i < b.length → body i b s = .ok (b.set i x) s) :
    fillRange body 0 n buf s = .ok ((xs.drop k).take n ++ buf.drop n) s := by
  have hlen := length_take_drop hn
  have hread : ∀ i x b, ((xs.drop k).take n)[i]? = some x → 0 + i < b.length →
      body (0 + i) b s = .ok (b.set (0 + i) x) s := by
    intro i x b hx hb
    obtain ⟨hi, hx⟩ := getElem?_take_drop hx
    rw [zero_add] at hb ⊢
    exact hbody i x b hi hx hb
  have hfits : 0 + ((xs.drop k).take n).length ≤ buf.length := by
    rw [hlen, zero_add]
    exact hbuf
  have hfill := fillRange_eq_ok ((xs.drop k).take n) 0 hfits hread
  rwa [hlen, take_zero, zero_add] at hfill

end YlongHttp.Rust
