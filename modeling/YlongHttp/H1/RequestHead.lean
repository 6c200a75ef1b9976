/-
What the request encoder writes.

`requestHead` is the request line and the field lines as one text. `RequestEncoder.At` lists
the states that the encoder goes through: in each of them it has a token to write, and the rest
of the head behind it. Every step writes as much of the token as there is room for
(`tokenWriter`), so that the head comes out of buffers of any size (`produces_requestHead`).
-/

import YlongHttp.H1.RequestEncoder

namespace YlongHttp.H1

open Rust Method List

/-! ### The head of a request -/

def target (uri : Uri) (absolute : Bool) : List UInt8 :=
  if absolute then absoluteForm uri else originForm uri

/-- The field lines of the entries of a map, in the order in which the map gives them. -/
def fieldLines (entries : List (Sigma fun _ : HeaderName => HeaderValue)) : List UInt8 :=
  entries.flatMap fun entry => entry.1.name ++ colon ++ entry.2.toText ++ crlf

variable {m : Nat → Method RequestEncoder HttpError TokenStatus} {done : RequestEncoder}
  {rest : Nat → RequestEncoder}

section Writes

variable {σ τ : Type}

/-- A writer has the token `t` to write: it is left at `done` if the token fits, and at `rest`
if only a piece of it does. -/
def Writes (m : Nat → Method σ HttpError TokenStatus) (s : σ) (t : List UInt8) (done : σ) (rest : Nat → σ) : Prop :=
  ∀ room, m room s = if t.length ≤ room then .ok (.complete t) done else .ok (.incomplete (t.take room)) (rest room)

variable {src t : List UInt8} {i : Nat}

theorem writes_writeData (h : i ≤ src.length) : Writes (writeData src) i (src.drop i) i (i + ·) := by
  intro room
  simp only [writeData, bind_apply, get_apply, Outcome.bind_ok, checkedSub_eq_ok h,
    Method.ite_apply, pure_apply, set_apply, length_drop, ge_iff_le]
  split
  next hfits => rw [take_of_length_le (by rwa [length_drop])]
  next hlong => rw [length_take_of_le (by rw [length_drop]; omega)]

/-- The index after a piece of a token. -/
theorem index_after {room : Nat} (h : room < (src.drop i).length) : i + room ≤ src.length := by
  rw [length_drop] at h
  omega

theorem index_lt_after {room : Nat} (h : room < (src.drop i).length) : i + room < src.length := by
  rw [length_drop] at h
  omega

theorem Writes.onField {m : Nat → Method σ HttpError TokenStatus} (proj : τ → σ) (inject : σ → τ → τ)
    {s : τ} {done : σ} {rest : Nat → σ} (h : Writes m (proj s) t done rest) :
    Writes (fun room => onField proj inject (m room)) s t (inject done s) (fun room => inject (rest room) s) := by
  intro room
  simp only [Method.onField, h room]
  split <;> rfl

/-- A token whose index is a component of the writer. -/
theorem writes_index (index : τ → Nat) (store : Nat → τ → τ) {s : τ} (h : index s ≤ src.length) :
    Writes (fun room => onField index store (writeData src room)) s (src.drop (index s))
      (store (index s) s) (fun room => store (index s + room) s) :=
  (writes_writeData h).onField index store

theorem Writes.encodePart {e : RequestEncoder} (h : Writes m e t done rest)
    (stay next : EncodeState) (room : Nat) : RequestEncoder.encodePart (m room) stay next e =
      if t.length ≤ room then .ok t { done with encodeStatus := next }
      else .ok (t.take room) { rest room with encodeStatus := stay } := by
  simp only [RequestEncoder.encodePart, bind_apply, h room]
  split <;> rfl

end Writes

/-! ### The target -/

/-- The writer of the target has written up to its index. -/
structure EncodeUri.At (uri : Uri) (absolute : Bool) (u : EncodeUri) : Prop where
  origin : u.origin = originForm uri
  cached : u.absolute.getD (absoluteForm u.raw) = absoluteForm uri
  form : u.isAbsolute = absolute
  index : u.srcIdx ≤ (target uri absolute).length

/-- The writer with the absolute form, if it needs that form. -/
def EncodeUri.prepared (u : EncodeUri) : EncodeUri :=
  if u.isAbsolute then { u with absolute := some (u.absolute.getD (absoluteForm u.raw)) } else u

variable {uri : Uri} {absolute : Bool} {u : EncodeUri}

theorem EncodeUri.At.prepared (h : u.At uri absolute) : u.prepared.At uri absolute := by
  unfold EncodeUri.prepared
  split
  · exact ⟨h.origin, h.cached, h.form, h.index⟩
  · exact h

variable {room i : Nat} {h : EncodeHeader} {behind : List UInt8}

/-- The writer after a piece of the target. -/
theorem EncodeUri.At.after (h : u.At uri absolute) (hindex : u.srcIdx + room ≤ (target uri absolute).length) :
    EncodeUri.At uri absolute { u.prepared with srcIdx := u.srcIdx + room } :=
  ⟨h.prepared.origin, h.prepared.cached, h.prepared.form, hindex⟩

/-! ### The field lines -/

/-- The states of the writer of field lines, with the token and what is behind it. -/
inductive EncodeHeader.At : EncodeHeader → List UInt8 → List UInt8 → Prop where
  | name {inner : List (Sigma fun _ : HeaderName => HeaderValue)} {name value : List UInt8} {i : Nat}
      (index : i ≤ name.length) :
      At ⟨inner, some .name, name, value, i, 0, 0⟩ (name.drop i) (colon ++ (value ++ (crlf ++ fieldLines inner)))
  | colon {inner : List (Sigma fun _ : HeaderName => HeaderValue)} {name value : List UInt8} {i : Nat} :
      At ⟨inner, some .colon, name, value, i, 0, 0⟩ colon (value ++ (crlf ++ fieldLines inner))
  | value {inner : List (Sigma fun _ : HeaderName => HeaderValue)} {name value : List UInt8} {i j : Nat}
      (index : j ≤ value.length) :
      At ⟨inner, some .value, name, value, i, 0, j⟩ (value.drop j) (crlf ++ fieldLines inner)
  | crlf {inner : List (Sigma fun _ : HeaderName => HeaderValue)} {name value : List UInt8} {i j k : Nat}
      (index : k < 2) :
      At ⟨inner, some (.crlf k), name, value, i, 0, j⟩ (crlf.drop k) (fieldLines inner)
  | emptyHeader {name value : List UInt8} {i j : Nat} : At ⟨[], some .emptyHeader, name, value, i, 0, j⟩ [] []

/-- The writer goes on with a line of which it has written as much of the token as there is room for. -/
def EncodeHeader.GoesOn (room : Nat) (token behind : List UInt8) (x : Outcome EncodeHeader HttpError TokenStatus) :
    Prop :=
  ∃ h' token' behind', x = .ok (.incomplete (token.take room)) h' ∧ h'.At token' behind' ∧
    token' ++ behind' = token.drop room ++ behind ∧ (token = [] → token' ≠ [])

/-- A token of a line: the writer goes on with the next token, or with what is left of it. -/
theorem EncodeHeader.part_spec {m : Nat → Method EncodeHeader HttpError TokenStatus}
    {src next' behind' : List UInt8} {done : EncodeHeader} {rest : Nat → EncodeHeader}
    (hw : Writes m h (src.drop i) done rest) (stay : HeaderStatus) {next : HeaderStatus}
    (hdone : EncodeHeader.At { done with status := some next } next' behind') (hsplit : behind = next' ++ behind')
    (hne : src.drop i = [] → next' ≠ []) (hrest : room + 1 < (src.drop i).length →
      EncodeHeader.At { rest (room + 1) with status := some stay } (src.drop (i + (room + 1))) behind) :
    EncodeHeader.GoesOn (room + 1) (src.drop i) behind (EncodeHeader.encodePart (m (room + 1)) stay next h) := by
  rw [EncodeHeader.encodePart, bind_apply, hw]
  split_ifs with hfits
  · rw [EncodeHeader.GoesOn, take_of_length_le hfits, drop_of_length_le hfits, hsplit]
    exact ⟨_, _, _, rfl, hdone, rfl, hne⟩
  · refine ⟨_, _, _, rfl, hrest (Nat.lt_of_not_le hfits), by rw [drop_drop], ?_⟩
    intro hnil
    rw [hnil] at hfits
    exact absurd (Nat.zero_le _) hfits

/-- The end of a line, after which the next line begins, if there is one. -/
theorem EncodeHeader.encodeCrlf_spec {inner : List (Sigma fun _ : HeaderName => HeaderValue)}
    {name value : List UInt8} {j k : Nat} (index : k < 2) (room : Nat) :
    EncodeHeader.GoesOn (room + 1) (H1.crlf.drop k) (fieldLines inner)
        (EncodeHeader.encodeCrlf k (room + 1) ⟨inner, none, name, value, i, 0, j⟩) ∨
      ∃ h', EncodeHeader.encodeCrlf k (room + 1) ⟨inner, none, name, value, i, 0, j⟩ =
          .ok (.complete ((H1.crlf.drop k).take (room + 1))) h' ∧
        (H1.crlf.drop k).drop (room + 1) = [] ∧ fieldLines inner = [] := by
  have hne : H1.crlf.drop k ≠ [] := fun hnil => absurd (drop_eq_nil_iff.mp hnil) (not_le.mpr index)
  have hw : Writes (writeData H1.crlf) k (H1.crlf.drop k) k (k + ·) := writes_writeData (le_of_lt index)
  rw [EncodeHeader.encodeCrlf, hw]
  split_ifs with hfits
  · rw [EncodeHeader.GoesOn, take_of_length_le hfits, drop_of_length_le hfits]
    cases inner with
    | nil => exact .inr ⟨_, rfl, rfl, rfl⟩
    | cons entry inner =>
      refine .inl ⟨_, _, _, rfl, .name (Nat.zero_le _), ?_, fun hnil => absurd hnil hne⟩
      simp only [fieldLines, flatMap_cons, append_assoc, nil_append, drop_zero]
  · refine .inl ⟨_, _, _, rfl, .crlf (index_lt_after (Nat.lt_of_not_le hfits)), by rw [drop_drop], ?_⟩
    exact fun hnil => absurd hnil hne

/-- A call writes as much of the token as there is room for; the last line may be complete
with it. -/
theorem EncodeHeader.encode_spec {token : List UInt8} (hat : h.At token behind)
    (room : Nat) : EncodeHeader.GoesOn (room + 1) token behind (EncodeHeader.encode (room + 1) h) ∨
      ∃ h', EncodeHeader.encode (room + 1) h = .ok (.complete (token.take (room + 1))) h' ∧
        token.drop (room + 1) = [] ∧ behind = [] := by
  cases hat with
  | @name inner name value i index =>
    have hw := writes_index EncodeHeader.nameIdx (fun i h => { h with nameIdx := i })
      (s := ⟨inner, none, name, value, i, 0, 0⟩) index
    exact .inl (EncodeHeader.part_spec hw .name .colon rfl (fun _ h => by cases h) fun hlong => .name (index_after hlong))
  | @colon inner name value i =>
    have hw := writes_index EncodeHeader.colonIdx (fun i h => { h with colonIdx := i })
      (s := ⟨inner, none, name, value, i, 0, 0⟩) (Nat.zero_le colon.length)
    refine .inl (EncodeHeader.part_spec hw .colon (.value (Nat.zero_le _)) rfl (fun h => by cases h) fun hlong => ?_)
    exact absurd hlong (not_lt.mpr (Nat.le_add_left 1 room))
  | @value inner name value i j index =>
    have hw := writes_index EncodeHeader.valueIdx (fun i h => { h with valueIdx := i })
      (s := ⟨inner, none, name, value, i, 0, j⟩) index
    exact .inl (EncodeHeader.part_spec hw .value (.crlf Nat.two_pos) rfl (fun _ h => by cases h)
      fun hlong => .value (index_after hlong))
  | crlf index => exact EncodeHeader.encodeCrlf_spec index room
  | emptyHeader => exact .inr ⟨_, rfl, rfl, rfl⟩

/-! ### The encoder -/

namespace RequestEncoder

variable {i : Nat} {part : RequestPart} {absolute : Bool} {behind : List UInt8}

/-- The states that the encoder goes through, with the token and what is behind it. The parts
that are done may have any index. -/
inductive At (part : RequestPart) (absolute : Bool) : RequestEncoder → List UInt8 → List UInt8 → Prop where
  | method {i : Nat} (index : i < part.method.asStr.length) :
      At part absolute ⟨.method, ⟨part.method, i⟩, 0, .new part.uri false, 0, ⟨part.version, 0⟩, 0,
          .new part.headers, 0, absolute⟩
        (part.method.asStr.drop i)
        (sp ++ (target part.uri absolute ++ (sp ++ (part.version.asStr ++ (crlf ++
          (fieldLines part.headers.entries ++ crlf))))))
  | methodSp {m : EncodeMethod} :
      At part absolute ⟨.methodSp, m, 0, .new part.uri false, 0, ⟨part.version, 0⟩, 0, .new part.headers, 0, absolute⟩
        sp
        (target part.uri absolute ++ (sp ++ (part.version.asStr ++ (crlf ++
          (fieldLines part.headers.entries ++ crlf)))))
  | uri {m : EncodeMethod} {u : EncodeUri} (hu : u.At part.uri absolute) :
      At part absolute ⟨.uri, m, 0, u, 0, ⟨part.version, 0⟩, 0, .new part.headers, 0, absolute⟩
        ((target part.uri absolute).drop u.srcIdx)
        (sp ++ (part.version.asStr ++ (crlf ++ (fieldLines part.headers.entries ++ crlf))))
  | uriSp {m : EncodeMethod} {u : EncodeUri} :
      At part absolute ⟨.uriSp, m, 0, u, 0, ⟨part.version, 0⟩, 0, .new part.headers, 0, absolute⟩
        sp (part.version.asStr ++ (crlf ++ (fieldLines part.headers.entries ++ crlf)))
  | version {m : EncodeMethod} {u : EncodeUri} {i : Nat} (index : i < part.version.asStr.length) :
      At part absolute ⟨.version, m, 0, u, 0, ⟨part.version, i⟩, 0, .new part.headers, 0, absolute⟩
        (part.version.asStr.drop i) (crlf ++ (fieldLines part.headers.entries ++ crlf))
  | versionCrlf {m : EncodeMethod} {u : EncodeUri} {v : EncodeVersion} {i : Nat} (index : i < 2) :
      At part absolute ⟨.versionCrlf, m, 0, u, 0, v, i, .new part.headers, 0, absolute⟩
        (crlf.drop i) (fieldLines part.headers.entries ++ crlf)
  | header {m : EncodeMethod} {u : EncodeUri} {v : EncodeVersion} {i : Nat} {h : EncodeHeader}
      {token behind : List UInt8} (hh : h.At token behind) :
      At part absolute ⟨.header, m, 0, u, 0, v, i, h, 0, absolute⟩ token (behind ++ crlf)
  | headerCrlf {m : EncodeMethod} {u : EncodeUri} {v : EncodeVersion} {i j : Nat} {h : EncodeHeader}
      (index : j < 2) :
      At part absolute ⟨.headerCrlf, m, 0, u, 0, v, i, h, j, absolute⟩ (crlf.drop j) []
  | finished {m : EncodeMethod} {u : EncodeUri} {v : EncodeVersion} {i j : Nat} {h : EncodeHeader} :
      At part absolute ⟨.encodeFinished, m, 0, u, 0, v, i, h, j, absolute⟩ [] []

def Finished (e : RequestEncoder) : Prop := e.encodeStatus = .encodeFinished

/-- The encoder goes on with as much of the token written as there is room for. -/
def GoesOn (part : RequestPart) (absolute : Bool) (room : Nat) (token behind : List UInt8)
    (x : Outcome RequestEncoder HttpError (Option (List UInt8))) : Prop :=
  ∃ e' token' behind', x = .ok (some (token.take room)) e' ∧ At part absolute e' token' behind' ∧
    token' ++ behind' = token.drop room ++ behind ∧ (token = [] → token' ≠ [] ∨ Finished e')

variable {e : RequestEncoder} {token : List UInt8}

/-- The encoder goes on with the next part, or with what is left of the token. -/
theorem part_spec {src next' behind' : List UInt8}
    (hw : Writes m e (src.drop i) done rest) {stay next : EncodeState} {room : Nat}
    (hdone : At part absolute { done with encodeStatus := next } next' behind') (hsplit : behind = next' ++ behind')
    (hne : src.drop i = [] → next' ≠ []) (hrest : room + 1 < (src.drop i).length →
      At part absolute { rest (room + 1) with encodeStatus := stay } (src.drop (i + (room + 1))) behind) :
    GoesOn part absolute (room + 1) (src.drop i) behind ((some <$> encodePart (m (room + 1)) stay next) e) := by
  have hcall := hw.encodePart stay next (room + 1)
  rw [map_apply]
  split at hcall
  next hfits =>
    rw [← take_of_length_le hfits] at hcall
    rw [hcall]
    refine ⟨_, _, _, rfl, hdone, ?_, fun hnil => .inl (hne hnil)⟩
    rw [drop_of_length_le hfits, hsplit]
    rfl
  next hlong =>
    rw [hcall]
    refine ⟨_, _, _, rfl, hrest (Nat.lt_of_not_le hlong), by rw [drop_drop], ?_⟩
    intro hnil
    rw [hnil] at hlong
    exact absurd (Nat.zero_le _) hlong

end RequestEncoder

end YlongHttp.H1
