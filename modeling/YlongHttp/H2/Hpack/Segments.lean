/-
Header blocks cut into segments.

A reader that stops for want of bytes leaves a state, and it `Resumes` if going on from
that state with the bytes that follow is the same as reading all bytes at once. Every
reader of representations resumes, so calls of `decode` on the segments of a block do
what one call on the block does (`decodeSegments_eq`), wherever the block is cut.
-/

import YlongHttp.Huffman.Accepted
import YlongHttp.H2.Hpack.Safety
import YlongHttp.H2.Hpack.Session

namespace YlongHttp.H2.Hpack

open Rust Method List

/-! ### Readers that resume -/

section Resume

variable {β γ τ υ : Type}

/-- What a reader returned or left in its buffer, as far as it is used: nothing reads
the bytes that an error leaves. -/
def settle : Outcome (List UInt8) H2Error β → Outcome (List UInt8) H2Error β
  | .ok v rest => .ok v rest
  | .err e _ => .err e []
  | .panic => .panic

/-- Go on with the bytes `b` after the outcome of reading those before them. -/
def resume (next : τ → Decoding (DecResult β τ)) (b : List UInt8) :
    Outcome (List UInt8) H2Error (DecResult β τ) → Outcome (List UInt8) H2Error (DecResult β τ)
  | .ok (.decoded v) rest => .ok (.decoded v) (rest ++ b)
  | .ok (.needMore s) _ => next s b
  | .err e rest => .err e rest
  | .panic => .panic

/-- Reading with `m`, and from the state it leaves with `next`, does not depend on where
the bytes are cut. -/
def Resumes (next : τ → Decoding (DecResult β τ)) (m : Decoding (DecResult β τ)) : Prop :=
  ∀ a b, settle (m (a ++ b)) = settle (resume next b (m a))

theorem settle_bind_settle (x : Outcome (List UInt8) H2Error β)
    (f : β → List UInt8 → Outcome (List UInt8) H2Error γ) : settle ((settle x).bind f) = settle (x.bind f) := by
  cases x <;> rfl

variable {next : τ → Decoding (DecResult β τ)} {next' : υ → Decoding (DecResult γ υ)}

theorem resumes_decoded (v : β) : Resumes next (pure (.decoded v)) := fun _ _ => rfl

theorem resumes_throw (e : H2Error) : Resumes next (throw e) := fun _ _ => rfl

variable {m : Decoding (DecResult β τ)}

/-- A reader that goes on after the result of another one and wraps its state resumes
from the wrapped state. -/
theorem Resumes.bind {k : DecResult β τ → Decoding (DecResult γ υ)}
    {w : τ → υ} (hm : Resumes next m) (hdecoded : ∀ v, Resumes next' (k (.decoded v)))
    (hmore : ∀ s, k (.needMore s) = pure (.needMore (w s)))
    (hnext : ∀ s, next' (w s) = next s >>= k) : Resumes next' (m >>= k) := by
  intro a b
  rw [bind_apply, bind_apply, ← settle_bind_settle, hm a b, settle_bind_settle]
  cases m a with
  | ok r rest =>
    cases r with
    | decoded v => exact hdecoded v rest b
    | needMore s => simp only [resume, Outcome.bind_ok, hmore, pure_apply, hnext, bind_apply]
  | err | panic => rfl

/-- A reader that waits for its first byte resumes if it does so after any first byte. -/
theorem resumes_of_cons {s : τ} (hnil : m [] = .ok (.needMore s) [])
    (hnext : next s = m) (hcons : ∀ byte, Resumes next fun buf => m (byte :: buf)) : Resumes next m := by
  intro a b
  cases a with
  | nil => rw [nil_append, hnil, resume, hnext]
  | cons byte a => exact hcons byte a b

end Resume

/-! ### The states of the decoder -/

theorem resumes_decodeTrailing (int : IntegerDecoder) : Resumes IntegerDecoder.decodeTrailing int.decodeTrailing := by
  intro a b
  induction a generalizing int with
  | nil => rfl
  | cons byte a ih =>
    simp only [cons_append, IntegerDecoder.decodeTrailing_apply, IntegerDecoder.trailingLoop] at ih ⊢
    split
    · exact ih _
    · rfl
    · rfl

theorem resumes_ascii (s : AsciiStringBytes) : Resumes LiteralString.decode s.decode := by
  intro a b
  by_cases ha : s.length ≤ a.length + s.octets.length
  · have hpos : s.length - s.octets.length ≤ a.length := by omega
    rw [ascii_of_le ha, ascii_of_le (by rw [length_append]; omega),
      take_append_of_le_length hpos, drop_append_of_le_length hpos]
    rfl
  · have hstop : s.decode a = .ok (.needMore (.asciiStringBytes ⟨s.octets ++ a, s.length, by
        rw [length_append]
        omega⟩)) [] := by
      rw [AsciiStringBytes.decode, dif_neg ha]
    rw [hstop, resume, LiteralString.decode]
    by_cases hab : s.length ≤ (a ++ b).length + s.octets.length
    · have hab' := hab
      rw [length_append] at hab'
      rw [ascii_of_le hab, ascii_of_le (by simp only [length_append]; omega)]
      simp only [length_append, take_append, drop_append, append_assoc,
        take_of_length_le (show a.length ≤ s.length - s.octets.length by omega),
        drop_eq_nil_of_le (show a.length ≤ s.length - s.octets.length by omega),
        nil_append, Nat.sub_sub]
    · rw [AsciiStringBytes.decode, dif_neg hab, AsciiStringBytes.decode, dif_neg (by
        simp only [length_append] at hab ⊢
        omega)]
      simp only [append_assoc]

theorem decode_append (d : Huffman.HuffmanDecoder) (a b : List UInt8) :
    d.decode (a ++ b) = d.decode a >>= fun d => d.decode b :=
  Huffman.decodeInner_append a b d

theorem huffman_of_lt {s : HuffmanStringBytes} {a : List UInt8} (h : ¬ s.length ≤ a.length + s.read)
    (hle : s.read + a.length ≤ s.length) : s.decode a = match s.huffman.decode a with
    | .error _ => .err (.connectionError .compressionError) a
    | .ok huffman => .ok (.needMore (.huffmanStringBytes ⟨huffman, s.read + a.length, s.length, hle⟩)) [] := by
  rw [HuffmanStringBytes.decode]
  exact dif_neg h

theorem resumes_huffman (s : HuffmanStringBytes) : Resumes LiteralString.decode s.decode := by
  intro a b
  by_cases ha : s.length ≤ a.length + s.read
  · have hpos : s.length - s.read ≤ a.length := by omega
    rw [huffman_of_le ha, huffman_of_le (by rw [length_append]; omega),
      take_append_of_le_length hpos, drop_append_of_le_length hpos]
    split
    · rfl
    · split <;> rfl
  · rw [huffman_of_lt ha (by omega)]
    by_cases hab : s.length ≤ (a ++ b).length + s.read
    · have hab' := hab
      rw [length_append] at hab'
      have htake : (a ++ b).take (s.length - s.read) = a ++ b.take (s.length - (s.read + a.length)) := by
        rw [take_append, take_of_length_le (by omega), Nat.sub_sub]
      have hdrop : (a ++ b).drop (s.length - s.read) = b.drop (s.length - (s.read + a.length)) := by
        rw [drop_append, drop_eq_nil_of_le (by omega), Nat.sub_sub, nil_append]
      rw [huffman_of_le hab, htake, hdrop, decode_append]
      cases s.huffman.decode a with
      | error e => rfl
      | ok huffman =>
        simp only [bind, Except.bind, resume, LiteralString.decode]
        rw [huffman_of_le (by simp only; omega)]
        cases huffman.decode (b.take (s.length - (s.read + a.length))) <;> rfl
    · rw [HuffmanStringBytes.decode, dif_neg hab, decode_append]
      cases s.huffman.decode a with
      | error e => rfl
      | ok huffman =>
        simp only [bind, Except.bind, resume, LiteralString.decode]
        rw [HuffmanStringBytes.decode, dif_neg (by
          simp only [length_append] at hab ⊢
          omega)]
        cases huffman.decode b with
        | error e => rfl
        | ok huffman => simp only [length_append, Nat.add_assoc]

variable (inner : IndexInner) (isHuffman : Bool) (repr : PrefixBit) (a b : List UInt8) (d : HpackDecoder)

theorem resumes_decodeOctets (length : Nat) :
    Resumes LiteralString.decode (LiteralString.decodeOctets isHuffman length) := by
  cases isHuffman
  · exact resumes_ascii _
  · exact resumes_huffman _

theorem resumes_lengthTrailingBytes (length : IntegerDecoder) :
    Resumes LiteralString.decode (LengthTrailingBytes.decode isHuffman length) :=
  (resumes_decodeTrailing length).bind (fun _ => resumes_decodeOctets _ _) (fun _ => rfl) fun _ => rfl

theorem resumes_literalString (s : LiteralString) : Resumes LiteralString.decode s.decode := by
  cases s with
  | lengthFirstByte =>
    refine resumes_of_cons rfl rfl fun byte => ?_
    simp only [LiteralString.decode, LengthFirstByte.decode]
    split
    · exact resumes_decodeOctets _ _
    · exact resumes_lengthTrailingBytes _ _
  | lengthTrailingBytes isHuffman length => exact resumes_lengthTrailingBytes isHuffman length
  | asciiStringBytes s => exact resumes_ascii s
  | huffmanStringBytes s => exact resumes_huffman s

theorem resumes_trailingBytes (index : IntegerDecoder) :
    Resumes IndexInner.decode (TrailingBytes.decode repr index) :=
  (resumes_decodeTrailing index).bind (fun _ => resumes_decoded _) (fun _ => rfl) fun _ => rfl

theorem resumes_indexInner : Resumes IndexInner.decode inner.decode := by
  cases inner with
  | firstByte =>
    refine resumes_of_cons rfl rfl fun byte => ?_
    simp only [IndexInner.decode, FirstByte.decode]
    split
    · exact resumes_decoded _
    · exact resumes_trailingBytes _ _
  | trailingBytes repr index => exact resumes_trailingBytes repr index

theorem resumes_valueString (name : Name) (inner : LiteralString) :
    Resumes ReprDecodeState.decode (ValueString.decode repr name inner) := by
  refine (resumes_literalString inner).bind (w := .valueString repr name) (fun value => ?_)
    (fun inner => ?_) fun _ => rfl
  · cases repr <;> exact resumes_decoded _
  · cases repr <;> rfl

theorem resumes_nameString (inner : LiteralString) : Resumes ReprDecodeState.decode (NameString.decode repr inner) :=
  (resumes_literalString inner).bind (fun _ => resumes_valueString _ _ _) (fun _ => rfl) fun _ => rfl

theorem resumes_index : Resumes ReprDecodeState.decode (Index.decode inner) := by
  refine (resumes_indexInner inner).bind (fun found => ?_) (fun _ => rfl) fun _ => rfl
  obtain ⟨repr, index⟩ := found
  by_cases hzero : index = 0
  · cases repr <;> simp only [hzero, ↓reduceIte]
    · exact resumes_throw _
    all_goals first | exact resumes_decoded _ | exact resumes_nameString _ _
  · cases repr <;> simp only [hzero, ↓reduceIte]
    all_goals first | exact resumes_decoded _ | exact resumes_valueString _ _ _

theorem resumes_decode (state : ReprDecodeState) : Resumes ReprDecodeState.decode state.decode := by
  cases state with
  | index inner => exact resumes_index inner
  | nameString repr inner => exact resumes_nameString repr inner
  | valueString repr name inner => exact resumes_valueString repr name inner

/-! ### Calls on segments -/

/-- What the loop does with the outcome of reading a representation. -/
def proceed (fuel : Nat) (d : HpackDecoder) :
    Outcome (List UInt8) H2Error (DecResult Representation ReprDecodeState) → Outcome HpackDecoder H2Error Unit
  | .ok (.needMore state) _ => .ok () { d with holder := some state }
  | .ok (.decoded repr) buf => (Updater.update repr d).bind fun _ => HpackDecoder.decodeLoop fuel ⟨buf, none⟩
  | .err e _ => .err e d
  | .panic => .panic

theorem proceed_settle (fuel : Nat) (d : HpackDecoder)
    (x : Outcome (List UInt8) H2Error (DecResult Representation ReprDecodeState)) :
    proceed fuel d (settle x) = proceed fuel d x := by
  cases x <;> rfl

theorem decodeLoop_succ {buf : List UInt8} (hbuf : buf ≠ []) (fuel : Nat) (state : Option ReprDecodeState)
    (d : HpackDecoder) : HpackDecoder.decodeLoop (fuel + 1) ⟨buf, state⟩ d =
      proceed fuel d ((state.getD (.index .firstByte)).decode buf) := by
  rw [HpackDecoder.decodeLoop, ReprDecoder.decode, if_neg (by simpa using hbuf)]
  cases (state.getD (.index .firstByte)).decode buf with
  | ok r rest => cases r <;> rfl
  | err | panic => rfl

/-- The loop does not depend on its fuel. -/
theorem decodeLoop_fuel {fuel : Nat} : ∀ {fuel' : Nat} {r : ReprDecoder} {d : HpackDecoder},
    r.measure ≤ fuel → r.measure ≤ fuel' → HpackDecoder.decodeLoop fuel r d = HpackDecoder.decodeLoop fuel' r d := by
  have hpos : ∀ r : ReprDecoder, 0 < r.measure := by
    intro r
    unfold ReprDecoder.measure
    split <;> omega
  induction fuel with
  | zero =>
    intro fuel' r d h _
    exact absurd h (Nat.not_le_of_lt (hpos r))
  | succ fuel ih =>
    intro fuel' r d h h'
    cases fuel' with
    | zero => exact absurd h' (Nat.not_le_of_lt (hpos r))
    | succ fuel' =>
      rw [HpackDecoder.decodeLoop, HpackDecoder.decodeLoop]
      cases hread : r.decode with
      | ok found r' =>
        cases found with
        | none => rfl
        | some repr =>
          have hless := measure_lt hread
          simp only [bind_apply]
          cases Updater.update repr d with
          | ok u d' => exact ih (by omega) (by omega)
          | err | panic => rfl
      | err | panic => rfl

theorem update_holder {repr : Representation} {d d' : HpackDecoder} {u : Unit}
    (h : Updater.update repr d = .ok u d') : d'.holder = d.holder := by
  rw [update_eq_apply] at h
  cases hline : repr.line d.table with
  | field f table =>
    rw [hline] at h
    obtain ⟨parts, -, rfl⟩ := Line.apply_field_ok h
    rfl
  | resize table =>
    rw [hline] at h
    cases h
    rfl
  | unknown =>
    rw [hline] at h
    cases h

theorem measure_append (state : Option ReprDecodeState) :
    (ReprDecoder.mk (a ++ b) state).measure = (ReprDecoder.mk a state).measure + b.length := by
  simp only [ReprDecoder.measure, length_append]
  omega

/-- One cut: the loop over all bytes is the loop over those before the cut and a call
on those after it. -/
theorem decodeLoop_append {b : List UInt8} (hb : b ≠ []) {fuel : Nat} :
    ∀ {a : List UInt8} {state : Option ReprDecodeState} {d : HpackDecoder},
      (ReprDecoder.mk (a ++ b) state).measure ≤ fuel → d.holder = none →
      HpackDecoder.decodeLoop fuel ⟨a ++ b, state⟩ d =
        (HpackDecoder.decodeLoop fuel ⟨a, state⟩ d).bind fun _ d => d.decode b := by
  induction fuel with
  | zero =>
    intro a state d hfuel _
    unfold ReprDecoder.measure at hfuel
    split at hfuel <;> omega
  | succ fuel ih =>
    intro a state d hfuel hholder
    -- The call after the cut takes the state out of the holder.
    have hcall : ∀ state, (ReprDecoder.mk b state).measure ≤ fuel + 1 →
        HpackDecoder.decode b { d with holder := state } = HpackDecoder.decodeLoop (fuel + 1) ⟨b, state⟩ d := by
      intro state hstate
      have hd : ({ d with holder := none } : HpackDecoder) = d := by
        rw [← hholder]
      rw [HpackDecoder.decode, hd]
      refine decodeLoop_fuel ?_ hstate
      unfold ReprDecoder.measure
      split <;> simp
    cases a with
    | nil =>
      exact (hcall state hfuel).symm
    | cons byte a =>
      rw [decodeLoop_succ (by simp), decodeLoop_succ (by simp), ← proceed_settle, resumes_decode, proceed_settle]
      cases hread : (state.getD (.index .firstByte)).decode (byte :: a) with
      | ok r rest =>
        cases r with
        | decoded repr =>
          have hless : (ReprDecoder.mk rest none).measure < (ReprDecoder.mk (byte :: a) state).measure := by
            exact measure_lt (show ReprDecoder.decode ⟨byte :: a, state⟩ = .ok (some repr) ⟨rest, none⟩ by
              simp [ReprDecoder.decode, hread])
          rw [measure_append] at hfuel
          simp only [resume, proceed]
          cases hupdate : Updater.update repr d with
          | ok u d' =>
            refine ih ?_ ((update_holder hupdate).trans hholder)
            rw [measure_append]
            omega
          | err | panic => rfl
        | needMore state' =>
          have hstate : (ReprDecoder.mk b (some state')).measure ≤ fuel + 1 := by
            simp only [ReprDecoder.measure, length_append, length_cons] at hfuel ⊢
            split at hfuel <;> simp <;> omega
          rw [resume, proceed, Outcome.bind_ok, hcall _ hstate, decodeLoop_succ hb, Option.getD_some]
      | err | panic => rfl

theorem decode_append_eq : d.decode (a ++ b) = (d.decode a).bind fun _ d => d.decode b := by
  by_cases hb : b = []
  · rw [hb, append_nil]
    cases d.decode a <;> rfl
  · rw [HpackDecoder.decode, decodeLoop_append hb _ rfl]
    · congr 1
      refine decodeLoop_fuel ?_ ?_
      all_goals
        simp only [ReprDecoder.measure, length_append]
        split <;> omega
    · unfold ReprDecoder.measure
      split <;> simp

/-- Calls of `decode`, one for each segment. -/
def decodeSegments : List (List UInt8) → Method HpackDecoder H2Error Unit
  | [] => pure ()
  | segment :: segments => do
    HpackDecoder.decode segment
    decodeSegments segments

theorem decodeSegments_eq (segments : List (List UInt8)) (d : HpackDecoder) :
    decodeSegments segments d = d.decode segments.flatten := by
  induction segments generalizing d with
  | nil => rfl
  | cons segment segments ih =>
    rw [flatten_cons, decode_append_eq, decodeSegments, bind_apply]
    congr 1
    funext _ d
    exact ih d

/-- A block that is decoded in segments and finished gives the parts or the error, and
leaves the decoder with the dynamic table, that decoding it in one call does, whatever
the decoder has decoded before. -/
theorem finish_decodeSegments (segments : List (List UInt8)) (d : HpackDecoder) :
    (decodeSegments segments >>= fun _ => HpackDecoder.finish : Method _ _ _) d = decodeBlock segments.flatten d := by
  rw [bind_apply, decodeSegments_eq]
  rfl

end YlongHttp.H2.Hpack
