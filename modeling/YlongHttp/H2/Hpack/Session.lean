/-
One encoder and one decoder over a sequence of header blocks.

`receive` is what reading the representation of a field does to a decoder whose
dynamic table is the encoder's: the decoder gets `sent table f`, which is `f`
unless the encoder gave a dynamic entry that has only the name of `f`. Decoding a
block is receiving its fields one after another (`decode_block`), and the parts
that come out show exactly the sent fields (`Shows`).
-/

import YlongHttp.H2.Hpack.Fields
import YlongHttp.H2.Hpack.Line
import YlongHttp.H2.Hpack.RoundTrip

namespace YlongHttp.H2.Hpack

open Rust Method Outcome List

/-! ### One field -/

/-- The dynamic table after a field. -/
def tableAfter (table : DynamicTable) (f : Field) : DynamicTable :=
  match TableSearcher.index table f.1 f.2 with
  | some (.header _) => table
  | _ => table.update f.1 f.2

theorem represent_snd (useHuffman : Bool) (table : DynamicTable) (f : Field) :
    (represent useHuffman table f).2 = tableAfter table f := by
  unfold represent tableAfter
  cases TableSearcher.index table f.1 f.2 with
  | none => rfl
  | some found => cases found <;> rfl

section

variable (table : DynamicTable) (f : Field)

@[simp] theorem maxSize_tableAfter : (tableAfter table f).maxSize = table.maxSize := by
  unfold tableAfter
  split <;> rfl

/-- The field the decoder gets. -/
def sent (table : DynamicTable) (f : Field) : Field :=
  match TableSearcher.index table f.1 f.2 with
  | some (.header index) => (TableSearcher.searchHeader table index).getD f
  | _ => f

/-- The decoder gets a field of the right name, and the field itself unless the
encoder gave an entry that has only the name. -/
theorem sent_spec : (sent table f).1 = f.1 ∧ (sent table f = f ↔ ¬ NameOnlyHit table f) := by
  have hindex := index_spec table f
  unfold sent
  cases hfound : TableSearcher.index table f.1 f.2 with
  | none =>
    rw [hfound] at hindex
    cases hindex with
    | unknown other miss => exact ⟨rfl, fun _ => miss, fun _ => rfl⟩
  | some found =>
    rw [hfound] at hindex
    cases hindex with
    | known bound pos found miss =>
      simp only [found, Option.getD_some]
      exact ⟨trivial, fun _ => miss, fun _ => trivial⟩
    | named bound pos found miss => exact ⟨rfl, fun _ => miss, fun _ => rfl⟩
    | nameOnly bound pos found differs hit =>
      simp only [found, Option.getD_some]
      refine ⟨trivial, fun heq => ?_, fun miss => absurd hit miss⟩
      exact absurd (congrArg Prod.snd heq) differs

/-- What reading the representation of a field does. -/
def receive (table : DynamicTable) (f : Field) : Method HpackDecoder H2Error Unit :=
  (Line.field (sent table f) (tableAfter table f)).apply

theorem line_represented : (represented table f).line table = .field (sent table f) (tableAfter table f) := by
  have hindex := index_spec table f
  unfold represented sent tableAfter
  cases hfound : TableSearcher.index table f.1 f.2 with
  | none =>
    rw [hfound] at hindex
    cases hindex with
    | unknown other miss =>
      obtain ⟨h, v⟩ := f
      subst other
      rfl
  | some found =>
    rw [hfound] at hindex
    cases hindex with
    | known _ _ found | nameOnly _ _ found => simp only [Representation.line, found, Option.getD_some]
    | named _ _ found => simp only [Representation.line, Name.resolve, found]

end

variable {table : DynamicTable} {d : HpackDecoder} {fields : List Field} {useHuffman : Bool} {limit : Nat}

theorem update_represented {f : Field}
    (hd : d.table = table) : Updater.update (represented table f) d = receive table f d := by
  rw [update_eq_apply, hd, line_represented, receive]

/-! ### One block -/

/-- The fields the decoder gets for those of a block. -/
def sentAll : DynamicTable → List Field → List Field
  | _, [] => []
  | table, f :: fields => sent table f :: sentAll (tableAfter table f) fields

def receiveAll : DynamicTable → List Field → Method HpackDecoder H2Error Unit
  | _, [] => pure ()
  | table, f :: fields => do
    receive table f
    receiveAll (tableAfter table f) fields

theorem receiveAll_ok : ∀ (table : DynamicTable) {d d' : HpackDecoder} {u : Unit}, d.table = table →
      receiveAll table fields d = .ok u d' →
      ∃ parts, Parts.updateAll d.lines.parts (sentAll table fields) = some parts ∧
        d'.table = fields.foldl tableAfter table ∧ d'.lines.parts = parts ∧
        d'.holder = d.holder ∧ d'.headerListSize = d.headerListSize := by
  induction fields with
  | nil =>
    rintro table d d' u hd ⟨⟩
    exact ⟨_, rfl, hd, rfl, rfl, rfl⟩
  | cons f fields ih =>
    intro table d d' u _ h
    rw [receiveAll, bind_apply, bind_eq_ok] at h
    obtain ⟨u₁, d₁, hfirst, hrest⟩ := h
    obtain ⟨parts₁, hparts₁, rfl⟩ := Line.apply_field_ok hfirst
    obtain ⟨parts, hparts, htable, hlines, hholder, hlimit⟩ :=
      ih (tableAfter table f) rfl hrest
    refine ⟨parts, ?_, htable, hlines, hholder, hlimit⟩
    rw [sentAll, Parts.updateAll, hparts₁]
    exact hparts

theorem block_snd (useHuffman : Bool) (fields : List Field) :
    ∀ table, (block useHuffman table fields).2 = fields.foldl tableAfter table := by
  induction fields with
  | nil =>
    intro table
    rfl
  | cons f fields ih =>
    intro table
    rw [foldl_cons, ← represent_snd useHuffman]
    exact ih _

theorem octets_ne_nil (i : Nat) (mask pre : UInt8) : (IntegerEncoder.new i mask pre).octets ≠ [] := by
  by_cases h : i < mask.toNat <;> simp [IntegerEncoder.octets, IntegerEncoder.new, h]

theorem represent_octets_ne_nil (useHuffman : Bool) (table : DynamicTable) (f : Field) :
    (represent useHuffman table f).1.octets ≠ [] := by
  unfold represent
  split
  · exact octets_ne_nil _ _ _
  · rename_i index _
    exact fun h => octets_ne_nil index 0x3f 0x40 (append_eq_nil_iff.mp h).1
  · exact fun h => octets_ne_nil 0 0x3f 0x40 (append_eq_nil_iff.mp h).1

/-- Reading the bytes of a block is receiving its fields. -/
theorem decodeLoop_block : ∀ {fuel : Nat} {table : DynamicTable} {d : HpackDecoder},
      (block useHuffman table fields).1.length < fuel → table.maxSize < usizeSize →
      (∀ f ∈ fields, Encodable useHuffman f) → d.table = table → d.holder = none →
      HpackDecoder.decodeLoop fuel ⟨(block useHuffman table fields).1, none⟩ d = receiveAll table fields d := by
  induction fields with
  | nil =>
    intro fuel table d hfuel _ _ _ hholder
    cases fuel with
    | zero => exact absurd hfuel (Nat.not_lt_zero _)
    | succ fuel =>
      obtain ⟨limit, table', lines, holder⟩ := d
      subst hholder
      simp [HpackDecoder.decodeLoop, block, ReprDecoder.decode, receiveAll]
  | cons f fields ih =>
    intro fuel table d hfuel hsize henc hd hholder
    cases fuel with
    | zero => exact absurd hfuel (Nat.not_lt_zero _)
    | succ fuel =>
      have hne := represent_octets_ne_nil useHuffman table f
      have hpos := length_pos_iff.mpr hne
      have hread := decode_represent hsize (henc f (mem_cons_self ..))
        (block useHuffman (represent useHuffman table f).2 fields).1
      rw [block, length_append] at hfuel
      have hdecode : ReprDecoder.decode ⟨(block useHuffman table (f :: fields)).1, none⟩ =
          .ok (some (represented table f))
            ⟨(block useHuffman (represent useHuffman table f).2 fields).1, none⟩ := by
        have hbuf : (block useHuffman table (f :: fields)).1 ≠ [] :=
          fun h => hne (append_eq_nil_iff.mp h).1
        simp only [ReprDecoder.decode]
        rw [if_neg (by simp [hbuf])]
        simp only [Option.getD_none, block, hread]
      simp only [HpackDecoder.decodeLoop, hdecode, bind_apply, update_represented hd, receiveAll]
      cases hreceive : receive table f d with
      | ok u d' =>
        obtain ⟨parts, hparts, rfl⟩ := Line.apply_field_ok hreceive
        simp only [bind_ok, represent_snd] at hfuel ⊢
        exact ih (by omega) (by rw [maxSize_tableAfter]; exact hsize)
          (fun g hg => henc g (mem_cons_of_mem _ hg)) rfl hholder
      | err | panic => rfl

/-- No field is encoded for which the encoder would give an entry that has only its
name. -/
def NeverNameOnlyHit : DynamicTable → List Field → Prop
  | _, [] => True
  | table, f :: fields => ¬ NameOnlyHit table f ∧ NeverNameOnlyHit (tableAfter table f) fields

theorem sentAll_names (fields : List Field) : ∀ table, (sentAll table fields).map Prod.fst = fields.map Prod.fst := by
  induction fields with
  | nil =>
    intro table
    rfl
  | cons f fields ih =>
    intro table
    rw [sentAll, map_cons, map_cons, (sent_spec table f).1, ih]

theorem sentAll_eq_iff (fields : List Field) :
    ∀ table, sentAll table fields = fields ↔ NeverNameOnlyHit table fields := by
  induction fields with
  | nil =>
    intro table
    exact ⟨fun _ => trivial, fun _ => rfl⟩
  | cons f fields ih =>
    intro table
    rw [sentAll, cons.injEq, (sent_spec table f).2, ih, NeverNameOnlyHit]

theorem neverNameOnlyHit_append (fields : List Field) : ∀ table rest, NeverNameOnlyHit table (fields ++ rest) ↔
      NeverNameOnlyHit table fields ∧ NeverNameOnlyHit (fields.foldl tableAfter table) rest := by
  induction fields with
  | nil =>
    intro table rest
    simp [NeverNameOnlyHit]
  | cons f fields ih =>
    intro table rest
    rw [cons_append, NeverNameOnlyHit, NeverNameOnlyHit, ih, foldl_cons, and_assoc]

/-! ### Sequences of blocks -/

/-- Parts to encode and the lengths of the buffers they are written through. -/
structure Job where
  parts : Parts
  buffer : Nat → Nat
  buffer_pos : ∀ i, 0 < buffer i

/-- Encode the parts of the jobs one after another, each until it is finished. -/
def encodeAll (fuel : Nat) : List Job → HpackEncoder → Outcome HpackEncoder Empty (List (List UInt8))
  | [], e => .ok [] e
  | job :: jobs, e =>
    match HpackEncoder.drive job.buffer fuel 0 (e.setParts job.parts) with
    | .ok bytes e =>
      match encodeAll fuel jobs e with
      | .ok rest e => .ok (bytes :: rest) e
      | .panic => .panic
    | .panic => .panic

/-- Decode one whole block. -/
def decodeBlock (bytes : List UInt8) : Method HpackDecoder H2Error Parts := do
  HpackDecoder.decode bytes
  HpackDecoder.finish

/-- Decode blocks one after another. -/
def decodeAll : List (List UInt8) → Method HpackDecoder H2Error (List Parts)
  | [] => pure []
  | bytes :: rest => do
    let parts ← decodeBlock bytes
    return parts :: (← decodeAll rest)

/-- The blocks of lists of fields. -/
def blocks (useHuffman : Bool) : DynamicTable → List (List Field) → List (List UInt8)
  | _, [] => []
  | table, fields :: rest =>
    (block useHuffman table fields).1 :: blocks useHuffman (fields.foldl tableAfter table) rest

/-- Driving an idle encoder writes the block of the parts. -/
theorem drive_setParts {job : Job} {fuel : Nat} {bytes : List UInt8} {e : HpackEncoder}
    (h : HpackEncoder.drive job.buffer fuel 0
      (HpackEncoder.setParts ⟨table, .new, useHuffman⟩ job.parts) = .ok bytes e) :
    bytes = (block useHuffman table job.parts.fields).1 ∧
      e = ⟨job.parts.fields.foldl tableAfter table, .new, useHuffman⟩ := by
  obtain ⟨hbytes, he⟩ := HpackEncoder.drive_eq job.buffer_pos fuel h
  obtain ⟨hpending, htable⟩ := HpackEncoder.pending_setParts table useHuffman job.parts
  rw [htable, block_snd] at he
  exact ⟨by rw [hbytes, hpending], he⟩

/-- Parts that are set in an encoder come out as the same bytes and leave the same
encoder, dynamic table included, whether they are written through the buffers of a job
or into one buffer that is large enough. -/
theorem drive_eq_encode_once (job : Job) (e : HpackEncoder) :
    ∃ bytes e' bound, e'.isFinished = true ∧
      (∀ len, 0 < len → bytes.length ≤ len → (e.setParts job.parts).encode len = .ok (bytes.length, bytes) e') ∧
      ∀ fuel, bound < fuel → HpackEncoder.drive job.buffer fuel 0 (e.setParts job.parts) = .ok bytes e' := by
  generalize e.setParts job.parts = e
  refine ⟨e.pending, ⟨e.lastTable, .new, e.useHuffman⟩, e.pending.length + 1, rfl, ?_, ?_⟩
  · intro len hlen hfit
    obtain ⟨e₁, hencode, -, htable, hhuffman, hdone⟩ := e.encode_spec hlen
    have he₁ := (HpackEncoder.eq_of_isFinished (hdone.mpr hfit)).1
    rw [htable, hhuffman] at he₁
    rw [hencode, he₁, Nat.min_eq_left hfit, take_of_length_le hfit]
  · intro fuel hfuel
    obtain ⟨bytes, e₁, hdrive⟩ := HpackEncoder.drive_finishes job.buffer_pos fuel hfuel
    obtain ⟨rfl, rfl⟩ := HpackEncoder.drive_eq job.buffer_pos fuel hdrive
    exact hdrive

/-- What comes out of the encoder are the blocks, however the buffers are chosen. -/
theorem encodeAll_ok {fuel : Nat} {jobs : List Job} :
    ∀ {table : DynamicTable} {useHuffman : Bool} {wire : List (List UInt8)} {e : HpackEncoder},
      encodeAll fuel jobs ⟨table, .new, useHuffman⟩ = .ok wire e →
      wire = blocks useHuffman table (jobs.map fun job => job.parts.fields) ∧
        e.table = (jobs.flatMap fun job => job.parts.fields).foldl tableAfter table := by
  induction jobs with
  | nil =>
    rintro table useHuffman wire e ⟨⟩
    exact ⟨rfl, rfl⟩
  | cons job jobs ih =>
    intro table useHuffman wire e h
    rw [encodeAll] at h
    cases hdrive : HpackEncoder.drive job.buffer fuel 0
        (HpackEncoder.setParts ⟨table, .new, useHuffman⟩ job.parts) with
    | ok bytes e₁ =>
      obtain ⟨rfl, rfl⟩ := drive_setParts hdrive
      rw [hdrive] at h
      simp only at h
      split at h
      · rename_i rest e₂ hrest
        cases h
        obtain ⟨rfl, htable⟩ := ih hrest
        exact ⟨rfl, by rw [htable, flatMap_cons, foldl_append]⟩
      · cases h
    | err e _ => exact nomatch e
    | panic =>
      rw [hdrive] at h
      cases h

/-- Enough calls encode all parts. -/
theorem encodeAll_finishes (jobs : List Job) :
    ∀ (table : DynamicTable) (useHuffman : Bool), ∃ bound, ∀ fuel, bound < fuel →
      ∃ wire e, encodeAll fuel jobs ⟨table, .new, useHuffman⟩ = .ok wire e := by
  induction jobs with
  | nil =>
    intro table useHuffman
    exact ⟨0, fun fuel _ => ⟨[], _, rfl⟩⟩
  | cons job jobs ih =>
    intro table useHuffman
    obtain ⟨bound, hbound⟩ := ih (job.parts.fields.foldl tableAfter table) useHuffman
    refine ⟨max bound ((block useHuffman table job.parts.fields).1.length + 1), fun fuel hfuel => ?_⟩
    have hpending := (HpackEncoder.pending_setParts table useHuffman job.parts).1
    obtain ⟨bytes, e₁, hdrive⟩ := HpackEncoder.drive_finishes job.buffer_pos fuel (i := 0)
      (e := HpackEncoder.setParts ⟨table, .new, useHuffman⟩ job.parts)
      (by rw [hpending]; omega)
    obtain ⟨-, rfl⟩ := drive_setParts hdrive
    obtain ⟨wire, e₂, hrest⟩ := hbound fuel (by omega)
    exact ⟨bytes :: wire, e₂, by simp only [encodeAll, hdrive, hrest]⟩

/-- A decoder between two blocks. -/
structure Idle (d : HpackDecoder) (table : DynamicTable) (limit : Nat) : Prop where
  table : d.table = table
  limit : d.headerListSize = limit
  lines : d.lines = ⟨.new, 0⟩
  holder : d.holder = none

/-- An idle decoder reads a block by receiving its fields. -/
theorem Idle.decode_block (hidle : Idle d table limit)
    (hsize : table.maxSize < usizeSize) (henc : ∀ f ∈ fields, Encodable useHuffman f) :
    HpackDecoder.decode (block useHuffman table fields).1 d = receiveAll table fields d := by
  have hd : ({ d with holder := none } : HpackDecoder) = d := by
    rw [← hidle.holder]
  rw [HpackDecoder.decode, hidle.holder, hd]
  exact decodeLoop_block (by omega) hsize henc hidle.table hidle.holder

theorem finish_of_holder (h : d.holder = none) :
    HpackDecoder.finish d = .ok d.lines.parts { d with lines := ⟨.new, 0⟩ } := by
  simp only [HpackDecoder.finish, h]

/-- A block that is decoded gives the parts of the sent fields. -/
theorem decodeBlock_ok {d' : HpackDecoder} {parts out : Parts} (hidle : Idle d table limit)
    (hsize : table.maxSize < usizeSize) (henc : ∀ f ∈ parts.fields, Encodable useHuffman f)
    (h : decodeBlock (block useHuffman table parts.fields).1 d = .ok out d') :
    Shows out (sentAll table parts.fields) ∧ Idle d' (parts.fields.foldl tableAfter table) limit := by
  rw [decodeBlock, bind_apply, hidle.decode_block hsize henc, bind_eq_ok] at h
  obtain ⟨u, d₁, hreceive, hfinish⟩ := h
  obtain ⟨parts₁, hparts₁, htable, hlines, hholder, hlimit⟩ := receiveAll_ok _ hidle.table hreceive
  rw [hidle.holder] at hholder
  rw [finish_of_holder hholder] at hfinish
  cases hfinish
  refine ⟨?_, htable, hlimit.trans hidle.limit, rfl, hholder⟩
  have hnames := sentAll_names parts.fields table
  rw [hidle.lines] at hparts₁
  rw [hlines]
  refine updateAll_shows [] shows_new ?_ ?_ hparts₁
  · rw [nil_append, hnames]
    exact nodup_fields parts
  · intro g hg
    have hmem : g.1 ∈ (sentAll table parts.fields).map Prod.fst := mem_map_of_mem hg
    rw [hnames] at hmem
    obtain ⟨f, hf, hfg⟩ := mem_map.mp hmem
    rw [← hfg]
    exact regular_fields hf

theorem maxSize_foldl_tableAfter (fields : List Field) :
    ∀ table : DynamicTable, (fields.foldl tableAfter table).maxSize = table.maxSize := by
  induction fields with
  | nil =>
    intro table
    rfl
  | cons f fields ih =>
    intro table
    rw [foldl_cons, ih, maxSize_tableAfter]

/-- Blocks that are all decoded leave the dynamic table the encoder came to. If they are decoded to
the parts they were made of, they had no name-only hit. -/
theorem decodeAll_ok (ps : List Parts) :
    ∀ {table : DynamicTable} {d d' : HpackDecoder} {out : List Parts}, Idle d table limit →
      table.maxSize < usizeSize → (∀ p ∈ ps, ∀ f ∈ p.fields, Encodable useHuffman f) →
      decodeAll (blocks useHuffman table (ps.map Parts.fields)) d = .ok out d' →
      d'.table = (ps.flatMap Parts.fields).foldl tableAfter table ∧
        (List.Forall₂ SameFields out ps → NeverNameOnlyHit table (ps.flatMap Parts.fields)) := by
  induction ps with
  | nil =>
    rintro table d d' out hidle _ _ ⟨⟩
    exact ⟨hidle.table, fun _ => trivial⟩
  | cons p ps ih =>
    intro table d d' out hidle hsize henc h
    rw [map_cons, blocks, decodeAll, bind_apply, bind_eq_ok] at h
    obtain ⟨p', d₁, hfirst, h⟩ := h
    rw [bind_apply, bind_eq_ok] at h
    obtain ⟨out', d₂, hrest, h⟩ := h
    cases h
    obtain ⟨hshows, hidle₁⟩ := decodeBlock_ok hidle hsize (henc p (mem_cons_self ..)) hfirst
    obtain ⟨htable, hclean⟩ := ih hidle₁ (by rwa [maxSize_foldl_tableAfter])
      (fun q hq => henc q (mem_cons_of_mem _ hq)) hrest
    rw [flatMap_cons, foldl_append, neverNameOnlyHit_append, ← sentAll_eq_iff]
    refine ⟨htable, fun hsame => ?_⟩
    rw [forall₂_cons] at hsame
    exact ⟨(sameFields_iff hshows (shows_fields p) (sentAll_names _ _) (nodup_fields p)
      fun f hf => regular_fields hf).mp hsame.1, hclean hsame.2⟩

theorem idle_withMaxSize (maxSize limit : Nat) : Idle (.withMaxSize maxSize limit) (.withMaxSize maxSize) limit :=
  ⟨rfl, rfl, rfl, rfl⟩

/-- The jobs are encoded, and a decoder of the same table size that completes all their
blocks has the dynamic table of the encoder. The jobs are those up to any block of a
longer sequence, so this is the state of both sides after each completed block. -/
theorem decodeAll_table_eq {maxSize limit : Nat} {useHuffman : Bool} {jobs : List Job}
    (hsize : maxSize < usizeSize)
    (henc : ∀ job ∈ jobs, ∀ f ∈ job.parts.fields, Encodable useHuffman f) :
    ∃ bound, ∀ fuel, bound < fuel → ∃ wire e,
      encodeAll fuel jobs (.new maxSize useHuffman) = .ok wire e ∧
        ∀ out d, decodeAll wire (.withMaxSize maxSize limit) = .ok out d → d.table = e.table := by
  obtain ⟨bound, hbound⟩ := encodeAll_finishes jobs (.withMaxSize maxSize) useHuffman
  refine ⟨bound, fun fuel hfuel => ?_⟩
  obtain ⟨wire, e, hencode⟩ := hbound fuel hfuel
  refine ⟨wire, e, hencode, fun out d hdecode => ?_⟩
  obtain ⟨rfl, htable⟩ := encodeAll_ok hencode
  have hdecoder := decodeAll_ok (jobs.map Job.parts) (idle_withMaxSize maxSize limit) hsize
    (by simpa using henc) (by simpa [Function.comp_def] using hdecode)
  rw [hdecoder.1, htable, flatMap_map]

theorem valid_singleton {value : List UInt8} (valid : ∀ b ∈ value, ValidByte b) :
    ∀ v ∈ [value], ∀ b ∈ v, ValidByte b := by
  intro v hv
  rwa [mem_singleton.mp hv]

theorem oneByte_pos (_ : Nat) : 0 < 1 := Nat.one_pos

theorem normal_x : ∀ b ∈ ascii "x", NormalByte b := by decide +kernel

/-- A job with the pseudo header `:method: GET` and one header named `x`, written
through buffers of one byte. -/
def jobX (value : List UInt8) (valid : ∀ b ∈ value, ValidByte b) : Job where
  parts :=
    { pseudo := { PseudoHeaders.new with method := some (ascii "GET") }
      map := AList.singleton ⟨ascii "x", normal_x⟩ ⟨[value], false, valid_singleton valid⟩ }
  buffer := fun _ => 1
  buffer_pos := oneByte_pos

theorem encodable_jobX (useHuffman : Bool) :
    ∀ job ∈ [jobX (ascii "a") (by decide +kernel)], ∀ f ∈ job.parts.fields, Encodable useHuffman f := by
  intro job hjob f hf
  rw [mem_singleton.mp hjob] at hf
  revert f
  cases useHuffman <;> decide

theorem decodeAll_table_eq_jobX :
    ∃ bound, ∀ fuel, bound < fuel → ∃ wire e,
      encodeAll fuel [jobX (ascii "a") (by decide +kernel)] (.new 4096 true) = .ok wire e ∧
        ∀ out d, decodeAll wire (.withMaxSize 4096 65536) = .ok out d → d.table = e.table :=
  decodeAll_table_eq (by decide) (encodable_jobX true)

end YlongHttp.H2.Hpack
