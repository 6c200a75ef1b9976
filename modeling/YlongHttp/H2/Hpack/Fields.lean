/-
The fields of parts.

`Shows` relates parts to the fields that were added to them, and `Parts.fields` are
the fields that the encoder sends for given parts. Parts are compared by the fields
they show (`SameFields`).
-/

import YlongHttp.H2.Hpack.ReprEncoder

namespace YlongHttp.H2.Hpack

open Rust List

/-! ### The fields that parts show -/

def Parts.updateAll (parts : Parts) : List Field → Option Parts
  | [] => some parts
  | f :: fields => (parts.update f.1 f.2).bind fun parts => updateAll parts fields

/-- The values of the parts are those of the fields; a header value is compared by
its text. -/
structure Shows (parts : Parts) (fields : List Field) : Prop where
  authority : parts.pseudo.authority = fields.lookup .authority
  method : parts.pseudo.method = fields.lookup .method
  path : parts.pseudo.path = fields.lookup .path
  scheme : parts.pseudo.scheme = fields.lookup .scheme
  status : parts.pseudo.status = fields.lookup .status
  map : ∀ name : HeaderName, (parts.map.lookup name).map HeaderValue.toText = fields.lookup (.other name.name)

/-- A pseudo header, or a header whose name is normalized. -/
def Regular (h : Header) : Prop := ∀ bytes, h = .other bytes → ∃ name : HeaderName, name.name = bytes

theorem shows_new : Shows Parts.new [] :=
  ⟨rfl, rfl, rfl, rfl, rfl, fun _ => rfl⟩

theorem HeaderName.ext_name {a b : HeaderName} (h : a.name = b.name) : a = b := by
  cases a
  cases b
  subst h
  rfl

theorem lookup_snoc (fields : List Field) (f : Field) (k : Header) :
    (fields ++ [f]).lookup k = (fields.lookup k).or (if k = f.1 then some f.2 else none) := by
  rw [lookup_append]
  congr 1
  by_cases hk : k = f.1
  · simp [lookup, hk]
  · have hne : (k == f.1) = false := by simp [hk]
    simp [lookup, hk, hne]

variable {parts : Parts} {f : Field} {gs : List Field}

/-- Parts that take a field of a new name show it. -/
theorem Shows.update {parts' : Parts} {fields : List Field}
    (h : Shows parts fields) (hnew : fields.lookup f.1 = none) (hreg : Regular f.1)
    (hparts : parts.update f.1 f.2 = some parts') : Shows parts' (fields ++ [f]) := by
  obtain ⟨header, value⟩ := f
  cases header with
  | other bytes =>
    obtain ⟨name, rfl⟩ := hreg bytes rfl
    have haccept : Parts.Accepts (.other name.name, value) := by
      by_contra hnot
      rw [Parts.update_of_not_accepts hnot] at hparts
      cases hparts
    have hlookup : parts.map.lookup name = none := by
      have hmap := h.map name
      rwa [hnew, Option.map_eq_none_iff] at hmap
    simp only [Parts.update, Headers.append_new hlookup haccept.2, Option.some.injEq] at hparts
    subst hparts
    refine ⟨?_, ?_, ?_, ?_, ?_, fun other => ?_⟩
    · simp [h.authority, lookup_snoc]
    · simp [h.method, lookup_snoc]
    · simp [h.path, lookup_snoc]
    · simp [h.scheme, lookup_snoc]
    · simp [h.status, lookup_snoc]
    · by_cases hname : other = name
      · subst hname
        simp [lookup_snoc, hnew, HeaderValue.toText]
      · have hbytes : other.name ≠ name.name := fun heq => hname (HeaderName.ext_name heq)
        rw [AList.lookup_insert_ne hname, h.map other, lookup_snoc]
        simp [hbytes]
  | _ =>
    simp only [Parts.update, Option.some.injEq] at hparts
    subst hparts
    refine ⟨?_, ?_, ?_, ?_, ?_, fun name => ?_⟩ <;>
      simp [h.authority, h.method, h.path, h.scheme, h.status, h.map, hnew, lookup_snoc]

theorem updateAll_shows : ∀ {parts parts' : Parts} (fields : List Field), Shows parts fields →
      ((fields ++ gs).map Prod.fst).Nodup → (∀ g ∈ gs, Regular g.1) →
      Parts.updateAll parts gs = some parts' → Shows parts' (fields ++ gs) := by
  induction gs with
  | nil =>
    rintro parts parts' fields h _ _ ⟨⟩
    simpa using h
  | cons g gs ih =>
    intro parts parts' fields h hnodup hreg hparts
    rw [Parts.updateAll, Option.bind_eq_some_iff] at hparts
    obtain ⟨parts₁, hfirst, hrest⟩ := hparts
    have hnew : fields.lookup g.1 = none := by
      rw [lookup_eq_none_iff]
      intro f hf
      have hne : g.1 ≠ f.1 := by
        intro heq
        rw [map_append] at hnodup
        exact (nodup_append.mp hnodup).2.2 f.1 (mem_map_of_mem hf) g.1
          (mem_cons_self ..) heq.symm
      simpa using hne
    have hg := h.update hnew (hreg g (mem_cons_self ..)) hfirst
    have happend : fields ++ g :: gs = (fields ++ [g]) ++ gs := by simp
    rw [happend] at hnodup ⊢
    exact ih _ hg hnodup (fun g' hg' => hreg g' (mem_cons_of_mem _ hg')) hrest

theorem lookup_pseudoField (h k : Header) (v : Option (List UInt8)) :
    (PartsIter.pseudoField h v).lookup k = if k = h then v else none := by
  cases v with
  | none => simp [PartsIter.pseudoField]
  | some v =>
    by_cases hk : k = h
    · simp [PartsIter.pseudoField, hk]
    · have hne : (k == h) = false := by simp [hk]
      simp [PartsIter.pseudoField, lookup, hk, hne]

/-- The fields of a header map. -/
def mapFields (entries : List (Sigma fun _ : HeaderName => HeaderValue)) : List Field :=
  entries.map fun e => (.other e.1.name, e.2.toText)

theorem lookup_mapFields_pseudo {k : Header} (hk : ∀ bytes, k ≠ .other bytes)
    (entries : List (Sigma fun _ : HeaderName => HeaderValue)) : (mapFields entries).lookup k = none := by
  rw [lookup_eq_none_iff]
  intro f hf
  obtain ⟨e, -, rfl⟩ := mem_map.mp hf
  simpa using hk e.1.name

theorem lookup_mapFields (name : HeaderName) (entries : List (Sigma fun _ : HeaderName => HeaderValue)) :
    (mapFields entries).lookup (.other name.name) = (entries.dlookup name).map HeaderValue.toText := by
  induction entries with
  | nil => rfl
  | cons e entries ih =>
    obtain ⟨key, value⟩ := e
    by_cases hname : key = name
    · subst hname
      simp [mapFields]
    · have hbytes : name.name ≠ key.name := fun heq => hname (HeaderName.ext_name heq.symm)
      have hne : (Header.other name.name == Header.other key.name) = false := by simp [hbytes]
      rw [dlookup_cons_ne _ _ (Ne.symm hname), ← ih]
      simp [mapFields, lookup, hne]

theorem fields_eq (parts : Parts) : parts.fields = PartsIter.pseudoField .method parts.pseudo.method ++
      (PartsIter.pseudoField .status parts.pseudo.status ++ (PartsIter.pseudoField .scheme parts.pseudo.scheme ++
          (PartsIter.pseudoField .path parts.pseudo.path ++
            (PartsIter.pseudoField .authority parts.pseudo.authority ++ mapFields parts.map.entries)))) := by
  simp [Parts.fields, PartsIter.fields, PartsIter.new, PartsIter.following, PartsIter.fieldsAt, mapFields]

/-- Parts show their own fields. -/
theorem shows_fields (parts : Parts) : Shows parts parts.fields := by
  rw [fields_eq]
  refine ⟨?_, ?_, ?_, ?_, ?_, fun name => ?_⟩
  · simp [lookup_append, lookup_pseudoField, lookup_mapFields_pseudo]
  · simp [lookup_append, lookup_pseudoField, lookup_mapFields_pseudo]
  · simp [lookup_append, lookup_pseudoField, lookup_mapFields_pseudo]
  · simp [lookup_append, lookup_pseudoField, lookup_mapFields_pseudo]
  · simp [lookup_append, lookup_pseudoField, lookup_mapFields_pseudo]
  · simp [lookup_append, lookup_pseudoField, lookup_mapFields, AList.lookup]

theorem pseudoField_sublist (h : Header) (v : Option (List UInt8)) :
    ((PartsIter.pseudoField h v).map Prod.fst).Sublist [h] := by
  cases v with
  | none => exact nil_sublist _
  | some v => exact List.Sublist.refl _

/-- No name occurs twice in the fields of parts. -/
theorem nodup_fields (parts : Parts) : (parts.fields.map Prod.fst).Nodup := by
  have hkeys : ((mapFields parts.map.entries).map Prod.fst).Nodup := by
    have hmap : (mapFields parts.map.entries).map Prod.fst = parts.map.keys.map fun name => Header.other name.name := by
      simp [mapFields, AList.keys, keys]
    rw [hmap]
    refine parts.map.keys_nodup.map ?_
    intro a b hab
    exact HeaderName.ext_name (Header.other.inj hab)
  have hfull : ([Header.method, .status, .scheme, .path, .authority] ++
      (mapFields parts.map.entries).map Prod.fst).Nodup := by
    refine nodup_append.mpr ⟨by decide, hkeys, ?_⟩
    intro a ha b hb heq
    subst heq
    simp only [mapFields, map_map, mem_map, Function.comp_apply] at hb
    obtain ⟨e, -, rfl⟩ := hb
    simp at ha
  refine List.Nodup.sublist ?_ hfull
  rw [fields_eq]
  simp only [map_append]
  exact (pseudoField_sublist _ _).append ((pseudoField_sublist _ _).append
    ((pseudoField_sublist _ _).append ((pseudoField_sublist _ _).append
      ((pseudoField_sublist _ _).append (List.Sublist.refl _)))))

theorem mem_fields (hf : f ∈ parts.fields) : (∀ bytes, f.1 ≠ .other bytes) ∨
      ∃ (name : HeaderName) (value : HeaderValue), f = (.other name.name, value.toText) := by
  have hpseudo : ∀ (h : Header) (v : Option (List UInt8)), f ∈ PartsIter.pseudoField h v → f.1 = h := by
    intro h v hmem
    cases v with
    | none => cases hmem
    | some v => rw [mem_singleton.mp hmem]
  rw [fields_eq] at hf
  simp only [mem_append] at hf
  rcases hf with hf | hf | hf | hf | hf | hf
  · exact .inl fun bytes => by rw [hpseudo _ _ hf]; simp
  · exact .inl fun bytes => by rw [hpseudo _ _ hf]; simp
  · exact .inl fun bytes => by rw [hpseudo _ _ hf]; simp
  · exact .inl fun bytes => by rw [hpseudo _ _ hf]; simp
  · exact .inl fun bytes => by rw [hpseudo _ _ hf]; simp
  · obtain ⟨e, -, rfl⟩ := mem_map.mp hf
    exact .inr ⟨e.1, e.2, rfl⟩

theorem regular_fields (hf : f ∈ parts.fields) : Regular f.1 := by
  intro bytes hbytes
  rcases mem_fields hf with hpseudo | ⟨name, value, rfl⟩
  · exact absurd hbytes (hpseudo bytes)
  · exact ⟨name, Header.other.inj hbytes⟩

/-- The same pseudo headers and the same map from names to values, where a value is
its text. -/
def SameFields (p q : Parts) : Prop :=
  p.pseudo = q.pseudo ∧
    ∀ name : HeaderName, (p.map.lookup name).map HeaderValue.toText = (q.map.lookup name).map HeaderValue.toText

theorem eq_of_lookup_eq : ∀ {fs : List Field}, gs.map Prod.fst = fs.map Prod.fst → (fs.map Prod.fst).Nodup →
      (∀ f ∈ fs, gs.lookup f.1 = fs.lookup f.1) → gs = fs := by
  induction gs with
  | nil =>
    intro fs hkeys _ _
    exact (map_eq_nil_iff.mp hkeys.symm).symm
  | cons g gs ih =>
    intro fs hkeys hnodup hlookup
    cases fs with
    | nil => cases hkeys
    | cons f fs =>
      obtain ⟨h, v⟩ := g
      obtain ⟨h', w⟩ := f
      simp only [map_cons, cons.injEq] at hkeys
      obtain ⟨rfl, hkeys⟩ := hkeys
      rw [map_cons, nodup_cons] at hnodup
      have hfirst := hlookup (h, w) (mem_cons_self ..)
      simp only [lookup, beq_self_eq_true, Option.some.injEq] at hfirst
      have hrest : gs = fs := by
        refine ih hkeys hnodup.2 fun f hf => ?_
        have hmem : f.1 ∈ fs.map Prod.fst := mem_map_of_mem hf
        have hne : f.1 ≠ h := fun heq => hnodup.1 (heq ▸ hmem)
        have hbeq : (f.1 == h) = false := by simp [hne]
        have hf' := hlookup f (mem_cons_of_mem _ hf)
        simpa only [lookup, hbeq] using hf'
      rw [hfirst, hrest]

/-- Parts that show fields of the same names are the same if the fields are. -/
theorem sameFields_iff {p q : Parts} {fs : List Field} (hp : Shows p gs) (hq : Shows q fs)
    (hkeys : gs.map Prod.fst = fs.map Prod.fst) (hnodup : (fs.map Prod.fst).Nodup)
    (hreg : ∀ f ∈ fs, Regular f.1) : SameFields p q ↔ gs = fs := by
  constructor
  · rintro ⟨hpseudo, hmap⟩
    refine eq_of_lookup_eq hkeys hnodup fun f hf => ?_
    obtain ⟨h, v⟩ := f
    cases h with
    | authority => rw [← hp.authority, ← hq.authority, hpseudo]
    | method => rw [← hp.method, ← hq.method, hpseudo]
    | path => rw [← hp.path, ← hq.path, hpseudo]
    | scheme => rw [← hp.scheme, ← hq.scheme, hpseudo]
    | status => rw [← hp.status, ← hq.status, hpseudo]
    | other bytes =>
      obtain ⟨name, rfl⟩ := hreg _ hf bytes rfl
      rw [← hp.map, ← hq.map, hmap]
  · rintro rfl
    refine ⟨?_, fun name => by rw [hp.map, hq.map]⟩
    obtain ⟨⟨authority, method, path, scheme, status⟩, map⟩ := p
    have hauthority := hp.authority.trans hq.authority.symm
    have hmethod := hp.method.trans hq.method.symm
    have hpath := hp.path.trans hq.path.symm
    have hscheme := hp.scheme.trans hq.scheme.symm
    have hstatus := hp.status.trans hq.status.symm
    simp only at hauthority hmethod hpath hscheme hstatus
    simp only [hauthority, hmethod, hpath, hscheme, hstatus]

end YlongHttp.H2.Hpack
