import TaggedMatch.Proofs.Pattern.Refinement

/-!
# One product pattern, written in several ways

The parts of a product may be asked for by name, in any order and leaving some out, or by position,
one after the other and all of them. The check resolves the two forms along different paths, by
looking names up and sorting what it found, and by counting. Where no label is declared twice both
come to the same: at every part stands the pattern of the entry that lists it
(`Pattern.nodeFor?`), and only the parts that no entry lists are treated differently. The sequence
has wildcards there and the field pattern nothing.

A wildcard at a field of an aggregate does nothing, as long as the value has that field
(`runFields_listed`). All built values of the type have, since a type is defined once. Looking at a
piece of an extension object is a call, so there the two forms do the same only if every piece is
listed; then they are resolved to the same node.
-/

namespace TaggedMatch

variable {γ σ : Type} {r : Registry} {ty : TypeId} {parts : List PieceDef}

/-! ## Patterns that may stand for each other -/

/-- Matching a value against either pattern ends alike from every state of the host, in whatever
scope the match stands, and makes the same calls of the host in the same order. -/
def Compiled.AlikeOn (c c' : Compiled γ) (v : Value) : Prop :=
  ∀ (σ : Type) (host : Host γ σ) (outer : Lookup),
    c.run host v outer = c'.run host v outer ∧
      ∀ s, c.calls host v outer s = c'.calls host v outer s

theorem Compiled.alikeOn_of_run {c c' : Compiled γ} {v : Value}
    (h : ∀ (σ : Type) (host : Host γ σ) (outer : Lookup),
      c.run host v outer = c'.run host v outer) : c.AlikeOn c' v := by
  intro σ host outer
  refine ⟨h σ host outer, fun s => ?_⟩
  rw [calls, calls, h _ host.recorded outer]

/-- The check accepts both patterns or neither, and then they match alike. -/
structure Pattern.Interchangeable (r : Registry) (ty : TypeId) (values : Value → Prop)
    (p q : Pattern γ) : Prop where
  accepted : (∃ c, p.check r ty = .ok c) ↔ ∃ c, q.check r ty = .ok c
  alike : ∀ c c', p.check r ty = .ok c → q.check r ty = .ok c' → ∀ v, values v → c.AlikeOn c' v

/-- The check accepts both patterns or neither, and resolves them to the same node. -/
structure Pattern.ResolvedAlike (r : Registry) (ty : TypeId) (p q : Pattern γ) : Prop where
  accepted : (∃ c, p.check r ty = .ok c) ↔ ∃ c, q.check r ty = .ok c
  root : ∀ c c', p.check r ty = .ok c → q.check r ty = .ok c' → c.root = c'.root

theorem Pattern.ResolvedAlike.interchangeable {p q : Pattern γ} (h : ResolvedAlike r ty p q) :
    Interchangeable r ty (fun _ => True) p q where
  accepted := h.accepted
  alike c c' hc hc' v _ := Compiled.alikeOn_of_run fun σ host outer => by
    rw [Compiled.run, Compiled.run, h.root c c' hc hc']

namespace Pattern

variable {entries : List (FieldEntry (Pattern γ))} {part : PieceDef} {span : Span}

/-- The entry that lists a part. -/
def entryFor? (entries : List (FieldEntry (Pattern γ))) (part : PieceDef) :
    Option (FieldEntry (Pattern γ)) :=
  entries.find? fun e => part.label == some e.name

/-- The items of the sequence pattern that asks at each part what the entry listing it does, and
nothing at the other parts; `blank` are the places of the wildcards. -/
def arrange (parts : List PieceDef) (entries : List (FieldEntry (Pattern γ)))
    (blank : Nat → Span) : List (Pattern γ) :=
  parts.zipIdx.map fun (part, index) =>
    ((entryFor? entries part).map (·.pattern)).getD (.wildcard (blank index))

/-- The node at a part, where an entry lists it. -/
def nodeFor? (r : Registry) (entries : List (FieldEntry (Pattern γ))) (part : PieceDef) :
    Option (Node γ) :=
  (entryFor? entries part).map fun e => (e.pattern.draft r part.ty).node

/-- Every entry lists a part, and no two entries and no two parts have one name. -/
structure Names (parts : List PieceDef) (entries : List (FieldEntry (Pattern γ))) : Prop where
  labels : (parts.filterMap (·.label)).Nodup
  distinct : (entries.map (·.name)).Nodup
  declared : ∀ e ∈ entries, ∃ part ∈ parts, part.label = some e.name

/-! ## Entries and the parts they list -/

theorem entryFor?_eq_some_iff (distinct : (entries.map (·.name)).Nodup)
    {e : FieldEntry (Pattern γ)} :
    entryFor? entries part = some e ↔ e ∈ entries ∧ part.label = some e.name := by
  constructor
  · intro h
    exact ⟨List.mem_of_find?_eq_some h, by simpa using List.find?_some h⟩
  · rintro ⟨he, hlabel⟩
    obtain ⟨other, hmem, hother, hfirst⟩ := exists_find?_eq_some
      (fun e => part.label == some e.name) he (by simp [hlabel])
    have hname : part.label = some other.name := by simpa using hother
    have hsame : other.name = e.name := Option.some.inj (hname.symm.trans hlabel)
    rwa [List.inj_on_of_nodup_map distinct hmem he hsame] at hfirst

theorem find?_of_label (hlabels : (parts.filterMap (·.label)).Nodup) (hpart : part ∈ parts)
    {name : Name} (hlabel : part.label = some name) :
    parts.find? (·.label == some name) = some part := by
  obtain ⟨other, hmem, hother, hfirst⟩ :=
    exists_find?_eq_some (·.label == some name) hpart (by simp [hlabel])
  have hname : other.label = some name := by simpa using hother
  obtain ⟨i, hi⟩ := List.mem_iff_getElem?.mp hmem
  obtain ⟨j, hj⟩ := List.mem_iff_getElem?.mp hpart
  rw [position_unique hlabels hi hj hname hlabel, hj] at hi
  cases hi
  exact hfirst

/-- The slots of entries are those of the parts that an entry lists. -/
theorem entrySlots_eq (distinct : (entries.map (·.name)).Nodup) :
    entrySlots parts entries =
      parts.zipIdx.filterMap fun (part, index) => (entryFor? entries part).map (index, ·) := by
  have hnamed : ((entries.map fun e => (e.name, e)).map (·.1)).Nodup := by
    simpa [Function.comp_def] using distinct
  rw [entrySlots, slotsByPart]
  refine List.filterMap_congr fun slot _ => ?_
  obtain ⟨part, index⟩ := slot
  have hsame : (part.label.bind fun name => (entries.map fun e => (e.name, e)).lookup name) =
      entryFor? entries part := by
    refine Option.ext fun e => ?_
    rw [entryFor?_eq_some_iff distinct, Option.bind_eq_some_iff]
    simp only [lookup_eq_some_iff_mem hnamed, List.mem_map, Prod.mk.injEq]
    constructor
    · rintro ⟨name, hlabel, _, he, rfl, rfl⟩
      exact ⟨he, hlabel⟩
    · rintro ⟨he, hlabel⟩
      exact ⟨e.name, hlabel, e, he, rfl, rfl⟩
  simp only [hsame]

theorem arrange_getElem? (blank : Nat → Span) (index : Nat) :
    (arrange parts entries blank)[index]? = parts[index]?.map fun part =>
      ((entryFor? entries part).map (·.pattern)).getD (.wildcard (blank index)) := by
  simp [arrange, List.getElem?_map, List.getElem?_zipIdx, Function.comp_def]

@[simp] theorem length_arrange (blank : Nat → Span) :
    (arrange parts entries blank).length = parts.length := by
  simp [arrange]

/-- The entries are in the order of the parts what they are in the order of writing. -/
theorem Names.perm_entrySlots (h : Names parts entries) :
    ((entrySlots parts entries).map (·.2)).Perm entries := by
  let position : Name → Nat := fun name => (parts.findIdx? (·.label == some name)).getD 0
  have hposition (e) (he : e ∈ entries) :
      ∃ part, parts[position e.name]? = some part ∧ part.label = some e.name := by
    obtain ⟨part, hpart, hlabel⟩ := h.declared e he
    obtain ⟨index, hindex, hat⟩ :=
      find?_eq_some_iff_findIdx?.mp (find?_of_label h.labels hpart hlabel)
    exact ⟨part, by simp [position, hindex, hat], hlabel⟩
  have hsorted := sorted_entries id h.labels h.distinct hposition
  have hperm := (List.mergeSort_perm (entries.map fun e => (position e.name, id e))
    fun a b => a.1 ≤ b.1).map (·.2)
  rw [hsorted] at hperm
  simpa [Function.comp_def] using hperm

theorem Names.resolved (h : Names parts entries) :
    ∀ e ∈ entries, ∃ part, parts.find? (·.label == some e.name) = some part := by
  intro e he
  obtain ⟨part, hpart, hlabel⟩ := h.declared e he
  exact ⟨part, find?_of_label h.labels hpart hlabel⟩

/-! ## Both forms are legal together -/

theorem legal_fields_iff (shown : r.Shows ty parts) (h : Names parts entries) :
    (fields span entries).Legal r ty ↔
      ∀ part ∈ parts, ∀ e, entryFor? entries part = some e → e.pattern.Legal r part.ty := by
  constructor
  · intro hlegal part hpart e he
    obtain ⟨hmem, hlabel⟩ := (entryFor?_eq_some_iff h.distinct).mp he
    cases hlegal with
    | fields shown' _ _ inner =>
        obtain rfl := shown.unique shown'
        exact inner e hmem part (find?_of_label h.labels hpart hlabel)
  · intro hinner
    refine .fields shown h.distinct h.resolved fun e he part hpart => ?_
    have hlabel : part.label = some e.name := by simpa using List.find?_some hpart
    exact hinner part (List.mem_of_find?_eq_some hpart) e
      ((entryFor?_eq_some_iff h.distinct).mpr ⟨he, hlabel⟩)

/-- The types of the parts that no entry lists have to be known, for wildcards to stand there. -/
theorem legal_arrange_iff (shown : r.Shows ty parts) (blank : Nat → Span)
    (known : ∀ part ∈ parts, entryFor? entries part = none → r.knows part.ty = true) :
    (sequence span (arrange parts entries blank)).Legal r ty ↔
      ∀ part ∈ parts, ∀ e, entryFor? entries part = some e → e.pattern.Legal r part.ty := by
  constructor
  · intro hlegal part hpart e he
    cases hlegal with
    | sequence shown' _ inner =>
        obtain rfl := shown.unique shown'
        obtain ⟨index, hindex⟩ := List.mem_iff_getElem?.mp hpart
        have hitem : (arrange parts entries blank)[index]? = some e.pattern := by
          rw [arrange_getElem?, hindex, Option.map_some, he]
          rfl
        exact inner _ part (List.mem_of_getElem? (List.getElem?_zip_eq_some.mpr ⟨hitem, hindex⟩))
  · intro hinner
    refine .sequence shown (length_arrange blank) fun item part hmem => ?_
    obtain ⟨index, hzip⟩ := List.mem_iff_getElem?.mp hmem
    obtain ⟨hitem, hpart⟩ := List.getElem?_zip_eq_some.mp hzip
    dsimp only at hitem hpart
    rw [arrange_getElem?, hpart, Option.map_some, Option.some.injEq] at hitem
    subst hitem
    cases he : entryFor? entries part with
    | none => exact .wildcard (known part (List.mem_of_getElem? hpart) he)
    | some e => exact hinner part (List.mem_of_getElem? hpart) e he

theorem binders_arrange (distinct : (entries.map (·.name)).Nodup) (blank : Nat → Span) :
    (sequence span (arrange parts entries blank)).binders =
      ((entrySlots parts entries).map (·.2)).flatMap (·.pattern.binders) := by
  rw [binders_sequence, entrySlots_eq distinct, arrange]
  induction parts.zipIdx with
  | nil => rfl
  | cons slot slots ih =>
      obtain ⟨part, index⟩ := slot
      rw [List.map_cons, List.flatMap_cons, ih, List.filterMap_cons]
      dsimp only
      cases entryFor? entries part with
      | none => rfl
      | some e => rfl

/-- The check accepts the entries just if it accepts the sequence. -/
theorem Names.accepted (h : Names parts entries) (shown : r.Shows ty parts) (span' : Span)
    (blank : Nat → Span)
    (known : ∀ part ∈ parts, entryFor? entries part = none → r.knows part.ty = true) :
    (∃ c, (fields span entries).check r ty = .ok c) ↔
      ∃ c, (sequence span' (arrange parts entries blank)).check r ty = .ok c := by
  rw [check_succeeds_iff, check_succeeds_iff, legal_fields_iff shown h,
    legal_arrange_iff shown blank known, binders_arrange h.distinct, binders_fields,
    (h.perm_entrySlots.flatMap_right _).nodup_iff]

/-! ## What both forms are resolved to -/

theorem draft_wildcard_node : ((wildcard span : Pattern γ).draft r ty).node = .wildcard := by
  cases hkind : r.kind? ty with
  | none => rw [draft_unknown hkind]; rfl
  | some kind => rw [draft_wildcard hkind]

/-- The slots of the parts that entries list. -/
def listedSlots (r : Registry) (parts : List PieceDef) (entries : List (FieldEntry (Pattern γ))) :
    List (Nat × Node γ) :=
  parts.zipIdx.filterMap fun (part, index) => (nodeFor? r entries part).map (index, ·)

/-- The slots of all parts, with wildcards where no entry lists them. -/
def allSlots (r : Registry) (parts : List PieceDef) (entries : List (FieldEntry (Pattern γ))) :
    List (Nat × Node γ) :=
  parts.zipIdx.map fun (part, index) => (index, (nodeFor? r entries part).getD .wildcard)

section Layout

variable {kind : TypeKind} {layout : Layout}

/-- However the entries are written, their slots are sorted into those of the parts listed. -/
theorem Names.node_fields (h : Names layout.parts entries) (hkind : r.kind? ty = some kind)
    (hlayout : r.layout kind ty span = .ok layout) :
    ∃ slots, ((fields span entries).draft r ty).node = layout.ofSlots slots ∧
      (slots.mergeSort fun a b => a.1 ≤ b.1) = listedSlots r layout.parts entries := by
  have shown := (Registry.shows_iff span).mpr ⟨kind, layout, hkind, hlayout, rfl⟩
  obtain ⟨kind', layout', slot, hkind', hlayout', -, hslot, hdraft⟩ :=
    draft_fields_of_shows span shown h.distinct h.resolved
  cases hkind.symm.trans hkind'
  cases hlayout.symm.trans hlayout'
  refine ⟨_, by rw [hdraft], ?_⟩
  let position : Name → Nat := fun name => (slot name).1
  have hposition (e) (he : e ∈ entries) :
      ∃ part, layout.parts[position e.name]? = some part ∧ part.label = some e.name := by
    obtain ⟨part, hpart, hat, -⟩ := hslot e he
    exact ⟨part, hat, by simpa using List.find?_some hpart⟩
  refine (sorted_entries _ h.labels h.distinct hposition).trans ?_
  rw [entrySlots_eq h.distinct, List.map_filterMap, listedSlots]
  refine List.filterMap_congr fun (part, index) hmem => ?_
  cases he : entryFor? entries part with
  | none => simp [nodeFor?, he]
  | some e =>
      obtain ⟨hentry, hlabel⟩ := (entryFor?_eq_some_iff h.distinct).mp he
      obtain ⟨part', hfirst, -, hty⟩ := hslot e hentry
      have hsame := find?_of_label h.labels (List.fst_mem_of_mem_zipIdx hmem) hlabel
      rw [hfirst] at hsame
      cases hsame
      simp [nodeFor?, he, hty]

theorem node_arrange (hkind : r.kind? ty = some kind)
    (hlayout : r.layout kind ty span = .ok layout) (blank : Nat → Span) :
    ((sequence span (arrange layout.parts entries blank)).draft r ty).node =
      layout.ofItems (layout.parts.map fun part => (nodeFor? r entries part).getD .wildcard) := by
  rw [draft_sequence hkind hlayout (length_arrange blank), draftItems_eq]
  refine congrArg layout.ofItems (List.ext_getElem? fun index => ?_)
  rw [List.getElem?_zipWith, arrange_getElem?, List.getElem?_map, List.getElem?_map]
  cases layout.parts[index]? with
  | none => rfl
  | some part =>
      cases he : entryFor? entries part with
      | none => simp [nodeFor?, he, draft_wildcard_node]
      | some e => simp [nodeFor?, he]

end Layout

theorem zipIdx_nodes (r : Registry) (parts : List PieceDef)
    (entries : List (FieldEntry (Pattern γ))) :
    ((parts.map fun part => (nodeFor? r entries part).getD .wildcard).zipIdx.map
      fun (node, index) => (index, node)) = allSlots r parts entries := by
  rw [List.zipIdx_map, List.map_map]
  rfl

/-- If every part is listed, the slots of the parts listed are those of all parts. -/
theorem allSlots_eq_listedSlots (h : ∀ part ∈ parts, ∃ e, entryFor? entries part = some e) :
    allSlots r parts entries = listedSlots r parts entries := by
  rw [allSlots, listedSlots, ← List.filterMap_eq_map]
  refine List.filterMap_congr fun (part, index) hmem => ?_
  obtain ⟨e, he⟩ := h part (List.fst_mem_of_mem_zipIdx hmem)
  simp [nodeFor?, he]

theorem entryFor?_perm {entries' : List (FieldEntry (Pattern γ))} (hperm : entries.Perm entries')
    (distinct : (entries.map (·.name)).Nodup) :
    entryFor? entries part = entryFor? entries' part := by
  refine Option.ext fun e => ?_
  rw [entryFor?_eq_some_iff distinct,
    entryFor?_eq_some_iff ((hperm.map _).nodup_iff.mp distinct), hperm.mem_iff]

end Pattern

/-! ## Wildcards that do nothing -/

/-- Going through the fields of a value, those where nothing is asked may be left out. -/
theorem Node.runFields_listed {α : Type} (host : Host γ σ) (outer : Lookup)
    (node? : α → Option (Node γ)) {slots : List (α × Nat)} {vs : List Value}
    (hrange : ∀ slot ∈ slots, slot.2 < vs.length) (bindings : Bindings) :
    runFields host outer (slots.map fun (a, index) => (index, (node? a).getD .wildcard)) vs
        bindings =
      runFields host outer (slots.filterMap fun (a, index) => (node? a).map (index, ·)) vs
        bindings := by
  induction slots generalizing bindings with
  | nil => rfl
  | cons slot slots ih =>
      obtain ⟨a, index⟩ := slot
      rw [List.forall_mem_cons] at hrange
      have hfield : vs[index]? = some vs[index] := List.getElem?_eq_getElem hrange.1
      rw [List.map_cons, List.filterMap_cons]
      dsimp only
      cases node? a with
      | none =>
          simp only [runFields, hfield, Option.map_none, Option.getD_none, run, pure_bind]
          exact ih hrange.2 bindings
      | some node =>
          simp only [runFields, hfield, Option.map_some, Option.getD_some]
          refine bind_congr fun matched => ?_
          cases matched with
          | none => rfl
          | some bindings => exact ih hrange.2 bindings

/-- Two nodes for the same aggregate type match alike if they differ in wildcards only, at fields
that the values have. -/
theorem Node.run_listed {entries : List (FieldEntry (Pattern γ))} (host : Host γ σ) (outer : Lookup)
    {v : Value} (hv : ∀ d vs, v = .aggregate d vs → d.ty = ty → vs.length = parts.length)
    (typeName : String) (bindings : Bindings) :
    (Node.fields ty typeName (Pattern.allSlots r parts entries)).run host outer v bindings =
      (Node.fields ty typeName (Pattern.listedSlots r parts entries)).run host outer v
        bindings := by
  cases v with
  | aggregate d vs =>
      simp only [run]
      by_cases hty : ty = d.ty
      · subst hty
        have hlength := hv d vs rfl rfl
        refine bind_congr fun _ => runFields_listed host outer _ (fun slot hslot => ?_) bindings
        rw [hlength]
        exact List.snd_lt_of_mem_zipIdx hslot
      · simp only [expectType, if_neg hty]
        rfl
  | int | bool | char | unit | str | tuple | null | pointer | constant | union | extension =>
      simp only [run]

/-- A built value of an aggregate type has as many fields as the type. -/
theorem Value.Built.length_fields {operations : List Operation} {d d' : AggregateDef}
    {vs : List Value} (h : (Value.aggregate d' vs).Built (r.run operations))
    (hkind : r.kind? ty = some (.aggregate d)) (hty : d'.ty = ty) :
    vs.length = d.fields.length := by
  obtain ⟨hown, hfields⟩ := h.wellFormed.sound
  have hsame := (Registry.run_extends r operations).kind? hkind nofun
  rw [Registry.aggregate?_eq_some_iff, hty] at hown
  cases hown.symm.trans hsame
  exact hfields.length_eq

/-! ## The two forms -/

namespace Pattern

variable {entries entries' : List (FieldEntry (Pattern γ))} {span span' : Span}

/-- The fields of an aggregate, as the parts that patterns ask for. -/
def fieldParts (d : AggregateDef) : List PieceDef := d.fields.map fun f => ⟨some f.name, f.ty⟩

theorem names_fieldParts {d : AggregateDef} (valid : r.isValid = true)
    (hkind : r.kind? ty = some (.aggregate d)) (distinct : (entries.map (·.name)).Nodup)
    (declared : ∀ e ∈ entries, e.name ∈ d.fields.map (·.name)) : Names (fieldParts d) entries where
  labels := by
    simpa [fieldParts, List.filterMap_map, Function.comp_def] using
      Registry.nodup_fields valid hkind
  distinct := distinct
  declared e he := by
    obtain ⟨field, hfield, hname⟩ := List.mem_map.mp (declared e he)
    exact ⟨_, List.mem_map.mpr ⟨field, hfield, rfl⟩, congrArg some hname⟩

/-- Fields of an aggregate may be asked for by name or by position. -/
theorem interchangeable_fields {d : AggregateDef} (valid : r.isValid = true)
    (hkind : r.kind? ty = some (.aggregate d)) (hpublic : d.allPublic = true)
    (h : Names (fieldParts d) entries) (span span' : Span) (blank : Nat → Span) :
    Interchangeable r ty (fun v => ∃ operations, v.Built (r.run operations))
      (fields span entries) (sequence span' (arrange (fieldParts d) entries blank)) := by
  have hlayout (span : Span) : r.layout (.aggregate d) ty span =
      .ok ⟨.aggregate ty (r.text d.name), fieldParts d⟩ := by
    rw [Registry.layout, if_pos hpublic, fieldParts]
  have shown : r.Shows ty (fieldParts d) :=
    (Registry.shows_iff span).mpr ⟨_, _, hkind, hlayout span, rfl⟩
  constructor
  case accepted =>
    refine h.accepted shown span' blank fun part hpart _ => ?_
    obtain ⟨field, hfield, rfl⟩ := List.mem_map.mp hpart
    exact (Registry.approves_of_isValid valid hkind).2 field hfield
  case alike =>
    rintro c c' hc hc' v ⟨operations, hv⟩
    obtain ⟨-, hroot⟩ := check_eq_ok hc
    obtain ⟨-, hroot'⟩ := check_eq_ok hc'
    obtain ⟨slots, hnode, hsorted⟩ := h.node_fields hkind (hlayout span)
    have hlisted : c.root = .fields ty (r.text d.name) (listedSlots r (fieldParts d) entries) := by
      rw [hroot, hnode, Layout.ofSlots]
      simp only [hsorted]
    have hall : c'.root = .fields ty (r.text d.name) (allSlots r (fieldParts d) entries) := by
      rw [hroot', node_arrange hkind (hlayout span'), Layout.ofItems]
      simp only [zipIdx_nodes]
    refine Compiled.alikeOn_of_run fun σ host outer => ?_
    rw [Compiled.run, Compiled.run, hlisted, hall]
    refine (Node.run_listed host outer (fun d' vs heq hty => ?_) _ []).symm
    subst heq
    rw [hv.length_fields hkind hty, fieldParts, List.length_map]

theorem Names.of_legal {d : ExtensionDef} {shape : AggregateShape}
    (hkind : r.kind? ty = some (.extension d)) (hshape : d.aggregate = some shape)
    (labels : (shape.pieces.filterMap (·.label)).Nodup)
    (h : (fields span entries).Legal r ty) : Names shape.pieces entries := by
  cases h with
  | fields shown distinct resolved _ =>
      obtain rfl := shown.unique (.extension hkind hshape)
      refine ⟨labels, distinct, fun e he => ?_⟩
      obtain ⟨part, hpart⟩ := resolved e he
      exact ⟨part, List.mem_of_find?_eq_some hpart, by simpa using List.find?_some hpart⟩

theorem legal_fields_perm (hperm : entries.Perm entries') (h : (fields span entries).Legal r ty) :
    (fields span' entries').Legal r ty := by
  cases h with
  | fields shown distinct resolved inner =>
      exact .fields shown ((hperm.map _).nodup_iff.mp distinct)
        (fun e he => resolved e (hperm.mem_iff.mpr he))
        fun e he => inner e (hperm.mem_iff.mpr he)

theorem accepted_perm (r : Registry) (ty : TypeId) (span span' : Span)
    (hperm : entries.Perm entries') :
    (∃ c, (fields span entries).check r ty = .ok c) ↔
      ∃ c, (fields span' entries').check r ty = .ok c := by
  rw [check_succeeds_iff, check_succeeds_iff, binders_fields, binders_fields,
    (hperm.flatMap_right _).nodup_iff]
  exact and_congr_left fun _ => ⟨legal_fields_perm hperm, legal_fields_perm hperm.symm⟩

section Pieces

variable {d : ExtensionDef} {shape : AggregateShape}

theorem node_fields_pieces (hkind : r.kind? ty = some (.extension d))
    (hshape : d.aggregate = some shape) (h : Names shape.pieces entries) (span : Span) :
    ((fields span entries).draft r ty).node =
      .pieces ty (r.text d.name) (listedSlots r shape.pieces entries) := by
  have hlayout : r.layout (.extension d) ty span =
      .ok ⟨.extension ty (r.text d.name), shape.pieces⟩ := by rw [Registry.layout, hshape]
  obtain ⟨slots, hnode, hsorted⟩ := h.node_fields hkind hlayout
  rw [hnode, Layout.ofSlots]
  simp only [hsorted]

/-- Pieces of an extension object may be asked for in any order. -/
theorem resolvedAlike_perm (hkind : r.kind? ty = some (.extension d))
    (hshape : d.aggregate = some shape) (labels : (shape.pieces.filterMap (·.label)).Nodup)
    (hperm : entries.Perm entries') (span span' : Span) :
    ResolvedAlike r ty (fields span entries) (fields span' entries') where
  accepted := accepted_perm r ty span span' hperm
  root c c' hc hc' := by
    obtain ⟨hlegal, hroot⟩ := check_eq_ok hc
    obtain ⟨hlegal', hroot'⟩ := check_eq_ok hc'
    have h := Names.of_legal hkind hshape labels hlegal
    have hlisted : listedSlots r shape.pieces entries = listedSlots r shape.pieces entries' := by
      simp only [listedSlots, nodeFor?, entryFor?_perm hperm h.distinct]
    rw [hroot, hroot', node_fields_pieces hkind hshape h,
      node_fields_pieces hkind hshape (.of_legal hkind hshape labels hlegal'), hlisted]

/-- All pieces of an extension object may be asked for by label or by position. -/
theorem resolvedAlike_pieces (hkind : r.kind? ty = some (.extension d))
    (hshape : d.aggregate = some shape) (h : Names shape.pieces entries)
    (every : ∀ piece ∈ shape.pieces, ∃ e ∈ entries, piece.label = some e.name)
    (span span' : Span) (blank : Nat → Span) :
    ResolvedAlike r ty (fields span entries)
      (sequence span' (arrange shape.pieces entries blank)) := by
  have hlisted (piece) (hpiece : piece ∈ shape.pieces) :
      ∃ e, entryFor? entries piece = some e := by
    obtain ⟨e, he, hlabel⟩ := every piece hpiece
    exact ⟨e, (entryFor?_eq_some_iff h.distinct).mpr ⟨he, hlabel⟩⟩
  constructor
  case accepted =>
    refine h.accepted (.extension hkind hshape) span' blank fun piece hpiece hnone => ?_
    obtain ⟨e, he⟩ := hlisted piece hpiece
    cases hnone.symm.trans he
  case root =>
    intro c c' hc hc'
    obtain ⟨-, hroot⟩ := check_eq_ok hc
    obtain ⟨-, hroot'⟩ := check_eq_ok hc'
    have hlayout : r.layout (.extension d) ty span' =
        .ok ⟨.extension ty (r.text d.name), shape.pieces⟩ := by rw [Registry.layout, hshape]
    rw [hroot, hroot', node_fields_pieces hkind hshape h, node_arrange hkind hlayout,
      Layout.ofItems, ← allSlots_eq_listedSlots hlisted]
    simp only [zipIdx_nodes]

end Pieces

end Pattern

/-- What can be relied on when the parts of a product are asked for in another way. -/
structure ArrangementsAgree (r : Registry) : Prop where
  /-- Fields of an aggregate, by name in any order or by position. -/
  fields : r.isValid = true → ∀ {γ : Type} {ty : TypeId} {d : AggregateDef},
    r.kind? ty = some (.aggregate d) → d.allPublic = true →
      ∀ entries : List (FieldEntry (Pattern γ)), (entries.map (·.name)).Nodup →
        (∀ e ∈ entries, e.name ∈ d.fields.map (·.name)) → ∀ span span' blank,
          Pattern.Interchangeable r ty (fun v => ∃ operations, v.Built (r.run operations))
            (.fields span entries)
            (.sequence span' (Pattern.arrange (Pattern.fieldParts d) entries blank))
  /-- Pieces of an extension object, in any order. -/
  permuted : ∀ {γ : Type} {ty : TypeId} {d : ExtensionDef} {shape : AggregateShape},
    r.kind? ty = some (.extension d) → d.aggregate = some shape →
      (shape.pieces.filterMap (·.label)).Nodup →
        ∀ entries entries' : List (FieldEntry (Pattern γ)), entries.Perm entries' →
          ∀ span span', Pattern.ResolvedAlike r ty (.fields span entries) (.fields span' entries') ∧
            Pattern.Interchangeable r ty (fun _ => True) (.fields span entries)
              (.fields span' entries')
  /-- All pieces of an extension object, by label in any order or by position. -/
  pieces : ∀ {γ : Type} {ty : TypeId} {d : ExtensionDef} {shape : AggregateShape},
    r.kind? ty = some (.extension d) → d.aggregate = some shape →
      ∀ entries : List (FieldEntry (Pattern γ)), Pattern.Names shape.pieces entries →
        (∀ piece ∈ shape.pieces, ∃ e ∈ entries, piece.label = some e.name) →
          ∀ span span' blank, Pattern.Interchangeable r ty (fun _ => True) (.fields span entries)
            (.sequence span' (Pattern.arrange shape.pieces entries blank))

theorem arrangementsAgree (r : Registry) : ArrangementsAgree r := by
  constructor
  case fields =>
    intro valid γ ty d hkind hpublic entries distinct declared span span' blank
    exact Pattern.interchangeable_fields valid hkind hpublic
      (Pattern.names_fieldParts valid hkind distinct declared) span span' blank
  case permuted =>
    intro γ ty d shape hkind hshape labels entries entries' hperm span span'
    have hresolved := Pattern.resolvedAlike_perm hkind hshape labels hperm span span'
    exact ⟨hresolved, hresolved.interchangeable⟩
  case pieces =>
    intro γ ty d shape hkind hshape entries h every span span' blank
    exact (Pattern.resolvedAlike_pieces hkind hshape h every span span' blank).interchangeable

/-- The second field of a pair may be asked for by its name, or with a wildcard at the first. -/
theorem arrangementsAgree_pair :
    let p : Pattern Unit := .fields Span.dummy [⟨⟨3⟩, .bind Span.dummy ⟨9⟩, Span.dummy⟩]
    let q : Pattern Unit := .sequence Span.dummy [.wildcard Span.dummy, .bind Span.dummy ⟨9⟩]
    ∃ c c', p.check pairRegistry ⟨5⟩ = .ok c ∧ q.check pairRegistry ⟨5⟩ = .ok c' ∧
      c.AlikeOn c' pair := by
  intro p q
  have valid : pairRegistry.isValid = true := by decide +kernel
  have hkind : pairRegistry.kind? ⟨5⟩ = some (.aggregate ⟨⟨1⟩, ⟨5⟩,
      [⟨⟨2⟩, TypeId.int, .isPublic, Span.dummy⟩, ⟨⟨3⟩, TypeId.int, .isPublic, Span.dummy⟩]⟩) := by
    decide +kernel
  have hagree : Pattern.Interchangeable pairRegistry ⟨5⟩
      (fun v => ∃ operations, v.Built (pairRegistry.run operations)) p q :=
    (arrangementsAgree pairRegistry).fields valid hkind rfl _ (by decide) (by decide) Span.dummy
      Span.dummy fun _ => Span.dummy
  have built : pair.Built pairRegistry := ⟨_, reachable_pair, rfl, List.mem_cons_self⟩
  have succeeds : (p.check pairRegistry ⟨5⟩).isOk = true := by decide +kernel
  cases checked : p.check pairRegistry ⟨5⟩ with
  | error mistakes =>
      rw [checked] at succeeds
      cases succeeds
  | ok c =>
      obtain ⟨c', hc'⟩ := hagree.accepted.mp ⟨c, checked⟩
      exact ⟨c, c', rfl, hc', hagree.alike c c' checked hc' pair ⟨[], built⟩⟩

end TaggedMatch
