import TaggedMatch.Pattern.Check
import TaggedMatch.Proofs.Pattern.Legal
import TaggedMatch.Proofs.Pattern.Slots
import TaggedMatch.Proofs.Registry.Validity

/-!
# The check accepts exactly the legal patterns

A check yields a draft whatever it finds, and the findings of a pattern are put together from those of
its parts. So the two things that make a check fail come apart. A mistake is found in a pattern just
if some part of it is not legal; this is shown for every pattern by going down the pattern, since the
type each part is checked against depends on the type of the whole only. An identifier is found bound
twice just if the binders of the findings repeat, and the findings of a legal pattern have the
pattern's own binders.
-/

namespace TaggedMatch

/-! ## Findings -/

namespace Finding

/-- No mistake was found on the way. -/
def Clean (findings : List Finding) : Prop := ∀ m, Finding.mistake m ∉ findings

@[simp] theorem clean_nil : Clean [] := fun _ h => nomatch h

@[simp] theorem clean_append {fs gs : List Finding} : Clean (fs ++ gs) ↔ Clean fs ∧ Clean gs := by
  simp [Clean, forall_and]

@[simp] theorem clean_binder {name : Name} {span : Span} {fs : List Finding} :
    Clean (.binder name span :: fs) ↔ Clean fs := by
  simp [Clean]

@[simp] theorem not_clean_mistake {m : Mistake} {fs : List Finding} :
    ¬ Clean (.mistake m :: fs) := fun h => h m List.mem_cons_self

theorem clean_flatten {fss : List (List Finding)} :
    Clean fss.flatten ↔ ∀ fs ∈ fss, Clean fs := by
  induction fss with
  | nil => simp
  | cons fs fss ih => simp [ih]

theorem binders_append (fs gs : List Finding) : binders (fs ++ gs) = binders fs ++ binders gs :=
  List.filterMap_append

/-- Nothing is wrong after `bound` was bound just if nothing was mistaken on the way and no
identifier is bound again. -/
theorem mistakesAfter_eq_nil_iff {findings : List Finding} {bound : List (Name × Span)} :
    mistakesAfter bound findings = [] ↔ Clean findings ∧ (binders findings).Nodup ∧
      ∀ name ∈ binders findings, name ∉ bound.map (·.1) := by
  induction findings generalizing bound with
  | nil => simp [mistakesAfter, binders]
  | cons finding rest ih =>
      cases finding with
      | mistake m => simp [mistakesAfter]
      | binder name span =>
          have hbinders : binders (.binder name span :: rest) = name :: binders rest := rfl
          rw [mistakesAfter, hbinders, clean_binder, List.nodup_cons, List.forall_mem_cons]
          split
          · next first hfirst =>
              -- The identifier was bound before.
              have hmem : name ∈ bound.map (·.1) := by
                by_contra hfree
                rw [lookup_eq_none_iff.mpr hfree] at hfirst
                cases hfirst
              simp only [reduceCtorEq, false_iff]
              exact fun h => h.2.2.1 hmem
          · next hnone =>
              have hfree := lookup_eq_none_iff.mp hnone
              simp only [ih, List.map_cons, List.mem_cons, not_or]
              constructor
              · rintro ⟨hclean, hnodup, hrest⟩
                exact ⟨hclean, ⟨fun hmem => (hrest name hmem).1 rfl, hnodup⟩, hfree,
                  fun other hother => (hrest other hother).2⟩
              · rintro ⟨hclean, ⟨hfresh, hnodup⟩, -, hrest⟩
                refine ⟨hclean, hnodup, fun other hother => ⟨?_, hrest other hother⟩⟩
                rintro rfl
                exact hfresh hother

end Finding

/-- A check succeeds just if it found no mistake and no identifier bound twice. -/
theorem Pattern.check_eq_ok_iff {γ : Type} {r : Registry} {p : Pattern γ} {ty : TypeId}
    {c : Compiled γ} : p.check r ty = .ok c ↔
      (Finding.Clean (p.draft r ty).findings ∧ (Finding.binders (p.draft r ty).findings).Nodup) ∧
        c = ⟨(p.draft r ty).node, ty, Finding.binders (p.draft r ty).findings, p.span⟩ := by
  have hnone : Finding.mistakes (p.draft r ty).findings = [] ↔
      Finding.Clean (p.draft r ty).findings ∧
        (Finding.binders (p.draft r ty).findings).Nodup := by
    simp [Finding.mistakes, Finding.mistakesAfter_eq_nil_iff]
  rw [← hnone, Pattern.check]
  cases h : Finding.mistakes (p.draft r ty).findings with
  | nil => simp [eq_comm]
  | cons m ms => simp

/-! ## The parts of a product -/

/-- The three kinds of types that show parts. -/
theorem Registry.layout_eq_ok {r : Registry} {kind : TypeKind} {ty : TypeId} {span : Span}
    {layout : Layout} (h : r.layout kind ty span = .ok layout) :
    (∃ elements, kind = .tuple elements ∧ layout = ⟨.tuple, elements.map (⟨none, ·⟩)⟩) ∨
    (∃ d, kind = .aggregate d ∧ (∀ f ∈ d.fields, f.visibility = .isPublic) ∧
      layout = ⟨.aggregate ty (r.text d.name), d.fields.map fun f => ⟨some f.name, f.ty⟩⟩) ∨
    (∃ d shape, kind = .extension d ∧ d.aggregate = some shape ∧
      layout = ⟨.extension ty (r.text d.name), shape.pieces⟩) := by
  unfold Registry.layout at h
  split at h
  · cases h
    exact .inl ⟨_, rfl, rfl⟩
  · split at h
    · next hpublic =>
        cases h
        exact .inr (.inl ⟨_, rfl, by simpa [AggregateDef.allPublic] using hpublic, rfl⟩)
    · cases h
  · split at h
    · next hshape =>
        cases h
        exact .inr (.inr ⟨_, _, rfl, hshape, rfl⟩)
    · cases h
  · cases h

theorem Registry.shows_iff {r : Registry} {ty : TypeId} {parts : List PieceDef} (span : Span) :
    r.Shows ty parts ↔ ∃ kind layout, r.kind? ty = some kind ∧
      r.layout kind ty span = .ok layout ∧ layout.parts = parts := by
  constructor
  · rintro (hkind | ⟨hkind, hpublic⟩ | ⟨hkind, hshape⟩)
    · exact ⟨_, _, hkind, rfl, rfl⟩
    · next d =>
        have hall : d.allPublic = true := by simpa [AggregateDef.allPublic] using hpublic
        exact ⟨_, _, hkind, by rw [Registry.layout, if_pos hall], rfl⟩
    · exact ⟨_, _, hkind, by rw [Registry.layout, hshape], rfl⟩
  · rintro ⟨kind, layout, hkind, hlayout, rfl⟩
    rcases Registry.layout_eq_ok hlayout with
      ⟨elements, rfl, rfl⟩ | ⟨d, rfl, hpublic, rfl⟩ | ⟨d, shape, rfl, hshape, rfl⟩
    · exact .tuple hkind
    · exact .aggregate hkind hpublic
    · exact .extension hkind hshape

/-- The first that passes a test is the one at the position of the first that does. -/
theorem find?_eq_some_iff_findIdx? {α : Type} {l : List α} {test : α → Bool} {a : α} :
    l.find? test = some a ↔ ∃ index, l.findIdx? test = some index ∧ l[index]? = some a := by
  induction l with
  | nil => simp
  | cons b l ih =>
      rw [List.find?_cons, List.findIdx?_cons]
      cases htest : test b with
      | true => simp
      | false => simp [ih]

/-- Where some member passes a test, there is a first that does. -/
theorem exists_find?_eq_some {α : Type} {l : List α} (test : α → Bool) {a : α} (ha : a ∈ l)
    (htest : test a = true) : ∃ first ∈ l, test first = true ∧ l.find? test = some first := by
  obtain ⟨first, hfirst⟩ := Option.isSome_iff_exists.mp (List.find?_isSome.mpr ⟨a, ha, htest⟩)
  exact ⟨first, List.mem_of_find?_eq_some hfirst, List.find?_some hfirst, hfirst⟩

theorem Layout.find?_eq_some_iff {layout : Layout} {label : Name} {index : Nat} {ty : TypeId} :
    layout.find? label = some (index, ty) ↔
      layout.parts.findIdx? (·.label == some label) = some index ∧
        ∃ part, layout.parts[index]? = some part ∧ part.ty = ty := by
  rw [Layout.find?, Option.bind_eq_some_iff]
  constructor
  · rintro ⟨i, hi, hmap⟩
    obtain ⟨part, hpart, heq⟩ := Option.map_eq_some_iff.mp hmap
    cases heq
    exact ⟨hi, part, hpart, rfl⟩
  · rintro ⟨hi, part, hpart, rfl⟩
    exact ⟨index, hi, by rw [hpart]; rfl⟩

theorem Layout.find?_of_part {layout : Layout} {label : Name} {part : PieceDef}
    (h : layout.parts.find? (·.label == some label) = some part) :
    ∃ index, layout.find? label = some (index, part.ty) ∧ layout.parts[index]? = some part := by
  obtain ⟨index, hindex, hpart⟩ := find?_eq_some_iff_findIdx?.mp h
  exact ⟨index, Layout.find?_eq_some_iff.mpr ⟨hindex, part, hpart, rfl⟩, hpart⟩

theorem Layout.part_of_find? {layout : Layout} {label : Name} {slot : Nat × TypeId}
    (h : layout.find? label = some slot) :
    ∃ part, layout.parts.find? (·.label == some label) = some part ∧ part.ty = slot.2 := by
  obtain ⟨hindex, part, hpart, hty⟩ := Layout.find?_eq_some_iff.mp h
  exact ⟨part, find?_eq_some_iff_findIdx?.mpr ⟨_, hindex, hpart⟩, hty⟩

/-! ## The tests of alternatives and literals -/

namespace Registry

variable {r : Registry} {ty : TypeId}

theorem alternativeTest_union {d : UnionDef} {selector : Name} {a : AlternativeDef} (span : Span)
    (first : d.alternatives.find? (·.name == selector) = some a) :
    ∃ index, d.alternativeIndex? selector = some index ∧ d.alternatives[index]? = some a ∧
      r.alternativeTest selector (.union d) ty span =
        .ok (.union ty (r.text d.name) index, a.payload) := by
  obtain ⟨index, hindex, ha⟩ := find?_eq_some_iff_findIdx?.mp first
  refine ⟨index, hindex, ha, ?_⟩
  rw [alternativeTest, UnionDef.alternativeIndex?, hindex]
  simp [UnionDef.payloadType, UnionDef.alternative?, ha]

theorem alternativeTest_variant {d : ExtensionDef} {shape : VariantShape} {selector : Name}
    {a : VariantAlternativeDef} (span : Span) (declared : d.variant = some shape)
    (first : shape.alternatives.find? (·.selector == selector) = some a)
    (one : ∀ b ∈ shape.alternatives, b.selector = selector → b.discriminator = a.discriminator) :
    r.alternativeTest selector (.extension d) ty span =
      .ok (.variant ty (r.text d.name) a.discriminator, a.payload) := by
  have hone : shape.discriminatorsFor selector = [a.discriminator] :=
    discriminatorsFor_eq_singleton_iff.mpr ⟨⟨a, first, rfl⟩, one⟩
  simp only [alternativeTest, declared, hone]
  simp [VariantShape.payloadType, VariantShape.lookup?, first]

end Registry

/-! ## Drafts

One equation for each rule of the judgement, whatever becomes of the parts. -/

namespace Pattern

variable {γ : Type} {r : Registry} {ty : TypeId} {kind : TypeKind} {span : Span}

theorem draft_literal {value : Literal} {test : LiteralTest} (hkind : r.kind? ty = some kind)
    (htest : r.literalTest value kind ty span = .ok test) :
    (literal span value : Pattern γ).draft r ty = ⟨.literal test, []⟩ := by
  rw [draft, hkind]
  simp only [htest]

theorem draft_binding {name : Name} {sub : Pattern γ} (hkind : r.kind? ty = some kind) :
    (binding span name sub).draft r ty =
      ⟨.binding name (sub.draft r ty).node, .binder name span :: (sub.draft r ty).findings⟩ := by
  rw [draft, hkind]

theorem draft_null {pointee : TypeId} (hkind : r.kind? ty = some (.pointer pointee)) :
    (null span : Pattern γ).draft r ty = ⟨.null, []⟩ := by
  rw [draft, hkind]

theorem draft_deref {pointee : TypeId} {sub : Pattern γ}
    (hkind : r.kind? ty = some (.pointer pointee)) :
    (deref span sub).draft r ty =
      ⟨.deref (sub.draft r pointee).node, (sub.draft r pointee).findings⟩ := by
  rw [draft, hkind]

theorem draft_alternative {selector : Name} {payload : Pattern γ} {test : AlternativeTest}
    {payloadTy : TypeId} (hkind : r.kind? ty = some kind)
    (htest : r.alternativeTest selector kind ty span = .ok (test, payloadTy)) :
    (alternative span selector payload).draft r ty =
      ⟨test.node (payload.draft r payloadTy).node, (payload.draft r payloadTy).findings⟩ := by
  rw [draft, hkind]
  simp only [htest]

theorem draft_sequence {items : List (Pattern γ)} {layout : Layout}
    (hkind : r.kind? ty = some kind) (hlayout : r.layout kind ty span = .ok layout)
    (harity : items.length = layout.parts.length) :
    (sequence span items).draft r ty =
      ⟨layout.ofItems (draftItems r items (layout.parts.map (·.ty))).1,
        (draftItems r items (layout.parts.map (·.ty))).2⟩ := by
  rw [draft, hkind]
  simp only [hlayout]
  rw [if_pos harity.symm]

theorem draft_fields {entries : List (FieldEntry (Pattern γ))} {layout : Layout}
    (hkind : r.kind? ty = some kind) (hlayout : r.layout kind ty span = .ok layout) :
    (fields span entries).draft r ty =
      ⟨layout.ofSlots (draftEntries r layout ty [] entries).1,
        (draftEntries r layout ty [] entries).2⟩ := by
  rw [draft, hkind]
  simp only [hlayout]

theorem draft_guarded {sub : Pattern γ} {guard : γ} (hkind : r.kind? ty = some kind) :
    (guarded span sub guard).draft r ty =
      ⟨.guarded (sub.draft r ty).node guard, (sub.draft r ty).findings⟩ := by
  rw [draft, hkind]

/-! ### Lists of parts -/

theorem draftItems_eq (items : List (Pattern γ)) (tys : List TypeId) :
    draftItems r items tys =
      (List.zipWith (fun p ty => (p.draft r ty).node) items tys,
        (List.zipWith (fun p ty => (p.draft r ty).findings) items tys).flatten) := by
  induction items generalizing tys with
  | nil => simp [draftItems]
  | cons p ps ih =>
      cases tys with
      | nil => simp [draftItems]
      | cons ty tys => rw [draftItems, ih]; rfl

/-- The draft of entries whose names differ and resolve, each to the slot given for it. -/
theorem draftEntries_eq {layout : Layout} {seen : List (Name × Span)}
    {entries : List (FieldEntry (Pattern γ))} (slot : Name → Nat × TypeId)
    (hnodup : (entries.map (·.name)).Nodup)
    (hfresh : ∀ e ∈ entries, e.name ∉ seen.map (·.1))
    (hslot : ∀ e ∈ entries, layout.find? e.name = some (slot e.name)) :
    draftEntries r layout ty seen entries =
      (entries.map fun e => ((slot e.name).1, (e.pattern.draft r (slot e.name).2).node),
        entries.flatMap fun e => (e.pattern.draft r (slot e.name).2).findings) := by
  induction entries generalizing seen with
  | nil => rw [draftEntries]; rfl
  | cons e es ih =>
      obtain ⟨name, p, span⟩ := e
      rw [List.forall_mem_cons] at hfresh hslot
      rw [List.map_cons, List.nodup_cons] at hnodup
      have hrest : ∀ e ∈ es, e.name ∉ ((name, span) :: seen).map (·.1) := by
        intro e he hmem
        rcases List.mem_cons.mp hmem with heq | hmem
        · exact hnodup.1 (List.mem_map.mpr ⟨e, he, heq⟩)
        · exact hfresh.2 e he hmem
      rw [draftEntries, lookup_eq_none_iff.mpr hfresh.1]
      simp only [ih hnodup.2 hrest hslot.2, hslot.1]
      rfl

/-- A list of entries without a mistake lists each name once, and each resolves to a part that the
entry's pattern fits without a mistake. -/
theorem of_clean_draftEntries {layout : Layout} {seen : List (Name × Span)}
    {entries : List (FieldEntry (Pattern γ))}
    (h : Finding.Clean (draftEntries r layout ty seen entries).2) :
    (entries.map (·.name)).Nodup ∧ (∀ e ∈ entries, e.name ∉ seen.map (·.1)) ∧
      ∀ e ∈ entries, ∃ slot, layout.find? e.name = some slot ∧
        Finding.Clean (e.pattern.draft r slot.2).findings := by
  induction entries generalizing seen with
  | nil => simp
  | cons e es ih =>
      obtain ⟨name, p, span⟩ := e
      rw [draftEntries] at h
      split at h
      · exact absurd h Finding.not_clean_mistake
      · next hnone =>
          have hfree := lookup_eq_none_iff.mp hnone
          cases hslot : layout.find? name with
          | none =>
              rw [hslot] at h
              exact absurd h Finding.not_clean_mistake
          | some slot =>
              rw [hslot] at h
              obtain ⟨hp, hes⟩ := Finding.clean_append.mp h
              obtain ⟨hnodup, hfresh, hrest⟩ := ih hes
              simp only [List.map_cons, List.mem_cons, not_or] at hfresh
              refine ⟨?_, ?_, ?_⟩
              · refine List.nodup_cons.mpr ⟨fun hmem => ?_, hnodup⟩
                obtain ⟨e, he, heq⟩ := List.mem_map.mp hmem
                exact (hfresh e he).1 heq
              · exact List.forall_mem_cons.mpr ⟨hfree, fun e he => (hfresh e he).2⟩
              · exact List.forall_mem_cons.mpr ⟨⟨slot, hslot, hp⟩, hrest⟩

/-! ## Legal means no mistake -/

theorem Legal.kind? {p : Pattern γ} (h : p.Legal r ty) : ∃ kind, r.kind? ty = some kind := by
  induction h with
  | wildcard known => exact Registry.knows_iff.mp known
  | literal admitted => cases admitted <;> exact ⟨_, ‹_›⟩
  | binding _ ih | guarded _ ih => exact ih
  | null hkind | deref hkind | union hkind | variant hkind => exact ⟨_, hkind⟩
  | sequence shown | fields shown => cases shown <;> exact ⟨_, ‹_›⟩

theorem literalTest_of_admits {value : Literal} (h : r.Admits ty value) :
    ∃ kind test, r.kind? ty = some kind ∧ r.literalTest value kind ty span = .ok test := by
  cases h with
  | int hkind | bool hkind | char hkind => exact ⟨_, _, hkind, rfl⟩
  | @constant d _ hkind declared =>
      obtain ⟨index, hindex⟩ := Option.isSome_iff_exists.mp
        (List.isSome_idxOf?.mpr declared)
      refine ⟨_, .constant ty (r.text d.name) index, hkind, ?_⟩
      simp only [Registry.literalTest, EnumDef.constantIndex?, hindex]

theorem admits_of_literalTest {value : Literal} {test : LiteralTest}
    (hkind : r.kind? ty = some kind) (h : r.literalTest value kind ty span = .ok test) :
    r.Admits ty value := by
  unfold Registry.literalTest at h
  split at h
  · exact .int hkind
  · exact .bool hkind
  · exact .char hkind
  · split at h
    · next hindex =>
        refine .constant hkind (List.isSome_idxOf?.mp ?_)
        exact Option.isSome_iff_exists.mpr ⟨_, hindex⟩
    · cases h
  · cases h

/-- The draft of a field pattern whose names differ and resolve to shown parts: each entry has the
slot of the first part with its label. -/
theorem draft_fields_of_shows (span : Span) {entries : List (FieldEntry (Pattern γ))}
    {parts : List PieceDef} (shown : r.Shows ty parts) (distinct : (entries.map (·.name)).Nodup)
    (resolved : ∀ e ∈ entries, ∃ part, parts.find? (·.label == some e.name) = some part) :
    ∃ (kind : TypeKind) (layout : Layout) (slot : Name → Nat × TypeId),
      r.kind? ty = some kind ∧ r.layout kind ty span = .ok layout ∧ layout.parts = parts ∧
      (∀ e ∈ entries, ∃ part, parts.find? (·.label == some e.name) = some part ∧
        parts[(slot e.name).1]? = some part ∧ (slot e.name).2 = part.ty) ∧
      (fields span entries).draft r ty =
        ⟨layout.ofSlots (entries.map fun e =>
            ((slot e.name).1, (e.pattern.draft r (slot e.name).2).node)),
          entries.flatMap fun e => (e.pattern.draft r (slot e.name).2).findings⟩ := by
  obtain ⟨kind, layout, hkind, hlayout, rfl⟩ := (Registry.shows_iff span).mp shown
  let slot : Name → Nat × TypeId := fun name => (layout.find? name).getD (0, TypeId.unit)
  have hresolve (e) (he : e ∈ entries) : ∃ part,
      layout.parts.find? (·.label == some e.name) = some part ∧
        layout.find? e.name = some (slot e.name) ∧
        layout.parts[(slot e.name).1]? = some part ∧ (slot e.name).2 = part.ty := by
    obtain ⟨part, hpart⟩ := resolved e he
    obtain ⟨index, hfind, hat⟩ := Layout.find?_of_part hpart
    have hslot : slot e.name = (index, part.ty) := by simp [slot, hfind]
    exact ⟨part, hpart, by rw [hfind, hslot], by rw [hslot]; exact hat, by rw [hslot]⟩
  refine ⟨kind, layout, slot, hkind, hlayout, rfl, fun e he => ?_, ?_⟩
  · obtain ⟨part, hpart, -, hat, hty⟩ := hresolve e he
    exact ⟨part, hpart, hat, hty⟩
  · have hfind (e) (he : e ∈ entries) : layout.find? e.name = some (slot e.name) := by
      obtain ⟨-, -, hfind, -⟩ := hresolve e he
      exact hfind
    rw [draft_fields hkind hlayout, draftEntries_eq slot distinct (by simp) hfind]

theorem findings_of_items {items : List (Pattern γ)} {tys : List TypeId}
    (hlength : items.length = tys.length)
    (h : ∀ item ty, (item, ty) ∈ items.zip tys → Finding.Clean (item.draft r ty).findings ∧
      Finding.binders (item.draft r ty).findings = item.binders) :
    Finding.Clean (draftItems r items tys).2 ∧
      Finding.binders (draftItems r items tys).2 = items.flatMap binders := by
  induction items generalizing tys with
  | nil => simp [draftItems_eq, Finding.binders]
  | cons p ps ih =>
      cases tys with
      | nil => cases hlength
      | cons ty tys =>
          simp only [List.zip_cons_cons, List.mem_cons] at h
          obtain ⟨hclean, hbinders⟩ := h p ty (.inl rfl)
          obtain ⟨hcleans, hbinderss⟩ := ih (by simpa using hlength) fun q t hq => h q t (.inr hq)
          rw [draftItems, List.flatMap_cons, Finding.binders_append, hbinders, hbinderss]
          exact ⟨Finding.clean_append.mpr ⟨hclean, hcleans⟩, rfl⟩

theorem findings_of_entries {entries : List (FieldEntry (Pattern γ))}
    {findings : FieldEntry (Pattern γ) → List Finding}
    (h : ∀ e ∈ entries, Finding.Clean (findings e) ∧
      Finding.binders (findings e) = e.pattern.binders) :
    Finding.Clean (entries.flatMap findings) ∧
      Finding.binders (entries.flatMap findings) = entries.flatMap (·.pattern.binders) := by
  induction entries with
  | nil => simp [Finding.binders]
  | cons e es ih =>
      rw [List.forall_mem_cons] at h
      obtain ⟨hclean, hbinders⟩ := ih h.2
      rw [List.flatMap_cons, List.flatMap_cons, Finding.binders_append, h.1.2, hbinders]
      exact ⟨Finding.clean_append.mpr ⟨h.1.1, hclean⟩, rfl⟩

/-- Nothing is mistaken in the draft of a legal pattern, and it finds the pattern's binders. -/
theorem Legal.draft {p : Pattern γ} (h : p.Legal r ty) :
    Finding.Clean (p.draft r ty).findings ∧
      Finding.binders (p.draft r ty).findings = p.binders := by
  induction h with
  | wildcard known =>
      obtain ⟨kind, hkind⟩ := Registry.knows_iff.mp known
      rw [draft_wildcard hkind]
      exact ⟨Finding.clean_nil, rfl⟩
  | literal admitted =>
      obtain ⟨kind, test, hkind, htest⟩ := literalTest_of_admits admitted
      rw [draft_literal hkind htest]
      exact ⟨Finding.clean_nil, rfl⟩
  | binding inner ih =>
      obtain ⟨kind, hkind⟩ := inner.kind?
      rw [draft_binding hkind]
      exact ⟨Finding.clean_binder.mpr ih.1, congrArg _ ih.2⟩
  | null hkind =>
      rw [draft_null hkind]
      exact ⟨Finding.clean_nil, rfl⟩
  | deref hkind _ ih =>
      rw [draft_deref hkind]
      exact ih
  | union hkind first _ ih =>
      obtain ⟨index, -, -, htest⟩ := Registry.alternativeTest_union _ first
      rw [draft_alternative hkind htest]
      exact ih
  | variant hkind declared first one _ ih =>
      rw [draft_alternative hkind (Registry.alternativeTest_variant _ declared first one)]
      exact ih
  | @sequence span _ _ _ shown arity _ ih =>
      obtain ⟨kind, layout, hkind, hlayout, rfl⟩ := (Registry.shows_iff span).mp shown
      rw [draft_sequence hkind hlayout arity, binders_sequence]
      refine findings_of_items (by simpa using arity) fun item ty hmem => ?_
      rw [List.zip_map_right, List.mem_map] at hmem
      obtain ⟨⟨item, part⟩, hmem, heq⟩ := hmem
      cases heq
      exact ih item part hmem
  | @fields span _ _ _ shown distinct resolved _ ih =>
      obtain ⟨kind, layout, slot, -, -, -, hslot, hdraft⟩ :=
        draft_fields_of_shows span shown distinct resolved
      rw [hdraft, binders_fields]
      refine findings_of_entries fun e he => ?_
      obtain ⟨part, hpart, -, hty⟩ := hslot e he
      rw [hty]
      exact ih e he part hpart
  | guarded inner ih =>
      obtain ⟨kind, hkind⟩ := inner.kind?
      rw [draft_guarded hkind]
      exact ih

theorem alternative_of_test {selector : Name} {payload : Pattern γ} {test : AlternativeTest}
    {payloadTy : TypeId} (hkind : r.kind? ty = some kind)
    (htest : r.alternativeTest selector kind ty span = .ok (test, payloadTy))
    (inner : payload.Legal r payloadTy) : (alternative span selector payload).Legal r ty := by
  unfold Registry.alternativeTest at htest
  split at htest
  · next d =>
      split at htest
      · next index hindex =>
          cases htest
          obtain ⟨hi, hname, -⟩ := List.findIdx?_eq_some_iff_getElem.mp hindex
          have ha : d.alternatives[index]? = some d.alternatives[index] :=
            List.getElem?_eq_getElem hi
          simp only [UnionDef.payloadType, UnionDef.alternative?, ha] at inner
          exact .union hkind (find?_eq_some_iff_findIdx?.mpr ⟨index, hindex, ha⟩) inner
      · cases htest
  · next d =>
      split at htest
      · next shape hshape =>
          split at htest
          · cases htest
          · next discriminator hone =>
              cases htest
              obtain ⟨⟨a, hfirst, rfl⟩, hsame⟩ :=
                Registry.discriminatorsFor_eq_singleton_iff.mp hone
              simp only [VariantShape.payloadType, VariantShape.lookup?, hfirst] at inner
              exact .variant hkind hshape hfirst hsame inner
          · cases htest
      · cases htest
  · cases htest

theorem kind?_of_clean {p : Pattern γ} (h : Finding.Clean (p.draft r ty).findings) :
    ∃ kind, r.kind? ty = some kind := by
  cases hkind : r.kind? ty with
  | none =>
      rw [draft_unknown hkind] at h
      exact absurd h Finding.not_clean_mistake
  | some kind => exact ⟨kind, rfl⟩

/-- A pattern in whose draft nothing is mistaken is legal. -/
theorem legal_of_clean {p : Pattern γ} {ty : TypeId}
    (h : Finding.Clean (p.draft r ty).findings) : p.Legal r ty := by
  induction p using Pattern.induct generalizing ty with
  | wildcard span => exact .wildcard (Registry.knows_iff.mpr (kind?_of_clean h))
  | literal span value =>
      obtain ⟨kind, hkind⟩ := kind?_of_clean h
      rw [draft, hkind] at h
      dsimp only at h
      split at h
      · next htest => exact .literal (admits_of_literalTest hkind htest)
      · exact absurd h Finding.not_clean_mistake
  | binding span name sub ih =>
      obtain ⟨kind, hkind⟩ := kind?_of_clean h
      rw [draft_binding hkind] at h
      exact .binding (ih (Finding.clean_binder.mp h))
  | null span =>
      obtain ⟨kind, hkind⟩ := kind?_of_clean h
      rw [draft, hkind] at h
      dsimp only at h
      split at h
      · exact .null hkind
      · exact absurd h Finding.not_clean_mistake
  | deref span sub ih =>
      obtain ⟨kind, hkind⟩ := kind?_of_clean h
      rw [draft, hkind] at h
      dsimp only at h
      split at h
      · exact .deref hkind (ih h)
      · exact absurd h Finding.not_clean_mistake
  | alternative span selector payload ih =>
      obtain ⟨kind, hkind⟩ := kind?_of_clean h
      rw [draft, hkind] at h
      dsimp only at h
      split at h
      · next test payloadTy htest => exact alternative_of_test hkind htest (ih h)
      · exact absurd h Finding.not_clean_mistake
  | sequence span items ih =>
      obtain ⟨kind, hkind⟩ := kind?_of_clean h
      rw [draft, hkind] at h
      dsimp only at h
      split at h
      · next layout hlayout =>
          split at h
          · next harity =>
              refine .sequence ((Registry.shows_iff span).mpr ⟨kind, layout, hkind, hlayout, rfl⟩)
                harity.symm fun item part hmem => ih item (List.of_mem_zip hmem).1 ?_
              rw [draftItems_eq] at h
              refine Finding.clean_flatten.mp h _ ?_
              rw [List.zipWith_map_right, ← List.map_uncurry_zip_eq_zipWith]
              exact List.mem_map.mpr ⟨(item, part), hmem, rfl⟩
          · exact absurd h Finding.not_clean_mistake
      · exact absurd h Finding.not_clean_mistake
  | fields span entries ih =>
      obtain ⟨kind, hkind⟩ := kind?_of_clean h
      rw [draft, hkind] at h
      dsimp only at h
      split at h
      · next layout hlayout =>
          obtain ⟨hnodup, -, hentries⟩ := of_clean_draftEntries h
          have hshows := (Registry.shows_iff span).mpr ⟨kind, layout, hkind, hlayout, rfl⟩
          refine .fields hshows hnodup (fun e he => ?_) fun e he part hpart => ?_
          · obtain ⟨slot, hslot, -⟩ := hentries e he
            obtain ⟨part, hpart, -⟩ := Layout.part_of_find? hslot
            exact ⟨part, hpart⟩
          · obtain ⟨slot, hslot, hclean⟩ := hentries e he
            obtain ⟨part', hpart', hty⟩ := Layout.part_of_find? hslot
            rw [hpart] at hpart'
            cases hpart'
            rw [hty]
            exact ih e he hclean
      · exact absurd h Finding.not_clean_mistake
  | guarded span sub guard ih =>
      obtain ⟨kind, hkind⟩ := kind?_of_clean h
      rw [draft_guarded hkind] at h
      exact .guarded (ih h)

/-- What the check makes of a legal pattern that binds no identifier twice. -/
theorem check_eq_ok_iff_legal {p : Pattern γ} {c : Compiled γ} : p.check r ty = .ok c ↔
    p.Legal r ty ∧ p.binders.Nodup ∧ c = ⟨(p.draft r ty).node, ty, p.binders, p.span⟩ := by
  rw [check_eq_ok_iff]
  constructor
  · rintro ⟨⟨hclean, hnodup⟩, hc⟩
    have hlegal := legal_of_clean hclean
    rw [hlegal.draft.2] at hnodup hc
    exact ⟨hlegal, hnodup, hc⟩
  · rintro ⟨hlegal, hnodup, hc⟩
    obtain ⟨hclean, hbinders⟩ := hlegal.draft
    rw [hbinders]
    exact ⟨⟨hclean, hnodup⟩, hc⟩

/-- The check succeeds just for the legal patterns that bind no identifier twice. -/
theorem check_succeeds_iff (r : Registry) (p : Pattern γ) (ty : TypeId) :
    (∃ c, p.check r ty = .ok c) ↔ p.Legal r ty ∧ p.binders.Nodup := by
  simp only [check_eq_ok_iff]
  constructor
  · rintro ⟨c, ⟨hclean, hnodup⟩, -⟩
    have hlegal := legal_of_clean hclean
    exact ⟨hlegal, hlegal.draft.2 ▸ hnodup⟩
  · rintro ⟨hlegal, hnodup⟩
    obtain ⟨hclean, hbinders⟩ := hlegal.draft
    exact ⟨_, ⟨hclean, hbinders.symm ▸ hnodup⟩, rfl⟩

end Pattern

end TaggedMatch
