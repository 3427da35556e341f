import TaggedMatch.Proofs.Pattern.Draft
import TaggedMatch.Proofs.Registry.Names

/-!
# Checked patterns outlive the registry they were checked against

The judgement of legality only asks for kinds, and for the existence of a kind where any will do, so
it says of a grown registry what it said before. More is true: a legal pattern is drafted into the
very same nodes with the very same findings. The nodes quote what types are called, and this is the
one place where the texts of names matter.

A type that was only declared may have got its body in between. A pattern that was legal for it
asked for no kind, and is drafted in the same way for every kind.
-/

namespace TaggedMatch

namespace Registry

variable {r r' : Registry} {ty : TypeId} {kind : TypeKind} {span : Span}

/-! ## Tests and layouts

Each is made from the kind of a type and the text of the type's own name, and there is none for a
type that has no body yet. -/

section Resolved

variable (h : Extends r r') (htexts : SameTexts r r') (hkind : r.kind? ty = some kind)
include h htexts hkind

theorem Extends.literalTest {value : Literal} {test : LiteralTest}
    (htest : r.literalTest value kind ty span = .ok test) :
    r'.kind? ty = some kind ∧ r'.literalTest value kind ty span = .ok test := by
  have hdefined : kind ≠ .declared := by
    rintro rfl
    cases value <;> cases htest
  refine ⟨h.kind? hkind hdefined, ?_⟩
  rw [← htest]
  unfold Registry.literalTest
  split
  · rfl
  · rfl
  · rfl
  · next d => rw [show r'.text d.name = r.text d.name from htexts hkind rfl]
  · rfl

theorem Extends.alternativeTest {selector : Name} {test : AlternativeTest × TypeId}
    (htest : r.alternativeTest selector kind ty span = .ok test) :
    r'.kind? ty = some kind ∧ r'.alternativeTest selector kind ty span = .ok test := by
  have hdefined : kind ≠ .declared := by
    rintro rfl
    cases htest
  refine ⟨h.kind? hkind hdefined, ?_⟩
  rw [← htest]
  unfold Registry.alternativeTest
  split
  · next d => rw [show r'.text d.name = r.text d.name from htexts hkind rfl]
  · next d => rw [show r'.text d.name = r.text d.name from htexts hkind rfl]
  · rfl

theorem Extends.layout {layout : Layout} (hlayout : r.layout kind ty span = .ok layout) :
    r'.kind? ty = some kind ∧ r'.layout kind ty span = .ok layout := by
  have hdefined : kind ≠ .declared := by
    rintro rfl
    cases hlayout
  refine ⟨h.kind? hkind hdefined, ?_⟩
  rw [← hlayout]
  unfold Registry.layout
  split
  · rfl
  · next d => rw [show r'.text d.name = r.text d.name from htexts hkind rfl]
  · next d => rw [show r'.text d.name = r.text d.name from htexts hkind rfl]
  · rfl

end Resolved

end Registry

namespace Pattern

open Registry (Extends SameTexts)

variable {γ : Type} {r r' : Registry} {ty : TypeId}

/-! ## Lists of parts -/

theorem draftItems_congr {items : List (Pattern γ)} {parts : List PieceDef}
    (h : ∀ item part, (item, part) ∈ items.zip parts →
      item.draft r' part.ty = item.draft r part.ty) :
    draftItems r' items (parts.map (·.ty)) = draftItems r items (parts.map (·.ty)) := by
  induction items generalizing parts with
  | nil => simp only [draftItems]
  | cons p ps ih =>
      cases parts with
      | nil => simp only [List.map_nil, draftItems]
      | cons part parts =>
          simp only [List.zip_cons_cons, List.mem_cons] at h
          have hrest := ih fun item part hmem => h item part (.inr hmem)
          rw [List.map_cons, draftItems, draftItems, h p part (.inl rfl), hrest]

theorem draftEntries_congr {layout : Layout} {seen : List (Name × Span)}
    {entries : List (FieldEntry (Pattern γ))}
    (h : ∀ e ∈ entries, ∀ slot, layout.find? e.name = some slot →
      e.pattern.draft r' slot.2 = e.pattern.draft r slot.2) :
    draftEntries r' layout ty seen entries = draftEntries r layout ty seen entries := by
  induction entries generalizing seen with
  | nil => simp only [draftEntries]
  | cons e es ih =>
      obtain ⟨name, p, span⟩ := e
      rw [List.forall_mem_cons] at h
      rw [draftEntries, draftEntries]
      split
      · rw [ih h.2]
      · rw [ih h.2]
        cases hslot : layout.find? name with
        | none => rfl
        | some slot => simp only [h.1 slot hslot]

/-! ## Legal patterns -/

theorem Legal.draft_extends (h : Extends r r') (htexts : SameTexts r r') {p : Pattern γ}
    (hp : p.Legal r ty) : p.draft r' ty = p.draft r ty := by
  induction hp with
  | wildcard known =>
      obtain ⟨kind, hkind⟩ := Registry.knows_iff.mp known
      obtain ⟨kind', hkind'⟩ := h.known hkind
      rw [draft_wildcard hkind', draft_wildcard hkind]
  | literal admitted =>
      obtain ⟨kind, test, hkind, htest⟩ := literalTest_of_admits admitted
      obtain ⟨hkind', htest'⟩ := h.literalTest htexts hkind htest
      rw [draft_literal hkind' htest', draft_literal hkind htest]
  | binding inner ih =>
      obtain ⟨kind, hkind⟩ := inner.kind?
      obtain ⟨kind', hkind'⟩ := h.known hkind
      rw [draft_binding hkind', draft_binding hkind, ih]
  | null hkind => rw [draft_null (h.kind? hkind (by simp)), draft_null hkind]
  | deref hkind _ ih => rw [draft_deref (h.kind? hkind (by simp)), draft_deref hkind, ih]
  | union hkind first _ ih =>
      obtain ⟨index, -, -, htest⟩ := Registry.alternativeTest_union _ first
      obtain ⟨hkind', htest'⟩ := h.alternativeTest htexts hkind htest
      rw [draft_alternative hkind' htest', draft_alternative hkind htest, ih]
  | @variant span _ _ ty _ _ _ hkind declared first one _ ih =>
      have htest : r.alternativeTest _ _ ty span = _ :=
        Registry.alternativeTest_variant span declared first one
      obtain ⟨hkind', htest'⟩ := h.alternativeTest htexts hkind htest
      rw [draft_alternative hkind' htest', draft_alternative hkind htest, ih]
  | @sequence span items _ _ shown arity _ ih =>
      obtain ⟨kind, layout, hkind, hlayout, rfl⟩ := (Registry.shows_iff span).mp shown
      obtain ⟨hkind', hlayout'⟩ := h.layout htexts hkind hlayout
      rw [draft_sequence hkind' hlayout' arity, draft_sequence hkind hlayout arity,
        draftItems_congr ih]
  | @fields span entries _ _ shown _ _ _ ih =>
      obtain ⟨kind, layout, hkind, hlayout, rfl⟩ := (Registry.shows_iff span).mp shown
      obtain ⟨hkind', hlayout'⟩ := h.layout htexts hkind hlayout
      rw [draft_fields hkind' hlayout', draft_fields hkind hlayout]
      rw [draftEntries_congr fun e he slot hslot => ?_]
      obtain ⟨part, hpart, hty⟩ := Layout.part_of_find? hslot
      rw [← hty]
      exact ih e he part hpart
  | guarded inner ih =>
      obtain ⟨kind, hkind⟩ := inner.kind?
      obtain ⟨kind', hkind'⟩ := h.known hkind
      rw [draft_guarded hkind', draft_guarded hkind, ih]

/-- What passed the check passes it in a registry that grew, with the same result. -/
theorem check_extends (h : Extends r r') (htexts : SameTexts r r') {p : Pattern γ}
    {c : Compiled γ} (hc : p.check r ty = .ok c) : p.check r' ty = .ok c := by
  rw [check_eq_ok_iff] at hc ⊢
  rwa [(legal_of_clean hc.1.1).draft_extends h htexts]

end Pattern

/-! ## A valid registry is closed

A valid registry knows every type that it mentions, and has a body for each. What is added to it is
not mentioned by what was there, so a pattern for a type of before has to do with types of before only,
and is legal afterwards just if it was before. -/

section Closed

open Registry (Extends SameTexts)

variable {γ : Type} {r r' : Registry} {ty : TypeId} (valid : r.isValid = true) (h : Extends r r')
include valid h

theorem Registry.Extends.kind?_of_knows (known : r.knows ty = true) : r'.kind? ty = r.kind? ty := by
  obtain ⟨kind, hkind⟩ := knows_iff.mp known
  have hdefined : kind ≠ .declared := by
    rintro rfl
    exact approves_of_isValid valid hkind
  rw [hkind, h.kind? hkind hdefined]

theorem Registry.Extends.admits_of_knows (known : r.knows ty = true) {value : Literal}
    (admitted : r'.Admits ty value) : r.Admits ty value := by
  have hsame := h.kind?_of_knows valid known
  cases admitted with
  | int hkind => exact .int (hsame ▸ hkind)
  | bool hkind => exact .bool (hsame ▸ hkind)
  | char hkind => exact .char (hsame ▸ hkind)
  | constant hkind declared => exact .constant (hsame ▸ hkind) declared

theorem Registry.Extends.shows_of_knows (known : r.knows ty = true) {parts : List PieceDef}
    (shown : r'.Shows ty parts) : r.Shows ty parts ∧ ∀ part ∈ parts, r.knows part.ty = true := by
  have hsame := h.kind?_of_knows valid known
  cases shown with
  | tuple hkind =>
      rw [hsame] at hkind
      exact ⟨.tuple hkind, List.forall_mem_map.mpr (approves_of_isValid valid hkind)⟩
  | aggregate hkind allPublic =>
      rw [hsame] at hkind
      exact ⟨.aggregate hkind allPublic,
        List.forall_mem_map.mpr (approves_of_isValid valid hkind).2⟩
  | extension hkind declared =>
      rw [hsame] at hkind
      exact ⟨.extension hkind declared, ((approves_of_isValid valid hkind).1 _ declared).2⟩

theorem Pattern.Legal.of_extends {p : Pattern γ} (hp : p.Legal r' ty) (known : r.knows ty = true) :
    p.Legal r ty := by
  induction hp with
  | wildcard => exact .wildcard known
  | literal admitted => exact .literal (h.admits_of_knows valid known admitted)
  | binding _ ih => exact .binding (ih known)
  | null hkind =>
      rw [h.kind?_of_knows valid known] at hkind
      exact .null hkind
  | deref hkind _ ih =>
      rw [h.kind?_of_knows valid known] at hkind
      exact .deref hkind (ih (Registry.approves_of_isValid valid hkind))
  | union hkind first _ ih =>
      rw [h.kind?_of_knows valid known] at hkind
      have hpayload := (Registry.approves_of_isValid valid hkind).2.2.1 _
        (List.mem_of_find?_eq_some first)
      exact .union hkind first (ih hpayload)
  | variant hkind declared first one _ ih =>
      rw [h.kind?_of_knows valid known] at hkind
      have hpayload := ((Registry.approves_of_isValid valid hkind).2 _ declared).1 _
        (List.mem_of_find?_eq_some first)
      exact .variant hkind declared first one (ih hpayload)
  | sequence shown arity _ ih =>
      obtain ⟨hshown, hparts⟩ := h.shows_of_knows valid known shown
      exact .sequence hshown arity fun item part hmem =>
        ih item part hmem (hparts part (List.of_mem_zip hmem).2)
  | fields shown distinct resolved _ ih =>
      obtain ⟨hshown, hparts⟩ := h.shows_of_knows valid known shown
      exact .fields hshown distinct resolved fun e he part hpart =>
        ih e he part hpart (hparts part (List.mem_of_find?_eq_some hpart))
  | guarded _ ih => exact .guarded (ih known)

/-- Against a type of before, a check has the result that it had before. -/
theorem Pattern.check_eq_ok_iff_of_extends (htexts : SameTexts r r') (known : r.knows ty = true)
    {p : Pattern γ} {c : Compiled γ} : p.check r' ty = .ok c ↔ p.check r ty = .ok c := by
  refine ⟨fun hc => ?_, check_extends h htexts⟩
  rw [check_eq_ok_iff] at hc ⊢
  have hlegal := (legal_of_clean hc.1.1).of_extends valid h known
  rwa [← hlegal.draft_extends h htexts]

end Closed

end TaggedMatch
