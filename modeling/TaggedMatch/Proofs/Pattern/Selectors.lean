import TaggedMatch.Pattern.Match
import TaggedMatch.Proofs.Pattern.Draft

/-!
# Alternatives of extension types

An alternative pattern on an extension type is resolved in two lookups: the selector's discriminator
is what the match compares with, and the payload type of the first alternative under the selector is
what the pattern below is checked against. Validation pairs selectors with discriminators, so in a
valid registry a declared selector is never ambiguous, and the alternatives with the discriminator
that a match compares with are those under the selector of the pattern (`selects`).

It does not look at payloads. Where a selector is given twice with one discriminator, the payload
types may differ, and the pattern is checked against the first of them although an object may as
well hold the second (`payloads_clash`). They are the same for all alternatives with a discriminator
just if they are the same for all alternatives under a selector.
-/

namespace TaggedMatch

variable {γ : Type} {r : Registry} {ty : TypeId} {d : ExtensionDef} {shape : VariantShape}
  {selector : Name} {first : VariantAlternativeDef}

theorem VariantShape.lookup?_eq_some (h : shape.lookup? selector = some first) :
    first ∈ shape.alternatives ∧ first.selector = selector :=
  ⟨List.mem_of_find?_eq_some h, by simpa using List.find?_some h⟩

theorem VariantShape.exists_lookup? {a : VariantAlternativeDef} (ha : a ∈ shape.alternatives) :
    ∃ first, shape.lookup? a.selector = some first := by
  obtain ⟨first, -, -, hfirst⟩ :=
    exists_find?_eq_some (·.selector == a.selector) ha (beq_self_eq_true _)
  exact ⟨first, hfirst⟩

namespace Pattern

variable {span : Span} {payload : Pattern γ}

/-- An alternative pattern is refused for a selector that is not declared. -/
theorem draft_undeclared (hkind : r.kind? ty = some (.extension d))
    (hshape : d.variant = some shape) (hnone : shape.lookup? selector = none) :
    (alternative span selector payload).draft r ty =
      .mistaken (.unknownAlternative selector ty span) := by
  have hempty : shape.discriminatorsFor selector = [] := by
    rw [VariantShape.lookup?, List.find?_eq_none] at hnone
    rw [VariantShape.discriminatorsFor, List.filter_eq_nil_iff.mpr hnone]
    rfl
  rw [draft, hkind]
  simp only [Registry.alternativeTest, hshape, hempty]

/-- With selectors and discriminators paired, an alternative pattern fits just if the pattern below
it fits the payload of the first alternative under its selector. -/
theorem check_alternative_iff (hkind : r.kind? ty = some (.extension d))
    (hshape : d.variant = some shape) (hpaired : Registry.Paired shape) {c : Compiled γ} :
    (alternative span selector payload).check r ty = .ok c ↔
      ∃ first inner, shape.lookup? selector = some first ∧
        payload.check r first.payload = .ok inner ∧
        c = ⟨.variantAlternative ty (r.text d.name) first.discriminator inner.root, ty,
          inner.binders, span⟩ := by
  cases hfirst : shape.lookup? selector with
  | none =>
      rw [check_eq_ok_iff, draft_undeclared hkind hshape hfirst]
      simp [Draft.mistaken, Finding.not_clean_mistake]
  | some first =>
      obtain ⟨hmem, hselector⟩ := VariantShape.lookup?_eq_some hfirst
      have hone : ∀ b ∈ shape.alternatives, b.selector = selector →
          b.discriminator = first.discriminator :=
        fun b hb hsame => (hpaired b hb first hmem).mp (hsame.trans hselector.symm)
      rw [check_eq_ok_iff,
        draft_alternative hkind (Registry.alternativeTest_variant span hshape hfirst hone)]
      simp only [AlternativeTest.node, Option.some.injEq]
      constructor
      · rintro ⟨hfits, rfl⟩
        exact ⟨first, _, rfl, check_eq_ok_iff.mpr ⟨hfits, rfl⟩, rfl⟩
      · rintro ⟨_, inner, rfl, hinner, rfl⟩
        obtain ⟨hfits, rfl⟩ := check_eq_ok_iff.mp hinner
        exact ⟨hfits, rfl⟩

end Pattern

/-- What can be relied on when an alternative of an extension type is selected. -/
structure Selects (r : Registry) (ty : TypeId) (d : ExtensionDef) (shape : VariantShape) :
    Prop where
  paired : ∀ a ∈ shape.alternatives, ∀ b ∈ shape.alternatives,
    a.selector = b.selector ↔ a.discriminator = b.discriminator
  /-- No declared selector is ambiguous. -/
  compiles : ∀ {γ : Type} (span : Span) (selector : Name) (payload : Pattern γ) (c : Compiled γ),
    (Pattern.alternative span selector payload).check r ty = .ok c ↔
      ∃ first inner, shape.lookup? selector = some first ∧
        payload.check r first.payload = .ok inner ∧
        c = ⟨.variantAlternative ty (r.text d.name) first.discriminator inner.root, ty,
          inner.binders, span⟩
  /-- The discriminator that is compared stands for the selector that was written. -/
  tested : ∀ selector first, shape.lookup? selector = some first → ∀ a ∈ shape.alternatives,
    a.discriminator = first.discriminator ↔ a.selector = selector
  /-- Nothing but a selector with several payload types is in the way of a discriminator having
  one. -/
  payload_unique_iff : (∀ selector first, shape.lookup? selector = some first →
      ∀ a ∈ shape.alternatives, a.discriminator = first.discriminator → a.payload = first.payload) ↔
    ∀ a ∈ shape.alternatives, ∀ b ∈ shape.alternatives,
      a.selector = b.selector → a.payload = b.payload

theorem selects (hvalid : r.isValid = true) (hkind : r.kind? ty = some (.extension d))
    (hshape : d.variant = some shape) : Selects r ty d shape := by
  have hpaired : Registry.Paired shape :=
    ((Registry.approves_of_isValid hvalid hkind).2 shape hshape).2
  have htested (selector first) (hfirst : shape.lookup? selector = some first)
      (a) (ha : a ∈ shape.alternatives) :
      a.discriminator = first.discriminator ↔ a.selector = selector := by
    obtain ⟨hmem, rfl⟩ := VariantShape.lookup?_eq_some hfirst
    exact (hpaired a ha first hmem).symm
  constructor
  case paired => exact hpaired
  case compiles =>
    intro γ span selector payload c
    exact Pattern.check_alternative_iff hkind hshape hpaired
  case tested => exact htested
  case payload_unique_iff =>
    constructor
    · intro h a ha b hb hsame
      obtain ⟨first, hfirst⟩ := VariantShape.exists_lookup? hb
      have hpayload (c) (hc : c ∈ shape.alternatives) (hselector : c.selector = b.selector) :
          c.payload = first.payload :=
        h _ first hfirst c hc ((htested _ first hfirst c hc).mpr hselector)
      rw [hpayload a ha hsame, hpayload b hb rfl]
    · intro h selector first hfirst a ha hsame
      obtain ⟨hmem, hselector⟩ := VariantShape.lookup?_eq_some hfirst
      exact h a ha first hmem (((htested _ first hfirst a ha).mp hsame).trans hselector.symm)

/-- The registry of a program whose cells hold a number or a text. -/
def cellRegistry : Registry :=
  Registry.fresh.run [.intern "number", .intern "text", .extension "Cell" none
    (some ⟨[⟨⟨1⟩, 0, TypeId.int⟩, ⟨⟨2⟩, 1, TypeId.str⟩, ⟨⟨1⟩, 0, TypeId.int⟩]⟩)]

/-- A pattern for the text in a cell compares with the discriminator of texts. -/
theorem selects_text :
    let shape : VariantShape := ⟨[⟨⟨1⟩, 0, TypeId.int⟩, ⟨⟨2⟩, 1, TypeId.str⟩, ⟨⟨1⟩, 0, TypeId.int⟩]⟩
    cellRegistry.isValid = true ∧
      cellRegistry.kind? ⟨5⟩ = some (.extension ⟨⟨3⟩, ⟨5⟩, none, some shape⟩) ∧
      (Pattern.alternative Span.dummy ⟨2⟩ (.wildcard Span.dummy) : Pattern Unit).check
        cellRegistry ⟨5⟩ = .ok ⟨.variantAlternative ⟨5⟩ (cellRegistry.text ⟨3⟩) 1 .wildcard, ⟨5⟩,
          [], Span.dummy⟩ := by
  intro shape
  have hvalid : cellRegistry.isValid = true := by with_unfolding_all rfl
  have hkind : cellRegistry.kind? ⟨5⟩ = some (.extension ⟨⟨3⟩, ⟨5⟩, none, some shape⟩) := by
    with_unfolding_all rfl
  have hselects := selects hvalid hkind rfl
  refine ⟨hvalid, hkind, (hselects.compiles _ _ _ _).mpr ?_⟩
  exact ⟨⟨⟨2⟩, 1, TypeId.str⟩, ⟨.wildcard, TypeId.str, [], Span.dummy⟩, by decide +kernel,
    by with_unfolding_all rfl, rfl⟩

/-- The object of a program whose only cell holds a text. -/
def textHost : Host Unit Unit where
  test _ _ := pure true
  givesPieces _ := pure false
  piece _ _ := pure none
  givesVariant _ := pure true
  discriminator _ := pure 0
  alternative _ _ := pure (some (.str "three"))

/-- One selector, one discriminator, and payloads of two types: the registry is valid, and matching
an object that holds a payload of the second type ends with an error. -/
theorem payloads_clash :
    let shape : VariantShape := ⟨[⟨⟨1⟩, 0, TypeId.int⟩, ⟨⟨1⟩, 0, TypeId.str⟩]⟩
    let r := Registry.fresh.run [.intern "number", .extension "Cell" none (some shape)]
    let c : Compiled Unit :=
      ⟨.variantAlternative ⟨5⟩ "Cell" 0 (.literal (.int 3)), ⟨5⟩, [], Span.dummy⟩
    r.Reachable ∧ r.isValid = true ∧
      r.kind? ⟨5⟩ = some (.extension ⟨⟨2⟩, ⟨5⟩, none, some shape⟩) ∧
      (∃ a ∈ shape.alternatives, ∃ b ∈ shape.alternatives, a.selector = b.selector ∧
        a.discriminator = b.discriminator ∧ a.payload ≠ b.payload) ∧
      (Pattern.alternative Span.dummy ⟨1⟩ (.literal Span.dummy (.int 3))).check r ⟨5⟩ = .ok c ∧
      (c.run textHost (.extension ⟨5⟩ ⟨0⟩) Lookup.empty).run () =
        (.error (.shapeMismatch "an int" "str"), ()) := by
  intro shape r c
  refine ⟨⟨_, rfl⟩, by with_unfolding_all rfl, by with_unfolding_all rfl, ?_,
    by with_unfolding_all rfl, by with_unfolding_all rfl⟩
  exact ⟨⟨⟨1⟩, 0, TypeId.int⟩, by decide, ⟨⟨1⟩, 0, TypeId.str⟩, by decide, rfl, rfl, by decide⟩

end TaggedMatch
