import TaggedMatch.Proofs.Pattern.Findings
import TaggedMatch.Proofs.Pattern.Growth
import TaggedMatch.Proofs.Pattern.Selectors

/-!
# Mistakes in a valid registry

A check can come upon two things that are no fault of the pattern: a type that was never issued, and a
selector that its type gives several discriminators. In a valid registry it does not, however deep the
pattern goes. Every type that is mentioned there is known, so the check of a pattern for a known type
never leaves the known types; and selectors have one discriminator, by the rule that validation goes by
and the check as well.
-/

namespace TaggedMatch

/-- The codes of what can be wrong with a pattern itself. -/
def ErrorCode.ofPatterns : List ErrorCode :=
  [.unknownAlternative, .unknownField, .arityMismatch, .literalMismatch, .notAPointer,
    .withoutAlternatives, .notAnAggregate, .encapsulated, .boundTwice, .listedTwice,
    .unknownConstant]

/-- The code that a mistake is reported under. -/
def Mistake.code : Mistake → ErrorCode
  | .unknownType .. => .unknownType
  | .unknownAlternative .. => .unknownAlternative
  | .ambiguousSelector .. => .ambiguousSelector
  | .unknownField .. => .unknownField
  | .arityMismatch .. => .arityMismatch
  | .literalMismatch .. => .literalMismatch
  | .unknownConstant .. => .unknownConstant
  | .notAPointer .. => .notAPointer
  | .withoutAlternatives .. => .withoutAlternatives
  | .notAnAggregate .. => .notAnAggregate
  | .encapsulated .. => .encapsulated
  | .boundTwice .. => .boundTwice
  | .listedTwice .. => .listedTwice
  | .subjectCount .. | .noSubjects => .subjectCount

/-- The code does not depend on how the registry words the mistake. -/
theorem Mistake.code_diagnostic (r : Registry) (m : Mistake) : (m.diagnostic r).code = m.code := by
  cases m with
  | unknownAlternative selector ty span =>
      simp only [diagnostic]
      split
      · rfl
      · rfl
  | literalMismatch literal ty span =>
      simp only [diagnostic]
      split
      · rfl
      · rfl
  | unknownType | ambiguousSelector | unknownField | arityMismatch | unknownConstant | notAPointer
  | withoutAlternatives | notAnAggregate | encapsulated | boundTwice | listedTwice | subjectCount
  | noSubjects => rfl

namespace Registry

variable {r : Registry} {ty : TypeId} {kind : TypeKind} {span : Span} {m : Mistake}

theorem literalTest_error {value : Literal} (h : r.literalTest value kind ty span = .error m) :
    m = .literalMismatch value ty span ∨ ∃ name, m = .unknownConstant name ty span := by
  unfold literalTest at h
  split at h
  · cases h
  · cases h
  · cases h
  · split at h
    · cases h
    · cases h
      exact .inr ⟨_, rfl⟩
  · cases h
    exact .inl rfl

theorem layout_error (h : r.layout kind ty span = .error m) :
    m = .encapsulated ty span ∨ m = .notAnAggregate ty span := by
  unfold layout at h
  split at h
  · cases h
  · split at h
    · cases h
    · cases h
      exact .inl rfl
  · split at h
    · cases h
    · cases h
      exact .inr rfl
  · cases h
    exact .inr rfl

/-! ## What validation rules out -/

section Valid

variable (valid : r.isValid = true) (known : r.kind? ty = some kind)
include valid known

/-- A selector is not declared, or its type has no alternatives. -/
theorem alternativeTest_error {selector : Name}
    (h : r.alternativeTest selector kind ty span = .error m) :
    m = .unknownAlternative selector ty span ∨ m = .withoutAlternatives selector ty span := by
  unfold alternativeTest at h
  split at h
  · split at h
    · cases h
    · cases h
      exact .inl rfl
  · next d =>
      split at h
      · next shape hshape =>
          split at h
          · cases h
            exact .inl rfl
          · cases h
          · next hnone hone =>
              -- Several discriminators for one selector.
              have hpaired := ((approves_of_isValid valid known).2 shape hshape).2
              have hle : (shape.discriminatorsFor selector).length ≤ 1 :=
                length_discriminatorsFor_le_one_iff.mpr fun a ha hsame b hb hsame' =>
                  (hpaired a ha b hb).mp (hsame.trans hsame'.symm)
              rcases hlist : shape.discriminatorsFor selector with _ | ⟨x, _ | ⟨y, rest⟩⟩
              · exact absurd hlist hnone
              · exact absurd hlist (hone x)
              · rw [hlist] at hle
                simp at hle
      · cases h
        exact .inr rfl
  · cases h
    exact .inr rfl

theorem knows_payload {selector : Name} {test : AlternativeTest} {payloadTy : TypeId}
    (h : r.alternativeTest selector kind ty span = .ok (test, payloadTy)) :
    r.knows payloadTy = true := by
  have happroved := approves_of_isValid valid known
  unfold alternativeTest at h
  split at h
  · next d =>
      split at h
      · next index hindex =>
          cases h
          obtain ⟨hi, -⟩ := List.findIdx?_eq_some_iff_getElem.mp hindex
          have ha : d.alternatives[index]? = some d.alternatives[index] :=
            List.getElem?_eq_getElem hi
          simp only [UnionDef.payloadType, UnionDef.alternative?, ha, Option.map_some,
            Option.getD_some]
          exact happroved.2.2.1 _ (List.getElem_mem hi)
      · cases h
  · next d =>
      split at h
      · next shape hshape =>
          split at h
          · cases h
          · next discriminator hone =>
              cases h
              obtain ⟨⟨a, hfirst, -⟩, -⟩ := discriminatorsFor_eq_singleton_iff.mp hone
              simp only [VariantShape.payloadType, VariantShape.lookup?, hfirst, Option.map_some,
                Option.getD_some]
              exact (happroved.2 shape hshape).1 a (List.mem_of_find?_eq_some hfirst)
          · cases h
      · cases h
  · cases h

end Valid

end Registry

namespace Pattern

variable {γ : Type} {r : Registry} {p : Pattern γ} {ty : TypeId}

/-- A mistake that is found while checking against a known type is one of the pattern. -/
theorem Finds.code (valid : r.isValid = true) {f : Finding} (h : Finds r p ty f)
    (known : r.knows ty = true) {m : Mistake} (hm : f = .mistake m) :
    m.code ∈ ErrorCode.ofPatterns := by
  induction h with
  | unknown hunknown =>
      obtain ⟨kind, hkind⟩ := Registry.knows_iff.mp known
      cases hunknown.symm.trans hkind
  | literal _ refused =>
      cases hm
      rcases Registry.literalTest_error refused with rfl | ⟨name, rfl⟩
      · simp [Mistake.code, ErrorCode.ofPatterns]
      · simp [Mistake.code, ErrorCode.ofPatterns]
  | binder => cases hm
  | null | dereference | arity | listedTwice | unknownField =>
      cases hm
      simp [Mistake.code, ErrorCode.ofPatterns]
  | selector hkind refused =>
      cases hm
      rcases Registry.alternativeTest_error valid hkind refused with rfl | rfl
      · simp [Mistake.code, ErrorCode.ofPatterns]
      · simp [Mistake.code, ErrorCode.ofPatterns]
  | sequence _ refused | fields _ refused =>
      cases hm
      rcases Registry.layout_error refused with rfl | rfl
      · simp [Mistake.code, ErrorCode.ofPatterns]
      · simp [Mistake.code, ErrorCode.ofPatterns]
  | binding _ _ ih | guarded _ ih => exact ih known hm
  | pointee hkind _ ih => exact ih (Registry.approves_of_isValid valid hkind) hm
  | payload hkind test _ ih => exact ih (Registry.knows_payload valid hkind test) hm
  | item shown mem _ ih =>
      have hparts := ((Registry.Extends.refl r).shows_of_knows valid known shown).2
      exact ih (hparts _ (List.of_mem_zip mem).2) hm
  | entry shown _ mem _ ih =>
      have hparts := ((Registry.Extends.refl r).shows_of_knows valid known shown).2
      exact ih (hparts _ mem) hm

/-- After validation, nothing but mistakes in the pattern is reported. -/
theorem code_of_check (valid : r.isValid = true) (known : r.knows ty = true)
    {mistakes : List Mistake} (refused : p.check r ty = .error mistakes) :
    ∀ m ∈ mistakes, (m.diagnostic r).code ∈ ErrorCode.ofPatterns := by
  intro m hm
  rw [m.code_diagnostic]
  have hreported : m ∈ Finding.mistakes (p.draft r ty).findings := by
    rw [check] at refused
    split at refused
    · cases refused
    · cases refused
      exact hm
  rcases Finding.mem_mistakesAfter hreported with hmet | ⟨name, again, first, _, _, rfl, -⟩
  · exact (finds_of_mem_draft hmet).code valid known rfl
  · simp [Mistake.code, ErrorCode.ofPatterns]

/-- A name bound twice and a literal of another type, both below an alternative. -/
theorem code_of_check_cell :
    let p : Pattern Unit := .alternative Span.dummy ⟨1⟩
      (.binding Span.dummy ⟨7⟩ (.binding Span.dummy ⟨7⟩ (.literal Span.dummy (.char 'c'))))
    let mistakes : List Mistake := [.boundTwice ⟨7⟩ Span.dummy Span.dummy,
      .literalMismatch (.char 'c') TypeId.int Span.dummy]
    cellRegistry.isValid = true ∧ cellRegistry.knows ⟨5⟩ = true ∧
      p.check cellRegistry ⟨5⟩ = .error mistakes ∧
        ∀ m ∈ mistakes, (m.diagnostic cellRegistry).code ∈ ErrorCode.ofPatterns := by
  intro p mistakes
  have valid : cellRegistry.isValid = true := by with_unfolding_all rfl
  have known : cellRegistry.knows ⟨5⟩ = true := by with_unfolding_all rfl
  have refused : p.check cellRegistry ⟨5⟩ = .error mistakes := by with_unfolding_all rfl
  exact ⟨valid, known, refused, code_of_check valid known refused⟩

example : ErrorCode.ofPatterns.map ErrorCode.text = ["E3001", "E3002", "E3003", "E3004", "E3005",
    "E3006", "E3007", "E3008", "E3009", "E3010", "E3011"] := rfl

end Pattern

end TaggedMatch
