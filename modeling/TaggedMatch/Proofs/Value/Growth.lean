import TaggedMatch.Proofs.Registry.Growth
import TaggedMatch.Proofs.Value.Parts

/-!
# Values outlive the registry they were built against

A value belongs to a type by what the registry says of the type, and it is sound by the definitions
that the registry has. Both only ever ask for kinds that are known. So a value that belongs to a type
still does after the registry has grown, and a value that was well formed still is.
-/

namespace TaggedMatch

namespace Value

theorem conformsAll_of_forall₂ {r : Registry} {vs : List Value} {tys : List TypeId}
    (h : List.Forall₂ (fun v ty => v.conforms r ty = true) vs tys) :
    conformsAll r vs tys = true := by
  induction h with
  | nil => rfl
  | cons hv _ ih => simp [conformsAll, hv, ih]

theorem forall₂_of_conformsAll {r : Registry} :
    ∀ {vs : List Value} {tys : List TypeId}, vs.length = tys.length →
      conformsAll r vs tys = true → List.Forall₂ (fun v ty => v.conforms r ty = true) vs tys
  | [], [], _, _ => .nil
  | v :: vs, ty :: tys, hlen, h => by
      simp only [conformsAll, Bool.and_eq_true] at h
      exact .cons h.1 (forall₂_of_conformsAll (by simpa using hlen) h.2)

theorem conforms_tuple_iff {r : Registry} {items : List Value} {ty : TypeId} :
    (tuple items).conforms r ty = true ↔ ∃ elements, r.kind? ty = some (.tuple elements) ∧
      List.Forall₂ (fun v ty => v.conforms r ty = true) items elements := by
  simp only [conforms, ← Registry.tupleElements?_eq_some_iff]
  cases r.tupleElements? ty with
  | none => simp
  | some elements =>
      simp only [Bool.and_eq_true, beq_iff_eq, Option.some.injEq, exists_eq_left']
      constructor
      · exact fun h => forall₂_of_conformsAll h.1 h.2
      · exact fun h => ⟨h.length_eq, conformsAll_of_forall₂ h⟩

theorem conforms_pointer_iff {r : Registry} {v : Value} {ty : TypeId} :
    (pointer v).conforms r ty = true ↔ ∃ pointee, r.kind? ty = some (.pointer pointee) ∧
      v.conforms r pointee = true := by
  simp only [conforms, ← Registry.pointee?_eq_some_iff]
  cases r.pointee? ty <;> simp

theorem conforms_null_iff {r : Registry} {ty : TypeId} :
    null.conforms r ty = true ↔ ∃ pointee, r.kind? ty = some (.pointer pointee) := by
  simp only [conforms, ← Registry.pointee?_eq_some_iff, Option.isSome_iff_exists]

end Value

namespace Registry

variable {r r' : Registry}

mutual

theorem Extends.conforms (h : Extends r r') {v : Value} {ty : TypeId}
    (hv : v.conforms r ty = true) : v.conforms r' ty = true := by
  match v with
  | .int _ | .bool _ | .char _ | .str _ | .unit =>
      simp only [Value.conforms, beq_iff_eq] at hv ⊢
      exact h.kind? hv (by simp)
  | .constant .. | .aggregate .. | .union .. | .extension .. => exact hv
  | .null =>
      obtain ⟨pointee, hkind⟩ := Value.conforms_null_iff.mp hv
      exact Value.conforms_null_iff.mpr ⟨pointee, h.kind? hkind (by simp)⟩
  | .pointer v =>
      obtain ⟨pointee, hkind, hpointee⟩ := Value.conforms_pointer_iff.mp hv
      exact Value.conforms_pointer_iff.mpr
        ⟨pointee, h.kind? hkind (by simp), h.conforms hpointee⟩
  | .tuple items =>
      obtain ⟨elements, hkind, hitems⟩ := Value.conforms_tuple_iff.mp hv
      exact Value.conforms_tuple_iff.mpr
        ⟨elements, h.kind? hkind (by simp), h.conformsEach items elements hitems⟩

theorem Extends.conformsEach (h : Extends r r') : (items : List Value) →
    (elements : List TypeId) →
    List.Forall₂ (fun v ty => v.conforms r ty = true) items elements →
    List.Forall₂ (fun v ty => v.conforms r' ty = true) items elements
  | [], [], _ => .nil
  | v :: items, ty :: elements, hitems => by
      rw [List.forall₂_cons] at hitems ⊢
      exact ⟨h.conforms hitems.1, h.conformsEach items elements hitems.2⟩
  | [], _ :: _, hitems => nomatch hitems
  | _ :: _, [], hitems => nomatch hitems

end

theorem Extends.sound (h : Extends r r') {v : Value} (hv : v.Sound r) : v.Sound r' := by
  match v with
  | .constant d index =>
      refine ⟨?_, hv.2⟩
      exact enum?_eq_some_iff.mpr (h.kind? (enum?_eq_some_iff.mp hv.1) (by simp))
  | .aggregate d fields =>
      refine ⟨?_, hv.2.imp fun _ _ hfield => h.conforms hfield⟩
      exact aggregate?_eq_some_iff.mpr (h.kind? (aggregate?_eq_some_iff.mp hv.1) (by simp))
  | .union d discriminator payload =>
      obtain ⟨hd, alternative, halternative, hpayload⟩ := hv
      refine ⟨?_, alternative, halternative, h.conforms hpayload⟩
      exact union?_eq_some_iff.mpr (h.kind? (union?_eq_some_iff.mp hd) (by simp))
  | .int _ | .bool _ | .char _ | .str _ | .unit | .null | .pointer _ | .tuple _
  | .extension .. => trivial

theorem Extends.wellFormed (h : Extends r r') {v : Value} (hv : v.WellFormed r) :
    v.WellFormed r' :=
  hv.imp fun _ => h.sound

end Registry

end TaggedMatch
