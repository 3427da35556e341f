import Mathlib.Data.List.Nodup
import TaggedMatch.Proofs.Pattern.Legal

/-!
# The types that identifiers are bound at

What a pattern binds has no written type. The type is that of the place in the subject where the
identifier stands, and `Pattern.BindsAt` finds it by going down from the type of the whole: to what a
pointer points to, to the payload of the alternative that is selected, to a part of a product. The
first alternative under a selector counts, and the first part with a label, as in `Pattern.Legal`.

An identifier may stand in two places of a pattern, at different types. Where every identifier is
bound once, as a check makes sure, it has one place and so one type at most (`BindsAt.unique`).
-/

namespace TaggedMatch

/-- A type shows one list of parts. -/
theorem Registry.Shows.unique {r : Registry} {ty : TypeId} {parts parts' : List PieceDef}
    (h : r.Shows ty parts) (h' : r.Shows ty parts') : parts = parts' := by
  cases h with
  | tuple kind =>
      cases h' with
      | tuple kind' => cases kind.symm.trans kind'; rfl
      | aggregate kind' | extension kind' => cases kind.symm.trans kind'
  | aggregate kind =>
      cases h' with
      | aggregate kind' => cases kind.symm.trans kind'; rfl
      | tuple kind' | extension kind' => cases kind.symm.trans kind'
  | extension kind declared =>
      cases h' with
      | extension kind' declared' =>
          cases kind.symm.trans kind'
          cases declared.symm.trans declared'
          rfl
      | tuple kind' | aggregate kind' => cases kind.symm.trans kind'

namespace Pattern

variable {γ : Type} {r : Registry} {p : Pattern γ} {ty t t' : TypeId} {name : Name}

/-- `p.BindsAt r ty name t`: where the pattern is written for values of type `ty`, the identifier
stands in it at a place of type `t`. -/
inductive BindsAt (r : Registry) : Pattern γ → TypeId → Name → TypeId → Prop
  | here {span : Span} {name : Name} {sub : Pattern γ} {ty : TypeId} :
      BindsAt r (.binding span name sub) ty name ty
  | binding {span : Span} {outer name : Name} {sub : Pattern γ} {ty t : TypeId}
      (inner : BindsAt r sub ty name t) : BindsAt r (.binding span outer sub) ty name t
  | guarded {span : Span} {sub : Pattern γ} {guard : γ} {ty t : TypeId} {name : Name}
      (inner : BindsAt r sub ty name t) : BindsAt r (.guarded span sub guard) ty name t
  | deref {span : Span} {sub : Pattern γ} {ty pointee t : TypeId} {name : Name}
      (kind : r.kind? ty = some (.pointer pointee)) (inner : BindsAt r sub pointee name t) :
      BindsAt r (.deref span sub) ty name t
  | union {span : Span} {selector name : Name} {payload : Pattern γ} {ty t : TypeId} {d : UnionDef}
      {a : AlternativeDef} (kind : r.kind? ty = some (.union d))
      (first : d.alternatives.find? (·.name == selector) = some a)
      (inner : BindsAt r payload a.payload name t) :
      BindsAt r (.alternative span selector payload) ty name t
  | variant {span : Span} {selector name : Name} {payload : Pattern γ} {ty t : TypeId}
      {d : ExtensionDef} {shape : VariantShape} {a : VariantAlternativeDef}
      (kind : r.kind? ty = some (.extension d)) (declared : d.variant = some shape)
      (first : shape.alternatives.find? (·.selector == selector) = some a)
      (inner : BindsAt r payload a.payload name t) :
      BindsAt r (.alternative span selector payload) ty name t
  | sequence {span : Span} {items : List (Pattern γ)} {item : Pattern γ} {ty t : TypeId}
      {parts : List PieceDef} {part : PieceDef} {name : Name} (shown : r.Shows ty parts)
      (place : (item, part) ∈ items.zip parts) (inner : BindsAt r item part.ty name t) :
      BindsAt r (.sequence span items) ty name t
  | fields {span : Span} {entries : List (FieldEntry (Pattern γ))} {e : FieldEntry (Pattern γ)}
      {ty t : TypeId} {parts : List PieceDef} {part : PieceDef} {name : Name}
      (shown : r.Shows ty parts) (entry : e ∈ entries)
      (resolved : parts.find? (·.label == some e.name) = some part)
      (inner : BindsAt r e.pattern part.ty name t) : BindsAt r (.fields span entries) ty name t

theorem BindsAt.mem_binders (h : p.BindsAt r ty name t) : name ∈ p.binders := by
  induction h with
  | here => exact List.mem_cons_self
  | binding _ ih => exact List.mem_cons_of_mem _ ih
  | guarded _ ih | deref _ _ ih | union _ _ _ ih | variant _ _ _ _ ih => exact ih
  | sequence _ place _ ih =>
      rw [binders_sequence, List.mem_flatMap]
      exact ⟨_, (List.of_mem_zip place).1, ih⟩
  | fields _ entry _ _ ih =>
      rw [binders_fields, List.mem_flatMap]
      exact ⟨_, entry, ih⟩

/-- Where lists put end to end do not repeat anything, what is in two of them is in one place. -/
theorem position_unique_of_flatMap {α β : Type} {as : List α} {f : α → List β}
    (hnodup : (as.flatMap f).Nodup) {i j : Nat} {a a' : α} {b : β} (ha : as[i]? = some a)
    (ha' : as[j]? = some a') (hb : b ∈ f a) (hb' : b ∈ f a') : i = j := by
  have hpairs := List.pairwise_iff_getElem.mp (List.nodup_flatMap.mp hnodup).2
  obtain ⟨hi, rfl⟩ := List.getElem?_eq_some_iff.mp ha
  obtain ⟨hj, rfl⟩ := List.getElem?_eq_some_iff.mp ha'
  rcases Nat.lt_trichotomy i j with hij | hij | hij
  · exact absurd hb' (hpairs i j hi hj hij hb)
  · exact hij
  · exact absurd hb (hpairs j i hj hi hij hb')

/-- An identifier that is bound once is bound at one type. -/
theorem BindsAt.unique (hnodup : p.binders.Nodup) (h : p.BindsAt r ty name t)
    (h' : p.BindsAt r ty name t') : t = t' := by
  induction h with
  | @here span name sub ty =>
      have hfresh : name ∉ sub.binders := (List.nodup_cons.mp hnodup).1
      cases h' with
      | here => rfl
      | binding inner' => exact absurd inner'.mem_binders hfresh
  | binding inner ih =>
      obtain ⟨hfresh, hrest⟩ := List.nodup_cons.mp hnodup
      cases h' with
      | here => exact absurd inner.mem_binders hfresh
      | binding inner' => exact ih hrest inner'
  | guarded _ ih =>
      cases h' with
      | guarded inner' => exact ih hnodup inner'
  | deref kind _ ih =>
      cases h' with
      | deref kind' inner' =>
          cases kind.symm.trans kind'
          exact ih hnodup inner'
  | union kind first _ ih =>
      cases h' with
      | union kind' first' inner' =>
          cases kind.symm.trans kind'
          cases first.symm.trans first'
          exact ih hnodup inner'
      | variant kind' => cases kind.symm.trans kind'
  | variant kind declared first _ ih =>
      cases h' with
      | union kind' => cases kind.symm.trans kind'
      | variant kind' declared' first' inner' =>
          cases kind.symm.trans kind'
          cases declared.symm.trans declared'
          cases first.symm.trans first'
          exact ih hnodup inner'
  | @sequence span items item ty t parts part name shown place inner ih =>
      rw [binders_sequence] at hnodup
      cases h' with
      | sequence shown' place' inner' =>
          cases shown.unique shown'
          obtain ⟨i, hi⟩ := List.mem_iff_getElem?.mp place
          obtain ⟨j, hj⟩ := List.mem_iff_getElem?.mp place'
          obtain rfl := position_unique_of_flatMap hnodup (List.getElem?_zip_eq_some.mp hi).1
            (List.getElem?_zip_eq_some.mp hj).1 inner.mem_binders inner'.mem_binders
          cases hi.symm.trans hj
          have hitem := (List.nodup_flatMap.mp hnodup).1 item (List.of_mem_zip place).1
          exact ih hitem inner'
  | @fields span entries e ty t parts part name shown entry resolved inner ih =>
      rw [binders_fields] at hnodup
      cases h' with
      | fields shown' entry' resolved' inner' =>
          cases shown.unique shown'
          obtain ⟨i, hi⟩ := List.mem_iff_getElem?.mp entry
          obtain ⟨j, hj⟩ := List.mem_iff_getElem?.mp entry'
          obtain rfl := position_unique_of_flatMap hnodup hi hj inner.mem_binders
            inner'.mem_binders
          cases hi.symm.trans hj
          cases resolved.symm.trans resolved'
          exact ih ((List.nodup_flatMap.mp hnodup).1 e entry) inner'

end Pattern

end TaggedMatch
