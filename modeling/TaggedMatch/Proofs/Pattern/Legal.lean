import Mathlib.Data.List.Nodup
import TaggedMatch.Pattern.Basic
import TaggedMatch.Registry.Basic

/-!
# Legal patterns

Which patterns may be written for a type, said without a check in view. `Legal` has a rule for each
form of pattern, and two for alternatives, since unions and extension types have them in different
ways. A product pattern asks what parts the type shows (`Registry.Shows`): the places of a tuple,
which have no names, the fields of an aggregate that hides none, the pieces of an extension type's
shape.

That an identifier is bound once is not part of the judgement. It is a property of the identifiers
in written order, `Pattern.binders`.
-/

namespace TaggedMatch

/-- The parts that values of a type show to product patterns, each with its label if it has one. -/
inductive Registry.Shows (r : Registry) (ty : TypeId) : List PieceDef → Prop
  | tuple {elements : List TypeId} (kind : r.kind? ty = some (.tuple elements)) :
      Shows r ty (elements.map (⟨none, ·⟩))
  | aggregate {d : AggregateDef} (kind : r.kind? ty = some (.aggregate d))
      (allPublic : ∀ f ∈ d.fields, f.visibility = .isPublic) :
      Shows r ty (d.fields.map fun f => ⟨some f.name, f.ty⟩)
  | extension {d : ExtensionDef} {shape : AggregateShape}
      (kind : r.kind? ty = some (.extension d)) (declared : d.aggregate = some shape) :
      Shows r ty shape.pieces

/-- The types that a literal can be written for. -/
inductive Registry.Admits (r : Registry) (ty : TypeId) : Literal → Prop
  | int {n : Int64} (kind : r.kind? ty = some .int) : Admits r ty (.int n)
  | bool {b : Bool} (kind : r.kind? ty = some .bool) : Admits r ty (.bool b)
  | char {c : Char} (kind : r.kind? ty = some .char) : Admits r ty (.char c)
  | constant {d : EnumDef} {name : Name} (kind : r.kind? ty = some (.enumeration d))
      (declared : name ∈ d.constants) : Admits r ty (.constant name)

namespace Pattern

variable {γ : Type}

/-- `p.Legal r ty`: the pattern may be written for values of the type. -/
inductive Legal (r : Registry) : Pattern γ → TypeId → Prop
  | wildcard {span : Span} {ty : TypeId} (known : r.knows ty = true) : Legal r (.wildcard span) ty
  | literal {span : Span} {value : Literal} {ty : TypeId} (admitted : r.Admits ty value) :
      Legal r (.literal span value) ty
  | binding {span : Span} {name : Name} {sub : Pattern γ} {ty : TypeId} (inner : Legal r sub ty) :
      Legal r (.binding span name sub) ty
  | null {span : Span} {ty pointee : TypeId} (kind : r.kind? ty = some (.pointer pointee)) :
      Legal r (.null span) ty
  | deref {span : Span} {sub : Pattern γ} {ty pointee : TypeId}
      (kind : r.kind? ty = some (.pointer pointee)) (inner : Legal r sub pointee) :
      Legal r (.deref span sub) ty
  | union {span : Span} {selector : Name} {payload : Pattern γ} {ty : TypeId} {d : UnionDef}
      {a : AlternativeDef} (kind : r.kind? ty = some (.union d))
      (first : d.alternatives.find? (·.name == selector) = some a)
      (inner : Legal r payload a.payload) : Legal r (.alternative span selector payload) ty
  /-- The alternatives under the selector have one discriminator between them. -/
  | variant {span : Span} {selector : Name} {payload : Pattern γ} {ty : TypeId} {d : ExtensionDef}
      {shape : VariantShape} {a : VariantAlternativeDef} (kind : r.kind? ty = some (.extension d))
      (declared : d.variant = some shape)
      (first : shape.alternatives.find? (·.selector == selector) = some a)
      (one : ∀ b ∈ shape.alternatives, b.selector = selector → b.discriminator = a.discriminator)
      (inner : Legal r payload a.payload) : Legal r (.alternative span selector payload) ty
  | sequence {span : Span} {items : List (Pattern γ)} {ty : TypeId} {parts : List PieceDef}
      (shown : r.Shows ty parts) (arity : items.length = parts.length)
      (inner : ∀ item part, (item, part) ∈ items.zip parts → Legal r item part.ty) :
      Legal r (.sequence span items) ty
  | fields {span : Span} {entries : List (FieldEntry (Pattern γ))} {ty : TypeId}
      {parts : List PieceDef} (shown : r.Shows ty parts)
      (distinct : (entries.map (·.name)).Nodup)
      (resolved : ∀ e ∈ entries, ∃ part, parts.find? (·.label == some e.name) = some part)
      (inner : ∀ e ∈ entries, ∀ part, parts.find? (·.label == some e.name) = some part →
        Legal r e.pattern part.ty) : Legal r (.fields span entries) ty
  | guarded {sub : Pattern γ} {guard : γ} {span : Span} {ty : TypeId} (inner : Legal r sub ty) :
      Legal r (.guarded span sub guard) ty

/-! ## What is written in a pattern -/

mutual

/-- The pattern and all patterns below it, in written order: a pattern stands before its parts. -/
def subpatterns : Pattern γ → List (Pattern γ)
  | .wildcard span => [.wildcard span]
  | .literal span value => [.literal span value]
  | .binding span name sub => .binding span name sub :: sub.subpatterns
  | .null span => [.null span]
  | .deref span sub => .deref span sub :: sub.subpatterns
  | .alternative span selector payload =>
      .alternative span selector payload :: payload.subpatterns
  | .sequence span items => .sequence span items :: subpatternsOfItems items
  | .fields span entries => .fields span entries :: subpatternsOfEntries entries
  | .guarded span sub guard => .guarded span sub guard :: sub.subpatterns

def subpatternsOfItems : List (Pattern γ) → List (Pattern γ)
  | [] => []
  | p :: ps => p.subpatterns ++ subpatternsOfItems ps

def subpatternsOfEntries : List (FieldEntry (Pattern γ)) → List (Pattern γ)
  | [] => []
  | e :: es => e.pattern.subpatterns ++ subpatternsOfEntries es

end

theorem subpatternsOfItems_eq (items : List (Pattern γ)) :
    subpatternsOfItems items = items.flatMap subpatterns := by
  induction items with
  | nil => rfl
  | cons p ps ih => rw [subpatternsOfItems, ih, List.flatMap_cons]

theorem subpatternsOfEntries_eq (entries : List (FieldEntry (Pattern γ))) :
    subpatternsOfEntries entries = entries.flatMap (·.pattern.subpatterns) := by
  induction entries with
  | nil => rfl
  | cons e es ih => rw [subpatternsOfEntries, ih, List.flatMap_cons]

/-- The identifiers that a pattern binds, in written order. -/
def binders (p : Pattern γ) : List Name :=
  p.subpatterns.filterMap fun
    | .binding _ name _ => some name
    | _ => none

/-- The guards in a pattern. -/
def guards (p : Pattern γ) : List γ :=
  p.subpatterns.filterMap fun
    | .guarded _ _ guard => some guard
    | _ => none

@[simp] theorem binders_sequence (span : Span) (items : List (Pattern γ)) :
    (sequence span items).binders = items.flatMap binders := by
  rw [binders, subpatterns, subpatternsOfItems_eq, List.filterMap_cons_none rfl,
    List.filterMap_flatMap]
  rfl

@[simp] theorem binders_fields (span : Span) (entries : List (FieldEntry (Pattern γ))) :
    (fields span entries).binders = entries.flatMap (·.pattern.binders) := by
  rw [binders, subpatterns, subpatternsOfEntries_eq, List.filterMap_cons_none rfl,
    List.filterMap_flatMap]
  rfl

@[simp] theorem guards_sequence (span : Span) (items : List (Pattern γ)) :
    (sequence span items).guards = items.flatMap guards := by
  rw [guards, subpatterns, subpatternsOfItems_eq, List.filterMap_cons_none rfl,
    List.filterMap_flatMap]
  rfl

@[simp] theorem guards_fields (span : Span) (entries : List (FieldEntry (Pattern γ))) :
    (fields span entries).guards = entries.flatMap (·.pattern.guards) := by
  rw [guards, subpatterns, subpatternsOfEntries_eq, List.filterMap_cons_none rfl,
    List.filterMap_flatMap]
  rfl

/-! ## Induction

The parts of products stand in lists. What is shown of every part of a product is shown of the
product. -/

theorem induct {motive : Pattern γ → Prop} (wildcard : ∀ span, motive (.wildcard span))
    (literal : ∀ span value, motive (.literal span value))
    (binding : ∀ span name sub, motive sub → motive (.binding span name sub))
    (null : ∀ span, motive (.null span))
    (deref : ∀ span sub, motive sub → motive (.deref span sub))
    (alternative : ∀ span selector payload, motive payload →
      motive (.alternative span selector payload))
    (sequence : ∀ span items, (∀ p ∈ items, motive p) → motive (.sequence span items))
    (fields : ∀ span entries, (∀ e ∈ entries, motive e.pattern) → motive (.fields span entries))
    (guarded : ∀ span sub guard, motive sub → motive (.guarded span sub guard)) (p : Pattern γ) :
    motive p := by
  refine @Pattern.rec γ motive (fun items => ∀ p ∈ items, motive p)
    (fun entries => ∀ e ∈ entries, motive e.pattern) (fun e => motive e.pattern) wildcard literal
    binding null deref alternative sequence fields guarded ?_ ?_ ?_ ?_ ?_ p
  · exact fun p hp => nomatch hp
  · exact fun _ _ hp hps => List.forall_mem_cons.mpr ⟨hp, hps⟩
  · exact fun e he => nomatch he
  · exact fun _ _ he hes => List.forall_mem_cons.mpr ⟨he, hes⟩
  · exact fun _ _ _ hp => hp

end Pattern

end TaggedMatch
