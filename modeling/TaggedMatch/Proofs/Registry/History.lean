import TaggedMatch.Registry.Basic

/-!
# Histories of a registry

A registry is only ever changed through its operations, and the registries that a program can come
to have are the ones that some list of operations leads to. Fifteen operations are offered, but most
of them are several smaller ones in a row: names are interned, an id is declared, a body is given.
`Move` has the five things that can happen to a registry at once, and `apply_moves` says that every
operation is a sequence of them. What is to hold of every history is shown for the five.

A body always names the id it is given to and the name of that id (`TypeKind.owner?`); the operations
put both in themselves.
-/

namespace TaggedMatch

/-- What a program can do to a registry. Interning is among it, since the table of texts is shared:
what was interned before the registry was made is as good as interned at once after. -/
inductive Operation where
  | intern (s : String)
  /-- Looking a type up by its name interns the name. -/
  | byName (s : String)
  | fallbackTo (empty : String)
  | declareAt (name : String) (span : Span)
  | defineEnum (ty : TypeId) (constants : List String)
  | defineUnion (ty : TypeId) (alternatives : List (String × TypeId)) (policy : AssignPolicy)
  | defineUnionWith (ty : TypeId) (alternatives : List AlternativeDef) (policy : AssignPolicy)
  | defineAggregate (ty : TypeId) (fields : List FieldDef)
  | defineExtension (ty : TypeId) (aggregate : Option AggregateShape)
      (variant : Option VariantShape)
  | enumeration (name : String) (constants : List String)
  | union (name : String) (alternatives : List (String × TypeId)) (policy : AssignPolicy)
  | aggregate (name : String) (fields : List (String × TypeId))
  | extension (name : String) (aggregate : Option AggregateShape) (variant : Option VariantShape)
  | tuple (elements : List TypeId)
  | pointer (pointee : TypeId)
deriving DecidableEq, Repr

/-- The type that the body of a nominal type says it belongs to. -/
def TypeKind.owner? : TypeKind → Option (TypeId × Name)
  | .enumeration d => some (d.ty, d.name)
  | .union d => some (d.ty, d.name)
  | .aggregate d => some (d.ty, d.name)
  | .extension d => some (d.ty, d.name)
  | .int | .bool | .char | .str | .unit | .declared | .tuple _ | .pointer _ => none

namespace Registry

/-- The registry after an operation. -/
def apply (r : Registry) : Operation → Registry
  | .intern s => (r.intern s).2
  | .byName s => (r.byName s).2
  | .fallbackTo empty => (r.fallbackTo empty).2
  | .declareAt name span => (r.declareAt name span).2
  | .defineEnum ty constants => r.defineEnum ty constants
  | .defineUnion ty alternatives policy => r.defineUnion ty alternatives policy
  | .defineUnionWith ty alternatives policy => r.defineUnionWith ty alternatives policy
  | .defineAggregate ty fields => r.defineAggregate ty fields
  | .defineExtension ty aggregate variant => r.defineExtension ty aggregate variant
  | .enumeration name constants => (r.enumeration name constants).2
  | .union name alternatives policy => (r.union name alternatives policy).2
  | .aggregate name fields => (r.aggregate name fields).2
  | .extension name aggregate variant => (r.extension name aggregate variant).2
  | .tuple elements => (r.tuple elements).2
  | .pointer pointee => (r.pointer pointee).2

/-- The registry after operations, the first of the list first. -/
def run (r : Registry) (operations : List Operation) : Registry := operations.foldl apply r

/-- The registry that starts with an empty table of texts. -/
def fresh : Registry := initial Interner.initial

/-- The registries that a program can come to have. -/
def Reachable (r : Registry) : Prop := ∃ operations, fresh.run operations = r

theorem reachable_fresh : fresh.Reachable := ⟨[], rfl⟩

theorem Reachable.apply {r : Registry} (h : r.Reachable) (operation : Operation) :
    (r.apply operation).Reachable := by
  obtain ⟨operations, rfl⟩ := h
  exact ⟨operations ++ [operation], by simp [run]⟩

/-! ## What can happen at once -/

/-- One change of a registry, of those that the operations consist of. -/
inductive Move (r : Registry) : Registry → Prop
  | intern (s : String) : Move r (r.intern s).2
  | declare (name : String) (span : Span) : Move r (r.declareAt name span).2
  | define (ty : TypeId) (body : TypeKind) (h : body.owner? = some (ty, r.nameOf ty)) :
      Move r (r.define ty body)
  | tuple (elements : List TypeId) : Move r (r.tuple elements).2
  | pointer (pointee : TypeId) : Move r (r.pointer pointee).2

/-- Changes one after the other. -/
inductive Moves : Registry → Registry → Prop
  | none (r : Registry) : Moves r r
  | more {r r' r'' : Registry} : Moves r r' → Move r' r'' → Moves r r''

theorem Move.moves {r r' : Registry} (h : Move r r') : Moves r r' := .more (.none r) h

theorem Moves.trans {r r' r'' : Registry} (h : Moves r r') (h' : Moves r' r'') : Moves r r'' := by
  induction h' with
  | none => exact h
  | more _ hmove ih => exact .more ih hmove

theorem internAll_moves (r : Registry) (texts : List String) : Moves r (r.internAll texts).2 := by
  induction texts generalizing r with
  | nil => exact .none r
  | cons s rest ih => exact (Move.intern s).moves.trans (ih (r.intern s).2)

theorem defineEnum_moves (r : Registry) (ty : TypeId) (constants : List String) :
    Moves r (r.defineEnum ty constants) :=
  (internAll_moves r constants).more (.define ty (.enumeration _) rfl)

theorem defineUnionWith_moves (r : Registry) (ty : TypeId) (alternatives : List AlternativeDef)
    (policy : AssignPolicy) : Moves r (r.defineUnionWith ty alternatives policy) :=
  (Move.define ty (.union _) rfl).moves

theorem defineUnion_moves (r : Registry) (ty : TypeId) (alternatives : List (String × TypeId))
    (policy : AssignPolicy) : Moves r (r.defineUnion ty alternatives policy) :=
  (internAll_moves r _).trans (defineUnionWith_moves _ ty _ policy)

theorem defineAggregate_moves (r : Registry) (ty : TypeId) (fields : List FieldDef) :
    Moves r (r.defineAggregate ty fields) :=
  (Move.define ty (.aggregate _) rfl).moves

theorem defineExtension_moves (r : Registry) (ty : TypeId) (aggregate : Option AggregateShape)
    (variant : Option VariantShape) : Moves r (r.defineExtension ty aggregate variant) :=
  (Move.define ty (.extension _) rfl).moves

/-- Every operation consists of changes of the five kinds. -/
theorem apply_moves (r : Registry) (operation : Operation) : Moves r (r.apply operation) := by
  have declared (name : String) : Moves r (r.declare name).2 := (Move.declare name _).moves
  cases operation with
  | intern s | byName s | fallbackTo s => exact (Move.intern s).moves
  | declareAt name span => exact (Move.declare name span).moves
  | defineEnum ty constants => exact defineEnum_moves r ty constants
  | defineUnion ty alternatives policy => exact defineUnion_moves r ty alternatives policy
  | defineUnionWith ty alternatives policy => exact defineUnionWith_moves r ty alternatives policy
  | defineAggregate ty fields => exact defineAggregate_moves r ty fields
  | defineExtension ty aggregate variant => exact defineExtension_moves r ty aggregate variant
  | enumeration name constants => exact (declared name).trans (defineEnum_moves _ _ constants)
  | union name alternatives policy =>
      exact (declared name).trans (defineUnion_moves _ _ alternatives policy)
  | aggregate name fields =>
      exact ((declared name).trans (internAll_moves _ _)).trans (defineAggregate_moves _ _ _)
  | extension name aggregate variant =>
      exact (declared name).trans (defineExtension_moves _ _ aggregate variant)
  | tuple elements => exact (Move.tuple elements).moves
  | pointer pointee => exact (Move.pointer pointee).moves

/-- What every change keeps, every operation keeps. -/
theorem Moves.keep {P : Registry → Prop} (step : ∀ r r', P r → Move r r' → P r')
    {r r' : Registry} (h : Moves r r') (hr : P r) : P r' := by
  induction h with
  | none => exact hr
  | more _ hmove ih => exact step _ _ ih hmove

/-- What every change keeps holds after any further operations. -/
theorem run_keep {P : Registry → Prop} (step : ∀ r r', P r → Move r r' → P r') {r : Registry}
    (operations : List Operation) (hr : P r) : P (r.run operations) := by
  induction operations generalizing r with
  | nil => exact hr
  | cons operation rest ih => exact ih ((apply_moves r operation).keep step hr)

/-- What a fresh registry has and every change keeps, every reachable registry has. -/
theorem Reachable.induct {P : Registry → Prop} (start : P fresh)
    (step : ∀ r r', P r → Move r r' → P r') {r : Registry} (h : r.Reachable) : P r := by
  obtain ⟨operations, rfl⟩ := h
  exact run_keep step operations start

end Registry

end TaggedMatch
