import TaggedMatch.Declaration

/-!
# The registry of types

A registry is an array of entries, one for each type in the order of issue; a `TypeId` is a position
in it. Beside the entries it keeps three indexes: the first type declared under each name, and the
tuple and pointer types by their shapes, so that one shape is one type. A nominal type is declared
first and defined later, once; what goes wrong on the way is recorded as a fault and changes
nothing else, and `Registry.faults` reports it with all that is wrong with the declarations
themselves.
-/

namespace TaggedMatch

/-- A type as the registry holds it; a structural or primitive type has the empty name. -/
structure TypeEntry where
  name : Name
  kind : TypeKind
  span : Span
deriving DecidableEq, Repr

/-- What can be wrong with a history of declarations. -/
inductive Fault where
  /-- A name was declared again. -/
  | declaredTwice (name : Name) (again first : Span)
  /-- A body was given to a type that is not waiting for one. -/
  | definedTwice (name : Name) (span : Span)
  /-- A body was given to an id that was never issued. -/
  | definesUnknown (ty : TypeId)
  | neverDefined (name : Name) (span : Span)
  | constantTwice (constant owner : Name) (span : Span)
  | noAlternatives (owner : Name) (span : Span)
  | alternativeTwice (alternative owner : Name) (span : Span)
  | fallbackUndeclared (alternative owner : Name) (span : Span)
  | fallbackWithoutDefault (alternative : Name) (payload : TypeId) (span : Span)
  | fieldTwice (field owner : Name) (span : Span)
  | labelTwice (label owner : Name) (span : Span)
  | selectorAmbiguous (selector owner : Name) (discriminators : List Int64) (span : Span)
  | discriminatorShared (discriminator : Int64) (owner first second : Name) (span : Span)
  /-- A declaration mentions an id that was never issued. -/
  | mentionsUnknown (ty : TypeId) (span : Span)
deriving DecidableEq, Repr

/-- The types, their names and their indexes. -/
structure Registry where
  interner : Interner
  entries : Array TypeEntry
  /-- The first type declared under each name. -/
  nominal : List (Name × TypeId)
  tuples : List (List TypeId × TypeId)
  pointers : List (TypeId × TypeId)
  /-- The faults met while declaring and defining, in order. -/
  recorded : List Fault
deriving Repr

namespace Registry

/-- A registry that knows the primitive types, over a table of names. -/
def initial (interner : Interner) : Registry where
  interner := interner
  entries := #[TypeKind.int, .bool, .char, .str, .unit].map (⟨Name.empty, ·, Span.dummy⟩)
  nominal := []
  tuples := []
  pointers := []
  recorded := []

/-! ## Lookup -/

/-- How many types there are, the primitive ones included. -/
def size (r : Registry) : Nat := r.entries.size

/-- The entry of a type; there is none for an id that was never issued. -/
def find? (r : Registry) (ty : TypeId) : Option TypeEntry := r.entries[ty.index]?

/-- What is known of a type. -/
def kind? (r : Registry) (ty : TypeId) : Option TypeKind := (r.find? ty).map (·.kind)

/-- Whether the id was issued. -/
def knows (r : Registry) (ty : TypeId) : Bool := ty.index < r.size

/-- The definition of a type that is an enum. -/
def enum? (r : Registry) (ty : TypeId) : Option EnumDef :=
  match r.kind? ty with
  | some (.enumeration d) => some d
  | _ => none

/-- The definition of a type that is a union. -/
def union? (r : Registry) (ty : TypeId) : Option UnionDef :=
  match r.kind? ty with
  | some (.union d) => some d
  | _ => none

/-- The definition of a type that is an aggregate. -/
def aggregate? (r : Registry) (ty : TypeId) : Option AggregateDef :=
  match r.kind? ty with
  | some (.aggregate d) => some d
  | _ => none

/-- The definition of a type that is an extension type. -/
def extension? (r : Registry) (ty : TypeId) : Option ExtensionDef :=
  match r.kind? ty with
  | some (.extension d) => some d
  | _ => none

/-- The types of the places of a tuple type. -/
def tupleElements? (r : Registry) (ty : TypeId) : Option (List TypeId) :=
  match r.kind? ty with
  | some (.tuple elements) => some elements
  | _ => none

/-- The type that pointers of this type point to. -/
def pointee? (r : Registry) (ty : TypeId) : Option TypeId :=
  match r.kind? ty with
  | some (.pointer pointee) => some pointee
  | _ => none

/-- The name an id was declared with, the empty name where there is none. -/
def nameOf (r : Registry) (ty : TypeId) : Name :=
  ((r.find? ty).map (·.name)).getD Name.empty

/-! ## Names -/

/-- The text of a name. -/
def text (r : Registry) (n : Name) : String := r.interner.lookup n

/-- The name of a text, in the registry's table. -/
def intern (r : Registry) (s : String) : Name × Registry :=
  ((r.interner.intern s).1, { r with interner := (r.interner.intern s).2 })

/-- Interns texts from left to right. -/
def internAll (r : Registry) : List String → List Name × Registry
  | [] => ([], r)
  | s :: rest =>
      let (n, r) := r.intern s
      let (ns, r) := r.internAll rest
      (n :: ns, r)

/-- The first type declared under a name. The name is interned even if nothing has it. -/
def byName (r : Registry) (s : String) : Option TypeId × Registry :=
  let (n, r) := r.intern s
  (r.nominal.lookup n, r)

/-! ## Declaring and defining -/

/-- Issues the next id. -/
def push (r : Registry) (entry : TypeEntry) : TypeId × Registry :=
  (⟨r.size⟩, { r with entries := r.entries.push entry })

/-- The next id has the entry that was pushed, and every other id has what it had. -/
theorem find?_push (r : Registry) (entry : TypeEntry) (ty : TypeId) :
    (r.push entry).2.find? ty =
      if ty = (r.push entry).1 then some entry else r.find? ty := by
  obtain ⟨i⟩ := ty
  simp only [push, find?, size, TypeId.mk.injEq, Array.getElem?_push]

/-- Keeps a fault for the report. -/
def record (r : Registry) (fault : Fault) : Registry :=
  { r with recorded := r.recorded ++ [fault] }

/-- Issues an id for a nominal type whose body comes later. A name that is already taken keeps its
first type; the new id is issued all the same, and the fault recorded. -/
def declareAt (r : Registry) (name : String) (span : Span) : TypeId × Registry :=
  let (n, r) := r.intern name
  let (ty, r) := r.push ⟨n, .declared, span⟩
  match r.nominal.lookup n with
  | some first =>
      let firstSpan := ((r.find? first).map (·.span)).getD Span.dummy
      (ty, r.record (.declaredTwice n span firstSpan))
  | none => (ty, { r with nominal := r.nominal ++ [(n, ty)] })

/-- Issues an id for a nominal type that came from no text. -/
def declare (r : Registry) (name : String) : TypeId × Registry := r.declareAt name Span.dummy

/-- Gives a type its body. Only a type that is declared and not yet defined takes one. -/
def define (r : Registry) (ty : TypeId) (body : TypeKind) : Registry :=
  match r.find? ty with
  | some entry =>
      match entry.kind with
      | .declared =>
          { r with entries := r.entries.setIfInBounds ty.index { entry with kind := body } }
      | _ => r.record (.definedTwice entry.name entry.span)
  | none => r.record (.definesUnknown ty)

/-- Defines an enum. The constants are interned even where the definition is refused. -/
def defineEnum (r : Registry) (ty : TypeId) (constants : List String) : Registry :=
  let (names, r) := r.internAll constants
  r.define ty (.enumeration ⟨r.nameOf ty, ty, names⟩)

/-- Defines a union by alternatives that already have names and places. -/
def defineUnionWith (r : Registry) (ty : TypeId) (alternatives : List AlternativeDef)
    (policy : AssignPolicy) : Registry :=
  r.define ty (.union ⟨r.nameOf ty, ty, alternatives, policy⟩)

/-- Defines a union by texts; its alternatives came from no place. -/
def defineUnion (r : Registry) (ty : TypeId) (alternatives : List (String × TypeId))
    (policy : AssignPolicy) : Registry :=
  let (names, r) := r.internAll (alternatives.map (·.1))
  let bodies := (names.zip (alternatives.map (·.2))).map fun (n, payload) =>
    ⟨n, payload, Span.dummy⟩
  r.defineUnionWith ty bodies policy

def defineAggregate (r : Registry) (ty : TypeId) (fields : List FieldDef) : Registry :=
  r.define ty (.aggregate ⟨r.nameOf ty, ty, fields⟩)

def defineExtension (r : Registry) (ty : TypeId) (aggregate : Option AggregateShape)
    (variant : Option VariantShape) : Registry :=
  r.define ty (.extension ⟨r.nameOf ty, ty, aggregate, variant⟩)

/-! ## Declaring and defining in one step -/

def enumeration (r : Registry) (name : String) (constants : List String) : TypeId × Registry :=
  let (ty, r) := r.declare name
  (ty, r.defineEnum ty constants)

def union (r : Registry) (name : String) (alternatives : List (String × TypeId))
    (policy : AssignPolicy) : TypeId × Registry :=
  let (ty, r) := r.declare name
  (ty, r.defineUnion ty alternatives policy)

/-- An aggregate whose fields are all public. -/
def aggregate (r : Registry) (name : String) (fields : List (String × TypeId)) :
    TypeId × Registry :=
  let (ty, r) := r.declare name
  let (names, r) := r.internAll (fields.map (·.1))
  let bodies := (names.zip (fields.map (·.2))).map fun (n, fieldTy) =>
    ⟨n, fieldTy, .isPublic, Span.dummy⟩
  (ty, r.defineAggregate ty bodies)

def extension (r : Registry) (name : String) (aggregate : Option AggregateShape)
    (variant : Option VariantShape) : TypeId × Registry :=
  let (ty, r) := r.declare name
  (ty, r.defineExtension ty aggregate variant)

/-- The policy of falling back to the alternative of this name. -/
def fallbackTo (r : Registry) (empty : String) : AssignPolicy × Registry :=
  let (n, r) := r.intern empty
  (.fallbackToEmpty n, r)

/-! ## Structural types -/

/-- The tuple type of these elements; the same elements are the same type. -/
def tuple (r : Registry) (elements : List TypeId) : TypeId × Registry :=
  match r.tuples.lookup elements with
  | some ty => (ty, r)
  | none =>
      let (ty, r) := r.push ⟨Name.empty, .tuple elements, Span.dummy⟩
      (ty, { r with tuples := r.tuples ++ [(elements, ty)] })

/-- The type of pointers to this type. -/
def pointer (r : Registry) (pointee : TypeId) : TypeId × Registry :=
  match r.pointers.lookup pointee with
  | some ty => (ty, r)
  | none =>
      let (ty, r) := r.push ⟨Name.empty, .pointer pointee, Span.dummy⟩
      (ty, { r with pointers := r.pointers ++ [(pointee, ty)] })

end Registry

end TaggedMatch
