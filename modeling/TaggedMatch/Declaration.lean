import TaggedMatch.Interner
import TaggedMatch.Span

/-!
# Types and their declarations

A type is known by its `TypeId`, a position in the registry; two types are the same exactly when
their ids are. The first five ids are the primitive types. This module holds what a registry can
say about an id: the bodies of the nominal types (enums, unions, aggregates and extension types)
and the shapes of the structural ones (tuples and pointers). A nominal body carries its own id and
name, so that a value built from it can be asked what it is without a registry.
-/

namespace TaggedMatch

/-- A type, known by its position in the registry. -/
structure TypeId where
  index : Nat
deriving DecidableEq, Repr

namespace TypeId

/-- The 64-bit signed integers. -/
def int : TypeId := ⟨0⟩

/-- The truth values. -/
def bool : TypeId := ⟨1⟩

/-- The Unicode scalar values. -/
def char : TypeId := ⟨2⟩

/-- The texts. -/
def str : TypeId := ⟨3⟩

/-- The type of one value, the payload of an alternative that is only a marker. -/
def unit : TypeId := ⟨4⟩

/-- The written form of a primitive type. -/
def primitiveName? : TypeId → Option String
  | ⟨0⟩ => some "int"
  | ⟨1⟩ => some "bool"
  | ⟨2⟩ => some "char"
  | ⟨3⟩ => some "str"
  | ⟨4⟩ => some "()"
  | _ => none

/-- Whether the id is one of the five that every registry starts with. -/
def isPrimitive (ty : TypeId) : Bool := ty.index < 5

/-- The text of a type where no registry is at hand: the primitive's name, else the position. -/
def tag (ty : TypeId) : String :=
  match ty.primitiveName? with
  | some name => s!"TypeId({name})"
  | none => s!"TypeId({ty.index})"

end TypeId

/-- An enum: its constants in the order of their indices. -/
structure EnumDef where
  name : Name
  ty : TypeId
  constants : List Name
deriving DecidableEq, Repr

/-- The index of a constant. -/
def EnumDef.constantIndex? (d : EnumDef) (constant : Name) : Option Nat :=
  d.constants.idxOf? constant

/-- The name of a constant, the empty name where there is none. -/
def EnumDef.constantName (d : EnumDef) (index : Nat) : Name :=
  d.constants[index]?.getD Name.empty

/-- What a union does when the value it is about to hold fails to be built. -/
inductive AssignPolicy where
  /-- It holds nothing, and the failure goes to the one who assigned. -/
  | propagate
  /-- The program ends. -/
  | abort
  /-- It holds the default of the alternative `empty`, and the failure is only reported. -/
  | fallbackToEmpty (empty : Name)
deriving DecidableEq, Repr

/-- The word for a policy in messages. -/
def AssignPolicy.label : AssignPolicy → String
  | .propagate => "propagate"
  | .abort => "abort"
  | .fallbackToEmpty _ => "fallback-to-empty"

/-- One alternative of a union. -/
structure AlternativeDef where
  name : Name
  payload : TypeId
  span : Span
deriving DecidableEq, Repr

/-- A tagged union; the position of an alternative is its discriminator. -/
structure UnionDef where
  name : Name
  ty : TypeId
  alternatives : List AlternativeDef
  policy : AssignPolicy
deriving DecidableEq, Repr

namespace UnionDef

/-- The alternative with this discriminator. -/
def alternative? (d : UnionDef) (discriminator : Nat) : Option AlternativeDef :=
  d.alternatives[discriminator]?

/-- The discriminator of the first alternative with this name. -/
def alternativeIndex? (d : UnionDef) (name : Name) : Option Nat :=
  d.alternatives.findIdx? (·.name == name)

/-- The discriminator that the policy falls back to, where it does and the name is declared. -/
def emptyIndex? (d : UnionDef) : Option Nat :=
  match d.policy with
  | .fallbackToEmpty empty => d.alternativeIndex? empty
  | .propagate | .abort => none

/-- The type of an alternative's payload, the unit type where there is no such alternative. -/
def payloadType (d : UnionDef) (discriminator : Nat) : TypeId :=
  ((d.alternative? discriminator).map (·.payload)).getD TypeId.unit

/-- The name of an alternative, the empty name where there is none. -/
def alternativeName (d : UnionDef) (discriminator : Nat) : Name :=
  ((d.alternative? discriminator).map (·.name)).getD Name.empty

end UnionDef

/-- Patterns look into an aggregate only if all its fields are public. -/
inductive Visibility where
  | isPublic
  | isPrivate
deriving DecidableEq, Repr

/-- One field of an aggregate. -/
structure FieldDef where
  name : Name
  ty : TypeId
  visibility : Visibility
  span : Span
deriving DecidableEq, Repr

/-- A product with named fields, in the order of their indices. -/
structure AggregateDef where
  name : Name
  ty : TypeId
  fields : List FieldDef
deriving DecidableEq, Repr

namespace AggregateDef

/-- The index of the first field with this name. -/
def fieldIndex? (d : AggregateDef) (name : Name) : Option Nat :=
  d.fields.findIdx? (·.name == name)

/-- Whether patterns may look into the aggregate. -/
def allPublic (d : AggregateDef) : Bool :=
  d.fields.all (·.visibility == .isPublic)

end AggregateDef

/-- One piece that an extension object gives out; a piece without a label is positional only. -/
structure PieceDef where
  label : Option Name
  ty : TypeId
deriving DecidableEq, Repr

/-- The pieces that an extension type promises of its objects. -/
structure AggregateShape where
  pieces : List PieceDef
deriving DecidableEq, Repr

/-- The index of the first piece with this label. -/
def AggregateShape.pieceIndex? (shape : AggregateShape) (label : Name) : Option Nat :=
  shape.pieces.findIdx? (·.label == some label)

/-- One alternative that an extension object can report: the name patterns select it by, the
discriminator the object answers, and the type of what it then holds. -/
structure VariantAlternativeDef where
  selector : Name
  discriminator : Int64
  payload : TypeId
deriving DecidableEq, Repr

/-- The alternatives that an extension type promises of its objects. Nothing in the type keeps a
selector from being given two discriminators; validation reports it. -/
structure VariantShape where
  alternatives : List VariantAlternativeDef
deriving DecidableEq, Repr

namespace VariantShape

/-- The first alternative under a selector. -/
def lookup? (shape : VariantShape) (selector : Name) : Option VariantAlternativeDef :=
  shape.alternatives.find? (·.selector == selector)

/-- The type of the payload under a selector, the unit type where there is no such selector. -/
def payloadType (shape : VariantShape) (selector : Name) : TypeId :=
  ((shape.lookup? selector).map (·.payload)).getD TypeId.unit

/-- The distinct discriminators under a selector, in the order of declaration. -/
def discriminatorsFor (shape : VariantShape) (selector : Name) : List Int64 :=
  ((shape.alternatives.filter (·.selector == selector)).map (·.discriminator)).eraseDups

end VariantShape

/-- A host type that is opaque but for the shapes it declares. -/
structure ExtensionDef where
  name : Name
  ty : TypeId
  aggregate : Option AggregateShape
  variant : Option VariantShape
deriving DecidableEq, Repr

/-- What a registry knows about a type. -/
inductive TypeKind where
  | int
  | bool
  | char
  | str
  | unit
  /-- A nominal type that has a name and no body yet. -/
  | declared
  | enumeration (d : EnumDef)
  | union (d : UnionDef)
  | aggregate (d : AggregateDef)
  | tuple (elements : List TypeId)
  /-- An owning pointer that may be null. -/
  | pointer (pointee : TypeId)
  | extension (d : ExtensionDef)
deriving DecidableEq, Repr

/-- The word for a kind in messages. -/
def TypeKind.describe : TypeKind → String
  | .int | .bool | .char | .str | .unit => "primitive"
  | .declared => "undefined type"
  | .enumeration _ => "enum"
  | .union _ => "union"
  | .aggregate _ => "aggregate"
  | .tuple _ => "tuple"
  | .pointer _ => "pointer"
  | .extension _ => "extension type"

end TaggedMatch
