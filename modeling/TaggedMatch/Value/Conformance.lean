import TaggedMatch.Registry.Basic
import TaggedMatch.Value.Basic

/-!
# Which values belong to a type

A primitive value belongs to its primitive type, null to every pointer type, a pointer to the
pointer types whose pointee type its pointee belongs to, a tuple to the tuple types of its length
that it fits place by place. A nominal value belongs to the type it was built for and to no other.
Its parts were checked when it was built and are not looked at again.
-/

namespace TaggedMatch.Value

mutual

/-- Whether a value belongs to a type. -/
def conforms (r : Registry) : Value → TypeId → Bool
  | .int _, ty => r.kind? ty == some .int
  | .bool _, ty => r.kind? ty == some .bool
  | .char _, ty => r.kind? ty == some .char
  | .str _, ty => r.kind? ty == some .str
  | .unit, ty => r.kind? ty == some .unit
  | .null, ty => (r.pointee? ty).isSome
  | .pointer v, ty =>
      match r.pointee? ty with
      | some pointee => v.conforms r pointee
      | none => false
  | .tuple items, ty =>
      match r.tupleElements? ty with
      | some elements => items.length == elements.length && conformsAll r items elements
      | none => false
  | .constant d _, ty => d.ty == ty
  | .aggregate d _, ty => d.ty == ty
  | .union d _ _, ty => d.ty == ty
  | .extension own _, ty => own == ty

/-- Whether each value belongs to the type in its place, as far as both lists go. -/
def conformsAll (r : Registry) : List Value → List TypeId → Bool
  | v :: vs, ty :: tys => v.conforms r ty && conformsAll r vs tys
  | _, _ => true

end

end TaggedMatch.Value
