import TaggedMatch.Registry.Basic

/-!
# How types are written

A nominal type is written as its name, a tuple as `(a, b)`, a pointer as `*T`, and an id that was
never issued as `<unknown>`. To write a structural type its elements and its pointee are written,
and nothing is kept of the types on the way. So a type that is built from itself is written without
end, and has no text. An answer that takes the text of such a type is not given.
-/

namespace TaggedMatch.Registry

/-- The text of a type. There is none if the writing does not end. -/
def display? (ty : TypeId) (r : Registry) : Option String :=
  match r.find? ty with
  | none => some "<unknown>"
  | some entry =>
      match entry.kind with
      | .int => some "int"
      | .bool => some "bool"
      | .char => some "char"
      | .str => some "str"
      | .unit => some "()"
      | .tuple elements => do
          let texts ← elements.mapM r.display?
          return "(" ++ ", ".intercalate texts ++ ")"
      | .pointer pointee => do
          let text ← some pointee >>= r.display?
          return "*" ++ text
      | .declared | .enumeration _ | .union _ | .aggregate _ | .extension _ =>
          some (r.text entry.name)
partial_fixpoint

/-- The text of a type that has one. Whoever takes the text of a type that has none waits for it
forever, so what stands here for that text is never seen. -/
def display (r : Registry) (ty : TypeId) : String := (r.display? ty).getD ""

/-- The texts of types, if each has one. -/
def displayAll? (r : Registry) (types : List TypeId) : Option (List String) :=
  types.mapM r.display?

/-- The word for what kind of type it is. -/
def describeKind (r : Registry) (ty : TypeId) : String :=
  ((r.kind? ty).map TypeKind.describe).getD "unknown type"

end TaggedMatch.Registry
