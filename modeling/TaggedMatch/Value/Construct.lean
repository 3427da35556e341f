import TaggedMatch.EvalError
import TaggedMatch.Registry.Display
import TaggedMatch.Value.Conformance
import TaggedMatch.Value.Text

/-!
# Building nominal values

Constants, aggregates and union values are built against a registry, by name, and their parts are
checked on the way in. A union type hands out a constructor for each of its alternatives.
-/

namespace TaggedMatch

namespace Value

/-- The constant of this name of an enum type. -/
def ofConstant (r : Registry) (ty : TypeId) (constant : String) : Except EvalError Value :=
  match r.enum? ty with
  | none => .error (.shapeMismatch "an enum type" (r.display ty))
  | some d =>
      match d.constants.findIdx? (r.text · == constant) with
      | none => .error (.of (.unknownConstant (r.text d.name) constant))
      | some index => .ok (.constant d index)

/-- The first field whose value does not belong to the field's type. -/
def misfit? (r : Registry) (fields : List FieldDef) (values : List Value) :
    Option (FieldDef × Value) :=
  (fields.zip values).find? fun (field, value) => !value.conforms r field.ty

/-- The aggregate with these fields, given in the order of declaration. -/
def ofFields (r : Registry) (ty : TypeId) (values : List Value) : Except EvalError Value :=
  match r.aggregate? ty with
  | none => .error (.shapeMismatch "an aggregate type" (r.display ty))
  | some d =>
      if d.fields.length != values.length then
        .error (.shapeMismatch s!"{d.fields.length} fields for `{r.display ty}`"
          (toString values.length))
      else
        match misfit? r d.fields values with
        | some (field, value) =>
            .error (.shapeMismatch
              s!"field `{r.text field.name}` of type `{r.display field.ty}`" value.text)
        | none => .ok (.aggregate d values)

end Value

/-- The definition of a union type. -/
def Registry.unionDef (r : Registry) (ty : TypeId) : Except EvalError UnionDef :=
  match r.union? ty with
  | some d => .ok d
  | none => .error (.of (.notAUnion (r.display ty)))

namespace UnionDef

/-- The discriminator of the first alternative written so. -/
def indexOfText? (r : Registry) (d : UnionDef) (alternative : String) : Option Nat :=
  d.alternatives.findIdx? (r.text ·.name == alternative)

/-- The constructor of one alternative of a union. -/
structure Constructor where
  defn : UnionDef
  discriminator : Nat

/-- The constructor of the alternative of this name. -/
def constructor (r : Registry) (d : UnionDef) (alternative : String) :
    Except EvalError Constructor :=
  match d.indexOfText? r alternative with
  | some discriminator => .ok ⟨d, discriminator⟩
  | none => .error (.of (.unknownAlternative (r.text d.name) alternative))

namespace Constructor

/-- The name of the alternative that is built. -/
def name (c : Constructor) : Name := c.defn.alternativeName c.discriminator

/-- The type that the payload has to belong to. -/
def payloadType (c : Constructor) : TypeId := c.defn.payloadType c.discriminator

/-- The union value with this payload. -/
def build (r : Registry) (c : Constructor) (payload : Value) : Except EvalError UnionValue :=
  if payload.conforms r c.payloadType then .ok ⟨c.defn, c.discriminator, payload⟩
  else .error (.of (.payloadTypeMismatch (r.text c.name) (r.display c.payloadType) payload.text))

end Constructor

end UnionDef

namespace UnionValue

/-- The value of a union type that has this alternative active with this payload. -/
def construct (r : Registry) (ty : TypeId) (alternative : String) (payload : Value) :
    Except EvalError UnionValue := do
  let d ← r.unionDef ty
  let c ← d.constructor r alternative
  c.build r payload

/-- The payload, if the alternative of this name is the active one. -/
def payloadAs (r : Registry) (u : UnionValue) (alternative : String) : Except EvalError Value :=
  match u.defn.indexOfText? r alternative with
  | none => .error (.of (.unknownAlternative (r.text u.defn.name) alternative))
  | some index =>
      if index == u.discriminator then .ok u.payload
      else .error (.of (.wrongAlternative alternative (r.text u.activeName)))

end UnionValue

end TaggedMatch
