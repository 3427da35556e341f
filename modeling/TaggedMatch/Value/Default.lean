import TaggedMatch.EvalError
import TaggedMatch.Registry.Default
import TaggedMatch.Value.Construct

/-!
# Default values

The default of a number is 0, of a truth value false, of a character U+0000, of a text the empty
one; a pointer is null, an enum has its first constant, a union its first alternative with the
default payload, and tuples and aggregates have the defaults of their parts. The construction walks
the types as the question whether there is a default does, and gives up where that says no.
-/

namespace TaggedMatch

/-- The default of a type, built from types of `fresh` alone, each entered at most once on the way
down. -/
def Value.defaultWithin? (r : Registry) (fresh : List TypeId) (ty : TypeId) : Option Value :=
  if _present : ty ∈ fresh then
    let rest := fresh.erase ty
    match r.kind? ty with
    | some .int => some (.int 0)
    | some .bool => some (.bool false)
    | some .char => some (.char '\x00')
    | some .str => some (.str "")
    | some .unit => some .unit
    | some (.pointer _) => some .null
    | some (.enumeration d) => if d.constants.isEmpty then none else some (.constant d 0)
    | some (.union d) =>
        match d.alternatives with
        | [] => none
        | first :: _ => (Value.defaultWithin? r rest first.payload).map (.union d 0)
    | some (.aggregate d) =>
        (d.fields.mapM fun field => Value.defaultWithin? r rest field.ty).map (.aggregate d)
    | some (.tuple elements) =>
        (elements.mapM fun element => Value.defaultWithin? r rest element).map .tuple
    | some (.extension _) | some .declared | none => none
  else none
termination_by fresh.length
decreasing_by
  all_goals
    rw [List.length_erase_of_mem _present]
    exact Nat.sub_lt (List.length_pos_of_mem _present) Nat.one_pos

/-- The default value of a type. -/
def Value.default (r : Registry) (ty : TypeId) : Except EvalError Value :=
  match Value.defaultWithin? r r.ids ty with
  | some v => .ok v
  | none => .error (.of (.notDefaultConstructible (r.display ty)))

/-- The alternative with this discriminator, with the default of its payload. -/
def UnionDef.defaultAlternative (r : Registry) (d : UnionDef) (discriminator : Nat) :
    Except EvalError UnionValue :=
  match d.alternative? discriminator with
  | none => .error (.of (.notDefaultConstructible (r.text d.name)))
  | some alternative => do
      let payload ← Value.default r alternative.payload
      .ok ⟨d, discriminator, payload⟩

/-- The default value of a union type, its first alternative. -/
def UnionValue.default (r : Registry) (ty : TypeId) : Except EvalError UnionValue := do
  let d ← r.unionDef ty
  d.defaultAlternative r 0

end TaggedMatch
