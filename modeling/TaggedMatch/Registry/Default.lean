import TaggedMatch.Registry.Basic

/-!
# Which types have a default value

A primitive type and a pointer type have one (the pointer's is null), an enum if it has a constant,
a union if its first alternative's payload has one, a tuple or an aggregate if all its parts have.
A type that can only be built by going through itself has none. To see that, the search carries the
types it may still enter: an id that was never issued is not among them from the start, and one
that the search is in the middle of no longer is. Each step takes one away, so the search ends.
-/

namespace TaggedMatch.Registry

/-- Whether a type has a default built from types of `fresh` alone, each entered at most once on
the way down. -/
def isConstructibleWithin (r : Registry) (fresh : List TypeId) (ty : TypeId) : Bool :=
  if _present : ty ∈ fresh then
    let rest := fresh.erase ty
    match r.kind? ty with
    | some .int | some .bool | some .char | some .str | some .unit | some (.pointer _) => true
    | some (.enumeration d) => !d.constants.isEmpty
    | some (.union d) =>
        match d.alternatives with
        | [] => false
        | first :: _ => r.isConstructibleWithin rest first.payload
    | some (.aggregate d) => d.fields.all fun field => r.isConstructibleWithin rest field.ty
    | some (.tuple elements) => elements.all fun element => r.isConstructibleWithin rest element
    | some (.extension _) | some .declared | none => false
  else false
termination_by fresh.length
decreasing_by
  all_goals
    rw [List.length_erase_of_mem _present]
    exact Nat.sub_lt (List.length_pos_of_mem _present) Nat.one_pos

/-- The ids issued so far. -/
def ids (r : Registry) : List TypeId := (List.range r.size).map TypeId.mk

/-- Whether values of a type have a default. -/
def isDefaultConstructible (r : Registry) (ty : TypeId) : Bool :=
  r.isConstructibleWithin r.ids ty

end TaggedMatch.Registry
