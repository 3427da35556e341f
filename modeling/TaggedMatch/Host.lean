import TaggedMatch.EvalError
import TaggedMatch.Value.Basic

/-!
# The surrounding program

Matching meets code that is not part of it: guards, and the objects behind values of extension
types. A `Host` is that code. It works on a state `σ` of its own, so an object may answer
differently from call to call and a guard may leave traces; `γ` is what the program writes guards
in. Only a guard can fail. An object that has no answer says so.
-/

namespace TaggedMatch

/-- The values of the names in scope. -/
abbrev Lookup := Name → Option Value

/-- The scope in which no name has a value. -/
def Lookup.empty : Lookup := fun _ => none

/-- A computation of the surrounding program. What it did to the state stays done if it fails. -/
abbrev HostM (σ : Type) := ExceptT EvalError (StateM σ)

/-- The guards and objects of a program, on its state. -/
structure Host (γ σ : Type) where
  /-- Whether a guard holds in a scope. -/
  test : γ → Lookup → HostM σ Bool
  /-- Whether an object gives out pieces. -/
  givesPieces : ObjectId → StateM σ Bool
  /-- The piece of an object at a position. -/
  piece : ObjectId → Nat → StateM σ (Option Value)
  /-- Whether an object reports alternatives. -/
  givesVariant : ObjectId → StateM σ Bool
  /-- The discriminator of the alternative that is active in an object. -/
  discriminator : ObjectId → StateM σ Int64
  /-- The payload of an object under a discriminator. -/
  alternative : ObjectId → Int64 → StateM σ (Option Value)

end TaggedMatch
