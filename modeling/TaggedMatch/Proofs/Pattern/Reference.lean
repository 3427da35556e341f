import TaggedMatch.Pattern.Match
import TaggedMatch.Proofs.Host.Recording
import TaggedMatch.Proofs.Pattern.Legal

/-!
# What a pattern means

A pattern can be run as it is written, without a check and without positions. `Pattern.interpret`
does so: an alternative is the active one if its name is the selector, a constant is meant if its name
is the one written, and a field pattern goes through the parts that the value has, in the order of
their declaration, and looks for each part's label among its entries. What was declared is read off
the value itself; for an extension value, which has nothing but a type, it is looked up.

A pattern is interpreted as a matcher, and the matchers of the parts are put together. A value that a
pattern is not for does not match it.
-/

namespace TaggedMatch

variable {γ σ : Type}

/-- What a pattern does to a value, after some bindings were made. -/
abbrev Matcher (σ : Type) := Value → Bindings → HostM σ (Option Bindings)

/-- A part that is to be matched: how it is got at, and what it is matched against. -/
structure Visit (σ : Type) where
  get : HostM σ (Option Value)
  matcher : Matcher σ

/-- Visits one after the other, up to the first that fails. -/
def Visit.all : List (Visit σ) → Bindings → HostM σ (Option Bindings)
  | [], bindings => pure (some bindings)
  | visit :: visits, bindings => do
      match ← visit.get with
      | some value =>
          match ← visit.matcher value bindings with
          | some bindings => Visit.all visits bindings
          | none => pure none
      | none => pure none

/-- Whether a value is the one that a literal denotes. -/
def Literal.denotes : Literal → Value → Bool
  | .int n, .int m => n == m
  | .bool b, .bool c => b == c
  | .char c, .char d => c == d
  | .constant name, .constant d index => d.constantName index == name
  | _, _ => false

namespace Value

/-- Whether the parts of a value can be had. An object has to be asked. -/
def opens (host : Host γ σ) : Value → HostM σ Bool
  | .tuple _ | .aggregate .. => pure true
  | .extension _ object => host.givesPieces object
  | _ => pure false

/-- The parts of a value in the order of declaration, each with its label and how it is got at. -/
def places (r : Registry) (host : Host γ σ) : Value → List (Option Name × HostM σ (Option Value))
  | .tuple items => items.map fun v => (none, pure (some v))
  | .aggregate d values => List.zipWith (fun f v => (some f.name, pure (some v))) d.fields values
  | .extension ty object =>
      match (r.extension? ty).bind (·.aggregate) with
      | some shape =>
          shape.pieces.zipIdx.map fun (part, index) => (part.label, host.piece object index)
      | none => []
  | _ => []

/-- The payload of the alternative with this name, if it is the active one. -/
def payloadUnder (r : Registry) (host : Host γ σ) (selector : Name) :
    Value → HostM σ (Option Value)
  | .union d discriminator payload =>
      pure (if d.alternativeName discriminator = selector then some payload else none)
  | .extension ty object => do
      if ← host.givesVariant object then
        let active ← host.discriminator object
        let declared := ((r.extension? ty).bind (·.variant)).bind fun shape =>
          shape.alternatives.find? (·.discriminator == active)
        if declared.map (·.selector) = some selector then host.alternative object active
        else pure none
      else pure none
  | _ => pure none

end Value

namespace Pattern

mutual

/-- The pattern as it is written, run on a value. -/
def interpret (r : Registry) (host : Host γ σ) (outer : Lookup) : Pattern γ → Matcher σ
  | .wildcard _ => fun _ bindings => pure (some bindings)
  | .literal _ value => fun v bindings =>
      pure (if value.denotes v then some bindings else none)
  | .binding _ name sub => fun v bindings => do
      match ← sub.interpret r host outer v bindings with
      | some bindings => pure (some (bindings ++ [(name, v)]))
      | none => pure none
  | .null _ => fun v bindings => pure (if v.isNull then some bindings else none)
  | .deref _ sub => fun v bindings =>
      Visit.all [⟨pure v.pointee?, sub.interpret r host outer⟩] bindings
  | .alternative _ selector payload => fun v bindings =>
      Visit.all [⟨v.payloadUnder r host selector, payload.interpret r host outer⟩] bindings
  | .sequence _ items => fun v bindings => do
      if ← v.opens host then
        Visit.all (List.zipWith (fun place matcher => ⟨place.2, matcher⟩) (v.places r host)
          (interpretItems r host outer items)) bindings
      else pure none
  | .fields _ entries => fun v bindings => do
      let named := interpretEntries r host outer entries
      if ← v.opens host then
        Visit.all ((v.places r host).filterMap fun (label, get) =>
          (label.bind fun name => named.lookup name).map fun matcher => ⟨get, matcher⟩) bindings
      else pure none
  | .guarded _ sub guard => fun v bindings => do
      match ← sub.interpret r host outer v bindings with
      | some bindings =>
          if ← host.test guard (bindings.scope outer) then pure (some bindings) else pure none
      | none => pure none

/-- The matchers of items, in order. -/
def interpretItems (r : Registry) (host : Host γ σ) (outer : Lookup) :
    List (Pattern γ) → List (Matcher σ)
  | [] => []
  | p :: ps => p.interpret r host outer :: interpretItems r host outer ps

/-- The matchers of entries, by name. -/
def interpretEntries (r : Registry) (host : Host γ σ) (outer : Lookup) :
    List (FieldEntry (Pattern γ)) → List (Name × Matcher σ)
  | [] => []
  | e :: es => (e.name, e.pattern.interpret r host outer) :: interpretEntries r host outer es

end

/-- The calls that the interpretation of a pattern makes, in order. -/
def interpretedCalls (r : Registry) (host : Host γ σ) (outer : Lookup) (p : Pattern γ) (v : Value)
    (s : σ) : List (Call γ) :=
  ((p.interpret r host.recorded outer v []).run (s, [])).2.2

variable (r : Registry) (host : Host γ σ) (outer : Lookup)

theorem interpretItems_eq (items : List (Pattern γ)) :
    interpretItems r host outer items = items.map (·.interpret r host outer) := by
  induction items with
  | nil => rfl
  | cons p ps ih => rw [interpretItems, ih, List.map_cons]

theorem interpretEntries_eq (entries : List (FieldEntry (Pattern γ))) :
    interpretEntries r host outer entries =
      entries.map fun e => (e.name, e.pattern.interpret r host outer) := by
  induction entries with
  | nil => rfl
  | cons e es ih => rw [interpretEntries, ih, List.map_cons]

end Pattern

end TaggedMatch
