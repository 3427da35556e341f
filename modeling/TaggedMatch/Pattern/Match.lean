import TaggedMatch.Host
import TaggedMatch.Pattern.Check
import TaggedMatch.Value.Text

/-!
# Matching a value

A checked pattern is run on a value from the root down and from left to right, and ends with the
bindings it made, without a match, or with an error. A binding is made after the pattern below it
matched; a guard is asked after the pattern it stands on matched, in the scope of all bindings made
so far over the enclosing scope. The first part that does not match ends the run: nothing to the
right of it is looked at, asked or called.

A value that is not of the form that the pattern was checked for is an error and not a failed
match.
-/

namespace TaggedMatch

/-- What a match has bound, in the order the bindings were made. -/
abbrev Bindings := List (Name × Value)

/-- The scope of bindings over an enclosing one; of several bindings of a name the last counts. -/
def Bindings.scope (bindings : Bindings) (outer : Lookup) : Lookup := fun name =>
  (bindings.reverse.lookup name).or (outer name)

/-- The binding made last hides earlier ones of its name. -/
theorem Bindings.scope_append_singleton (bindings : Bindings) (name other : Name) (value : Value)
    (outer : Lookup) :
    Bindings.scope (bindings ++ [(name, value)]) outer other =
      if other = name then some value else bindings.scope outer other := by
  by_cases h : other = name
  · simp [Bindings.scope, h]
  · have hb : (other == name) = false := by simpa using h
    simp [Bindings.scope, List.lookup_cons, h, hb]

/-- The words for the values that a literal is compared with. -/
def LiteralTest.expected : LiteralTest → String
  | .int _ => "an int"
  | .bool _ => "a bool"
  | .char _ => "a char"
  | .constant .. => "an enum constant"

variable {γ σ : Type}

/-- The error of a value that is not of the needed form. -/
def misshapen {α : Type} (expected : String) (got : String) : HostM σ α :=
  throw (.shapeMismatch expected got)

/-- A nominal value has to be of the very type the pattern was checked against. -/
def expectType (ty : TypeId) (typeName : String) (got : TypeId) : HostM σ Unit :=
  if ty = got then pure () else misshapen s!"a value of `{typeName}`" "a value of another type"

/-- Compares a literal with a value. -/
def LiteralTest.run (test : LiteralTest) (value : Value) : HostM σ Bool :=
  match test, value with
  | .int n, .int m => pure (n == m)
  | .bool b, .bool c => pure (b == c)
  | .char c, .char d => pure (c == d)
  | .constant ty typeName index, .constant d actual => do
      expectType ty typeName d.ty
      pure (index == actual)
  | test, value => misshapen test.expected value.kindName

namespace Node

mutual

/-- Runs a pattern on a value, after `bindings` were made. -/
def run (host : Host γ σ) (outer : Lookup) (node : Node γ) (value : Value) (bindings : Bindings) :
    HostM σ (Option Bindings) :=
  match node with
  | .wildcard => pure (some bindings)
  | .literal test => do
      if ← test.run value then pure (some bindings) else pure none
  | .binding name sub => do
      match ← sub.run host outer value bindings with
      | some bindings => pure (some (bindings ++ [(name, value)]))
      | none => pure none
  | .null =>
      match value with
      | .null => pure (some bindings)
      | .pointer _ => pure none
      | other => misshapen "a pointer" other.kindName
  | .deref sub =>
      match value with
      | .pointer pointee => sub.run host outer pointee bindings
      | .null => pure none
      | other => misshapen "a pointer" other.kindName
  | .unionAlternative ty typeName discriminator sub =>
      match value with
      | .union d active payload => do
          expectType ty typeName d.ty
          if active = discriminator then sub.run host outer payload bindings else pure none
      | other => misshapen "a union value" other.kindName
  | .variantAlternative ty typeName discriminator sub =>
      match value with
      | .extension own object => do
          expectType ty typeName own
          if ← host.givesVariant object then
            let active ← host.discriminator object
            if active = discriminator then
              match ← host.alternative object active with
              | some payload => sub.run host outer payload bindings
              | none =>
                  misshapen s!"a payload for discriminator {active} of `{typeName}`" "none"
            else pure none
          else throw (.of (.missingCapability typeName "variant"))
      | other => misshapen "an extension value" other.kindName
  | .tuple items =>
      match value with
      | .tuple values =>
          if values.length = items.length then runItems host outer items values bindings
          else misshapen s!"a tuple of {items.length} elements" s!"a tuple of {values.length}"
      | other => misshapen "a tuple" other.kindName
  | .fields ty typeName slots =>
      match value with
      | .aggregate d values => do
          expectType ty typeName d.ty
          runFields host outer slots values bindings
      | other => misshapen "an aggregate" other.kindName
  | .pieces ty typeName slots =>
      match value with
      | .extension own object => do
          expectType ty typeName own
          if ← host.givesPieces object then runPieces host outer typeName object slots bindings
          else throw (.of (.missingCapability typeName "aggregate"))
      | other => misshapen "an extension value" other.kindName
  | .guarded sub guard => do
      match ← sub.run host outer value bindings with
      | some bindings =>
          if ← host.test guard (bindings.scope outer) then pure (some bindings) else pure none
      | none => pure none

/-- Runs patterns on as many values, from left to right. -/
def runItems (host : Host γ σ) (outer : Lookup) (items : List (Node γ)) (values : List Value)
    (bindings : Bindings) : HostM σ (Option Bindings) :=
  match items, values with
  | item :: items, value :: values => do
      match ← item.run host outer value bindings with
      | some bindings => runItems host outer items values bindings
      | none => pure none
  | _, _ => pure (some bindings)

/-- Runs patterns on the fields they stand for. -/
def runFields (host : Host γ σ) (outer : Lookup) (slots : List (Nat × Node γ))
    (values : List Value) (bindings : Bindings) : HostM σ (Option Bindings) :=
  match slots with
  | [] => pure (some bindings)
  | (index, node) :: slots =>
      match values[index]? with
      | some value => do
          match ← node.run host outer value bindings with
          | some bindings => runFields host outer slots values bindings
          | none => pure none
      | none => misshapen s!"field #{index}" "an aggregate without it"

/-- Runs patterns on the pieces they stand for, each taken from the object when its turn comes. -/
def runPieces (host : Host γ σ) (outer : Lookup) (typeName : String) (object : ObjectId)
    (slots : List (Nat × Node γ)) (bindings : Bindings) : HostM σ (Option Bindings) :=
  match slots with
  | [] => pure (some bindings)
  | (index, node) :: slots => do
      match ← host.piece object index with
      | some value =>
          match ← node.run host outer value bindings with
          | some bindings => runPieces host outer typeName object slots bindings
          | none => pure none
      | none => misshapen s!"piece #{index} of `{typeName}`" "none"

end

theorem runItems_wildcards (host : Host γ σ) (outer : Lookup) (n : Nat) (vs : List Value)
    (bindings : Bindings) :
    runItems host outer (List.replicate n .wildcard) vs bindings = pure (some bindings) := by
  induction n generalizing vs with
  | zero => simp only [List.replicate_zero, runItems]
  | succ n ih =>
      cases vs with
      | nil => simp only [List.replicate_succ, runItems]
      | cons v vs =>
          rw [List.replicate_succ, runItems, run, pure_bind]
          exact ih vs

end Node

/-- Matches a value against a checked pattern, in an enclosing scope. -/
def Compiled.run (host : Host γ σ) (pattern : Compiled γ) (value : Value) (outer : Lookup) :
    HostM σ (Option Bindings) :=
  pattern.root.run host outer value []

end TaggedMatch
