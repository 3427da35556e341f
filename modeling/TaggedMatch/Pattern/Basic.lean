import TaggedMatch.Declaration

/-!
# Patterns

A pattern says what a value has to look like and which of its parts to bind. It is written without
regard to a type: alternatives, constants and fields are given by name, and a check against the
subject's type resolves them. Guards belong to the surrounding program; a pattern only says where
one stands, and `γ` is whatever the program writes guards in.

Every node has a span. The node `x` that binds without asking anything is written as the binding
of `x` to a wildcard.
-/

namespace TaggedMatch

/-- A literal in a pattern. -/
inductive Literal where
  | int (n : Int64)
  | bool (b : Bool)
  | char (c : Char)
  /-- A constant, by its name in the enum of the subject. -/
  | constant (name : Name)
deriving DecidableEq, Repr

/-- The text of a literal where no table of names is at hand. -/
def Literal.text : Literal → String
  | .int n => toString n
  | .bool b => if b then "true" else "false"
  | .char c => "'" ++ c.toString ++ "'"
  | .constant name => name.tag

/-- One entry of a field pattern. -/
structure FieldEntry (π : Type) where
  name : Name
  pattern : π
  span : Span
deriving Repr

/-- A pattern as it is written, names not yet resolved. -/
inductive Pattern (γ : Type) where
  /-- Matches everything. -/
  | wildcard (span : Span)
  | literal (span : Span) (value : Literal)
  /-- Binds what `sub` matches. -/
  | binding (span : Span) (name : Name) (sub : Pattern γ)
  | null (span : Span)
  /-- Matches a pointer that is not null, by what it points to. -/
  | deref (span : Span) (pointee : Pattern γ)
  /-- Matches the alternative of this name, by its payload. -/
  | alternative (span : Span) (selector : Name) (payload : Pattern γ)
  /-- Matches all parts of a product, by position. -/
  | sequence (span : Span) (items : List (Pattern γ))
  /-- Matches some parts of a product, by name. -/
  | fields (span : Span) (entries : List (FieldEntry (Pattern γ)))
  /-- Matches what `sub` matches if the guard then holds. -/
  | guarded (span : Span) (sub : Pattern γ) (guard : γ)
deriving Repr

namespace Pattern

variable {γ : Type}

/-- The place of a pattern. -/
def span : Pattern γ → Span
  | .wildcard s | .literal s _ | .binding s _ _ | .null s | .deref s _ | .alternative s _ _
  | .sequence s _ | .fields s _ | .guarded s _ _ => s

/-- The same pattern at another place. -/
def withSpan (s : Span) : Pattern γ → Pattern γ
  | .wildcard _ => .wildcard s
  | .literal _ value => .literal s value
  | .binding _ name sub => .binding s name sub
  | .null _ => .null s
  | .deref _ pointee => .deref s pointee
  | .alternative _ selector payload => .alternative s selector payload
  | .sequence _ items => .sequence s items
  | .fields _ entries => .fields s entries
  | .guarded _ sub guard => .guarded s sub guard

/-- The pattern that binds every value. -/
def bind (span : Span) (name : Name) : Pattern γ := .binding span name (.wildcard Span.dummy)

/-- A field pattern whose entries stand where their patterns do. -/
def ofFields (span : Span) (entries : List (Name × Pattern γ)) : Pattern γ :=
  .fields span (entries.map fun (name, p) => ⟨name, p, p.span⟩)

/-- A pattern under a guard stands where the pattern does. -/
def guard (p : Pattern γ) (g : γ) : Pattern γ := .guarded p.span p g

@[simp] theorem span_withSpan (s : Span) (p : Pattern γ) : (p.withSpan s).span = s := by
  cases p <;> rfl

end Pattern

end TaggedMatch
