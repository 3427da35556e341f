import TaggedMatch.Host

/-!
# Scopes

An environment is a stack of scopes over the scope of globals, which is never taken away. A name is
looked up from the top down, so an inner definition hides the outer ones until its scope is popped.
Assigning changes the definition that looking up would find, if that is mutable, and no other.
-/

namespace TaggedMatch

/-- Whether a definition may be assigned to. -/
inductive Mutability where
  | isMutable
  | isImmutable
deriving DecidableEq, Repr

/-- What a name stands for. -/
structure Definition where
  value : Value
  mutability : Mutability
deriving Repr

/-- Why an assignment is refused. -/
inductive AssignError where
  | immutable
  | undefined
deriving DecidableEq, Repr

/-- The wording of a refusal. -/
def AssignError.message : AssignError → String
  | .immutable => "cannot assign to an immutable binding"
  | .undefined => "cannot assign to an undefined name"

/-- The definitions of one scope, at most one for a name. -/
structure Scope where
  definitions : List (Name × Definition)
deriving Repr

namespace Scope

/-- The scope without definitions. -/
def empty : Scope := ⟨[]⟩

/-- What a name stands for in this scope alone. -/
def find? (s : Scope) (name : Name) : Option Definition := s.definitions.lookup name

/-- Defines a name, in place of what it stood for in this scope. -/
def insert (s : Scope) (name : Name) (d : Definition) : Scope :=
  ⟨(name, d) :: s.definitions.filter (·.1 != name)⟩

/-- Taking one name out of a list of definitions leaves what the others stand for. -/
theorem lookup_filter_ne {definitions : List (Name × Definition)} {name other : Name}
    (h : other ≠ name) :
    (definitions.filter (·.1 != name)).lookup other = definitions.lookup other := by
  induction definitions with
  | nil => rfl
  | cons head rest ih =>
      obtain ⟨n, d⟩ := head
      by_cases hn : n = name
      · have hb : (other == name) = false := by simpa using h
        simp [hn, List.lookup_cons, hb, ih]
      · simp [hn, List.lookup_cons, ih]

/-- What a scope says of a name is what was last defined. -/
theorem find?_insert (s : Scope) (name other : Name) (d : Definition) :
    (s.insert name d).find? other = if other = name then some d else s.find? other := by
  by_cases h : other = name
  · simp [find?, insert, h]
  · have hb : (other == name) = false := by simpa using h
    simp [find?, insert, List.lookup_cons, hb, h, lookup_filter_ne h]

end Scope

/-- A stack of scopes; the globals are apart, so no operation can take them away. -/
structure Environment where
  /-- The scopes above the globals, the current one first. -/
  locals : List Scope
  globals : Scope
deriving Repr

namespace Environment

/-- The environment without definitions. -/
def initial : Environment := ⟨[], Scope.empty⟩

/-- All scopes, the current one first. -/
def scopes (env : Environment) : List Scope := env.locals ++ [env.globals]

/-- The number of scopes, the globals included. -/
def depth (env : Environment) : Nat := env.locals.length + 1

/-- Puts a scope without definitions on top. -/
def push (env : Environment) : Environment := { env with locals := Scope.empty :: env.locals }

/-- Takes the current scope away; the globals stay. -/
def pop (env : Environment) : Environment := { env with locals := env.locals.tail }

/-- Defines a name in the current scope. -/
def define (env : Environment) (name : Name) (value : Value) (mutability : Mutability) :
    Environment :=
  match env.locals with
  | scope :: rest => { env with locals := scope.insert name ⟨value, mutability⟩ :: rest }
  | [] => { env with globals := env.globals.insert name ⟨value, mutability⟩ }

/-- Defines an immutable name in the scope of globals. -/
def defineGlobal (env : Environment) (name : Name) (value : Value) : Environment :=
  { env with globals := env.globals.insert name ⟨value, .isImmutable⟩ }

/-- The nearest definition of a name. -/
def nearest? (env : Environment) (name : Name) : Option Definition :=
  env.scopes.findSome? (·.find? name)

/-- The value of a name. -/
def lookup (env : Environment) : Lookup := fun name => (env.nearest? name).map (·.value)

/-- Redefines a name in the first scope that defines it, in the globals if no other does. -/
def redefine (name : Name) (d : Definition) : List Scope → Scope → Environment
  | [], globals => ⟨[], globals.insert name d⟩
  | scope :: rest, globals =>
      if (scope.find? name).isSome then ⟨scope.insert name d :: rest, globals⟩
      else
        let below := redefine name d rest globals
        { below with locals := scope :: below.locals }

/-- Gives the nearest definition of a name another value. -/
def assign (env : Environment) (name : Name) (value : Value) : Except AssignError Environment :=
  match env.nearest? name with
  | none => .error .undefined
  | some d =>
      match d.mutability with
      | .isImmutable => .error .immutable
      | .isMutable => .ok (redefine name { d with value } env.locals env.globals)

/-! ## What the operations do to looking up -/

/-- A new scope hides nothing. -/
@[simp] theorem lookup_push (env : Environment) : env.push.lookup = env.lookup := rfl

/-- Popping undoes pushing. -/
@[simp] theorem pop_push (env : Environment) : env.push.pop = env := rfl

@[simp] theorem depth_push (env : Environment) : env.push.depth = env.depth + 1 := rfl

/-- A definition in the current scope is the nearest one of its name. -/
theorem nearest?_define (env : Environment) (name other : Name) (value : Value)
    (mutability : Mutability) :
    (env.define name value mutability).nearest? other =
      if other = name then some ⟨value, mutability⟩ else env.nearest? other := by
  obtain ⟨locals, globals⟩ := env
  cases locals with
  | nil => simp [define, nearest?, scopes, Scope.find?_insert]
  | cons scope rest =>
      by_cases h : other = name
      · simp [define, nearest?, scopes, Scope.find?_insert, h]
      · simp [define, nearest?, scopes, Scope.find?_insert, List.findSome?_cons, h]

@[simp] theorem depth_define (env : Environment) (name : Name) (value : Value)
    (mutability : Mutability) : (env.define name value mutability).depth = env.depth := by
  obtain ⟨locals, globals⟩ := env
  cases locals <;> rfl

/-- A short text of an environment for traces. -/
def summary (env : Environment) : String :=
  "Environment \x7b depth: " ++ toString env.depth ++ ", .. \x7d"

end Environment

end TaggedMatch
