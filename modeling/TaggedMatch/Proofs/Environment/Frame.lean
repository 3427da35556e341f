import TaggedMatch.Proofs.Environment.Bindings

/-!
# What is left of the scopes below

Code that runs in a scope of its own can reach the scopes below in two ways only: by assigning to a
definition that is there, and by defining a global. `Write` has the two, and says in which scope, so
that what a name stands for afterwards can be read off what it stood for before and the writes that
were made (`Write.settle`). A `Frame` says this of all scopes up to some height.

Scopes are counted from below. The scope with the number `level` has so many scopes under it, and
keeps its number while others come and go on top of it.
-/

namespace TaggedMatch

namespace Scope

/-- What a name stands for in the scope that has `level` others below it. -/
def definitionAt : List Scope → Nat → Name → Option Definition
  | [], _, _ => none
  | scope :: rest, level, name =>
      if level = rest.length then scope.find? name else definitionAt rest level name

/-- The level of the first scope from the top that defines a name, of the lowest if none does. -/
def levelOf : List Scope → Name → Nat
  | [], _ => 0
  | scope :: rest, name => if (scope.find? name).isSome then rest.length else levelOf rest name

theorem definitionAt_of_le {scopes : List Scope} {level : Nat} (h : scopes.length ≤ level)
    (name : Name) : definitionAt scopes level name = none := by
  induction scopes with
  | nil => rfl
  | cons scope rest ih =>
      rw [List.length_cons] at h
      rw [definitionAt, if_neg (by omega), ih (by omega)]

theorem levelOf_lt {scopes : List Scope} (h : scopes ≠ []) (name : Name) :
    levelOf scopes name < scopes.length := by
  induction scopes with
  | nil => exact absurd rfl h
  | cons scope rest ih =>
      rw [levelOf, List.length_cons]
      split
      · omega
      · cases rest with
        | nil => simp [levelOf]
        | cons below rest =>
            have := ih (by simp)
            omega

/-- The nearest definition is the one at the level of the name. -/
theorem findSome?_eq_definitionAt (scopes : List Scope) (name : Name) :
    scopes.findSome? (·.find? name) = definitionAt scopes (levelOf scopes name) name := by
  induction scopes with
  | nil => rfl
  | cons scope rest ih =>
      rw [List.findSome?_cons, levelOf, definitionAt]
      cases hscope : scope.find? name with
      | some d => simp
      | none =>
          simp only [Option.isSome_none, Bool.false_eq_true, ↓reduceIte]
          rw [ih]
          split
          · next hlevel =>
              rw [hlevel, definitionAt_of_le (Nat.le_refl _)]
          · rfl

end Scope

namespace Environment

/-- What a name stands for in the scope with this number. -/
def definition? (env : Environment) (level : Nat) (name : Name) : Option Definition :=
  Scope.definitionAt env.scopes level name

/-- The number of the scope that looking a name up ends in. -/
def levelOf (env : Environment) (name : Name) : Nat := Scope.levelOf env.scopes name

theorem length_scopes (env : Environment) : env.scopes.length = env.depth := by
  simp [scopes, depth]

/-- A change that reaches below the current scope. -/
inductive Write where
  /-- A definition was given another value. -/
  | assigned (level : Nat) (name : Name) (value : Value)
  /-- A name was defined in the globals. -/
  | global (name : Name) (value : Value)

/-- What a name stands for in a scope after a write, if it stood for `d` before. Only a definition
that is mutable is given another value. -/
def Write.settle (level : Nat) (name : Name) (d : Option Definition) : Write → Option Definition
  | .assigned there other value =>
      if there = level ∧ other = name then
        match d with
        | some ⟨_, .isMutable⟩ => some ⟨value, .isMutable⟩
        | other => other
      else d
  | .global other value => if level = 0 ∧ other = name then some ⟨value, .isImmutable⟩ else d

/-- `Frame height env writes env'`: there are as many scopes in `env'` as in `env`, and those below
the height hold what they held, but for the writes. -/
structure Frame (height : Nat) (env : Environment) (writes : List Write) (env' : Environment) :
    Prop where
  depth : env'.depth = env.depth
  kept : ∀ level < height, ∀ name, env'.definition? level name =
    writes.foldl (Write.settle level name) (env.definition? level name)

variable {height : Nat} {env env' env'' : Environment} {writes writes' : List Write}

theorem Frame.refl (height : Nat) (env : Environment) : Frame height env [] env :=
  ⟨rfl, fun _ _ _ => rfl⟩

theorem Frame.trans (h : Frame height env writes env') (h' : Frame height env' writes' env'') :
    Frame height env (writes ++ writes') env'' := by
  refine ⟨h'.depth.trans h.depth, fun level hlevel name => ?_⟩
  rw [h'.kept level hlevel name, h.kept level hlevel name, List.foldl_append]

theorem Frame.mono {height' : Nat} (h : Frame height env writes env') (hle : height' ≤ height) :
    Frame height' env writes env' :=
  ⟨h.depth, fun level hlevel => h.kept level (Nat.lt_of_lt_of_le hlevel hle)⟩

/-! ## The operations -/

/-- A definition is made in the current scope and in no other. -/
theorem definition?_define (env : Environment) (level : Nat) (name other : Name) (value : Value)
    (mutability : Mutability) :
    (env.define name value mutability).definition? level other =
      if level + 1 = env.depth ∧ name = other then some ⟨value, mutability⟩
      else env.definition? level other := by
  obtain ⟨locals, globals⟩ := env
  cases locals with
  | nil =>
      simp only [definition?, scopes, define, List.nil_append, Scope.definitionAt, depth,
        List.length_nil, Scope.find?_insert]
      by_cases hlevel : level = 0
      · simp [hlevel, eq_comm]
      · simp [hlevel]
  | cons scope rest =>
      have hlength : (rest ++ [globals]).length = rest.length + 1 := by simp
      simp only [definition?, scopes, define, List.cons_append, Scope.definitionAt, depth,
        List.length_cons, Scope.find?_insert, hlength, Nat.add_right_cancel_iff]
      by_cases hlevel : level = rest.length + 1
      · simp [hlevel, eq_comm]
      · simp [hlevel]

theorem frame_define (env : Environment) (name : Name) (value : Value) (mutability : Mutability) :
    Frame (env.depth - 1) env [] (env.define name value mutability) := by
  refine ⟨depth_define env name value mutability, fun level hlevel other => ?_⟩
  have hbelow : level + 1 ≠ env.depth := by omega
  rw [definition?_define, if_neg fun h => hbelow h.1]
  rfl

theorem definitionAt_zero (locals : List Scope) (globals : Scope) (name : Name) :
    Scope.definitionAt (locals ++ [globals]) 0 name = globals.find? name := by
  induction locals with
  | nil => rfl
  | cons scope rest ih =>
      rw [List.cons_append, Scope.definitionAt, if_neg (by simp), ih]

theorem definitionAt_succ (locals : List Scope) (globals globals' : Scope) (level : Nat)
    (name : Name) : Scope.definitionAt (locals ++ [globals]) (level + 1) name =
      Scope.definitionAt (locals ++ [globals']) (level + 1) name := by
  induction locals with
  | nil => rfl
  | cons scope rest ih =>
      simp only [List.cons_append, Scope.definitionAt, List.length_append, List.length_singleton,
        ih]

theorem frame_defineGlobal (height : Nat) (env : Environment) (name : Name) (value : Value) :
    Frame height env [.global name value] (env.defineGlobal name value) := by
  refine ⟨rfl, fun level _ other => ?_⟩
  simp only [definition?, scopes, defineGlobal, List.foldl_cons, List.foldl_nil, Write.settle]
  cases level with
  | zero =>
      rw [definitionAt_zero, definitionAt_zero, Scope.find?_insert]
      by_cases hname : other = name
      · simp [hname]
      · simp [hname, Ne.symm hname]
  | succ level =>
      rw [if_neg (by simp)]
      exact definitionAt_succ ..

theorem depth_redefine (name : Name) (d : Definition) (locals : List Scope) (globals : Scope) :
    (redefine name d locals globals).depth = locals.length + 1 := by
  induction locals with
  | nil => rfl
  | cons scope rest ih =>
      rw [redefine]
      split
      · rfl
      · simp only [depth, List.length_cons] at ih ⊢
        omega

theorem definition?_redefine (name other : Name) (d : Definition) (locals : List Scope)
    (globals : Scope) (level : Nat) :
    (redefine name d locals globals).definition? level other =
      if level = Scope.levelOf (locals ++ [globals]) name ∧ other = name then some d
      else Scope.definitionAt (locals ++ [globals]) level other := by
  induction locals with
  | nil =>
      have hlevel : Scope.levelOf [globals] name = 0 := by simp [Scope.levelOf]
      simp only [redefine, definition?, scopes, List.nil_append, Scope.definitionAt, hlevel,
        List.length_nil, Scope.find?_insert]
      by_cases hzero : level = 0
      · simp [hzero]
      · simp [hzero]
  | cons scope rest ih =>
      have hlength : (redefine name d rest globals).scopes.length = (rest ++ [globals]).length := by
        rw [length_scopes, depth_redefine, List.length_append, List.length_singleton]
      rw [redefine, List.cons_append, Scope.levelOf, Scope.definitionAt]
      split
      · -- The current scope defines the name.
        simp only [definition?, scopes, List.cons_append, Scope.definitionAt, Scope.find?_insert]
        by_cases hlevel : level = (rest ++ [globals]).length
        · simp [hlevel]
        · rw [if_neg hlevel, if_neg fun h => hlevel h.1, if_neg hlevel]
      · have hlt : Scope.levelOf (rest ++ [globals]) name < (rest ++ [globals]).length :=
          Scope.levelOf_lt (by simp) name
        have hscopes : scopes { redefine name d rest globals with
            locals := scope :: (redefine name d rest globals).locals } =
              scope :: (redefine name d rest globals).scopes := rfl
        simp only [definition?, hscopes, Scope.definitionAt, hlength]
        by_cases hlevel : level = (rest ++ [globals]).length
        · rw [if_pos hlevel, if_neg (by omega), if_pos hlevel]
        · rw [if_neg hlevel, if_neg hlevel]
          exact ih

/-- Assigning changes one definition, and that one has to be mutable. -/
theorem frame_assign (height : Nat) {env₁ : Environment} {name : Name} {value : Value}
    (h : env.assign name value = .ok env₁) :
    Frame height env [.assigned (env.levelOf name) name value] env₁ := by
  have hnearest : env.nearest? name = env.definition? (env.levelOf name) name :=
    Scope.findSome?_eq_definitionAt env.scopes name
  rw [assign, hnearest] at h
  split at h
  · cases h
  · next d hd =>
      split at h
      · cases h
      · next hmutable =>
          cases h
          refine ⟨depth_redefine .., fun level _ other => ?_⟩
          rw [definition?_redefine]
          simp only [List.foldl_cons, List.foldl_nil, Write.settle]
          by_cases hwritten : env.levelOf name = level ∧ name = other
          · obtain ⟨rfl, rfl⟩ := hwritten
            obtain ⟨old, mutability⟩ := d
            dsimp only at hmutable
            rw [if_pos ⟨rfl, rfl⟩, if_pos ⟨rfl, rfl⟩, hd, hmutable]
          · rw [if_neg hwritten, if_neg fun h => hwritten ⟨h.1.symm, h.2.symm⟩]
            rfl

theorem definition?_of_le {level : Nat} (h : env.depth ≤ level) (name : Name) :
    env.definition? level name = none :=
  Scope.definitionAt_of_le (by rwa [length_scopes]) name

/-- A new scope defines nothing. -/
theorem definition?_push (env : Environment) (level : Nat) (name : Name) :
    env.push.definition? level name = env.definition? level name := by
  have hscopes : env.push.scopes = Scope.empty :: env.scopes := rfl
  rw [definition?, hscopes, Scope.definitionAt, length_scopes]
  split
  · next hlevel =>
      rw [definition?_of_le (Nat.le_of_eq hlevel.symm)]
      rfl
  · rfl

theorem depth_pop (h : env.depth ≠ 1) : env.pop.depth = env.depth - 1 := by
  simp only [depth, pop, List.length_tail] at h ⊢
  omega

theorem definition?_pop {level : Nat} (h : level + 1 < env.depth) (name : Name) :
    env.pop.definition? level name = env.definition? level name := by
  obtain ⟨locals, globals⟩ := env
  cases locals with
  | nil => exact absurd h (by simp [depth])
  | cons scope rest =>
      have hne : level ≠ (rest ++ [globals]).length := by
        simp only [depth, List.length_cons, List.length_append] at h ⊢
        omega
      rw [definition?, definition?, scopes, scopes, List.cons_append, Scope.definitionAt,
        if_neg hne]
      rfl

/-- What is done in a scope that is pushed and popped is, for the scopes below, nothing but its
writes. -/
theorem Frame.scoped (h : Frame env.depth env.push writes env') :
    Frame env.depth env writes env'.pop := by
  have hdepth : env'.depth = env.depth + 1 := h.depth
  have hpos : 0 < env.depth := Nat.succ_pos _
  have hmore : env'.depth ≠ 1 := by omega
  refine ⟨by rw [depth_pop hmore, hdepth, Nat.add_sub_cancel], fun level hlevel name => ?_⟩
  rw [definition?_pop (by omega), h.kept level hlevel, definition?_push]

/-- Bindings are defined in the new scope. -/
theorem frame_within (env : Environment) (bindings : Bindings) :
    Frame env.depth env.push [] (env.within bindings) := by
  induction bindings using List.reverseRecOn with
  | nil => exact .refl env.depth env.push
  | append_singleton bindings binding ih =>
      obtain ⟨name, value⟩ := binding
      have hdefine := frame_define (env.within bindings) name value .isImmutable
      rw [ih.depth] at hdefine
      rw [within, List.foldl_append]
      exact ih.trans hdefine

end Environment

end TaggedMatch
