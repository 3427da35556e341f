import TaggedMatch.Proofs.Environment.Frame

/-!
# Operations on scopes

A program works on an environment by five operations, in any order. How many scopes there are goes by
the operations alone (`depth_run`), and so does the least number that there were on the way
(`lowest`). It parts the scopes at the end in two: those with a lower number have been there all the
time, and what a name stands for in them can be read off the operations (`definition?_run`); the others
are new, and hold nothing but what the operations put there (`definition?_run_untouched`).

So a name that is in none of the operations stands for what it would stand for if all scopes down to the
least number had been popped and nothing else had been done (`lookup_run`).
-/

namespace TaggedMatch

namespace Scope

/-- The nearest definition is the one with no other above it. -/
theorem findSome?_eq_some_iff {scopes : List Scope} {name : Name} {d : Definition} :
    scopes.findSome? (·.find? name) = some d ↔ ∃ level, definitionAt scopes level name = some d ∧
      ∀ higher, level < higher → definitionAt scopes higher name = none := by
  induction scopes with
  | nil => simp [definitionAt]
  | cons scope rest ih =>
      rw [List.findSome?_cons]
      cases hscope : scope.find? name with
      | none =>
          have hrest (level : Nat) :
              definitionAt (scope :: rest) level name = definitionAt rest level name := by
            rw [definitionAt]
            split
            · next hlevel => rw [hscope, hlevel, definitionAt_of_le (Nat.le_refl _)]
            · rfl
          simp only [hrest]
          exact ih
      | some top =>
          have htop : definitionAt (scope :: rest) rest.length name = some top := by
            rw [definitionAt, if_pos rfl, hscope]
          constructor
          · rintro ⟨⟩
            exact ⟨rest.length, htop, fun higher h => definitionAt_of_le h name⟩
          · rintro ⟨level, hlevel, habove⟩
            rcases Nat.lt_trichotomy level rest.length with hlt | rfl | hgt
            · cases htop.symm.trans (habove rest.length hlt)
            · exact htop.symm.trans hlevel
            · cases hlevel.symm.trans (definitionAt_of_le hgt name)

end Scope

namespace Environment

variable {env env' : Environment} {level : Nat} {name : Name}

/-- Where a name stands for the same in every scope, it stands for the same. -/
theorem lookup_congr (h : ∀ level, env.definition? level name = env'.definition? level name) :
    env.lookup name = env'.lookup name := by
  have hnearest : env.nearest? name = env'.nearest? name := by
    ext d
    simp only [nearest?, Scope.findSome?_eq_some_iff]
    simp only [definition?] at h
    simp only [h]
  rw [lookup, lookup, hnearest]

theorem depth_pos (env : Environment) : 0 < env.depth := Nat.succ_pos _

/-! ## The operations -/

/-- What a program can do to the scopes. -/
inductive Operation where
  | push
  | pop
  | define (name : Name) (value : Value) (mutability : Mutability)
  | defineGlobal (name : Name) (value : Value)
  | assign (name : Name) (value : Value)

/-- The environment after an operation; an assignment that is refused leaves it as it was. -/
def apply (env : Environment) : Operation → Environment
  | .push => env.push
  | .pop => env.pop
  | .define name value mutability => env.define name value mutability
  | .defineGlobal name value => env.defineGlobal name value
  | .assign name value =>
      match env.assign name value with
      | .ok assigned => assigned
      | .error _ => env

/-- The environment after operations, the first of the list first. -/
def run (env : Environment) (operations : List Operation) : Environment :=
  operations.foldl apply env

namespace Operation

/-- The number of scopes after an operation, if there were `depth` before. -/
def depthAfter (depth : Nat) : Operation → Nat
  | .push => depth + 1
  | .pop => max 1 (depth - 1)
  | .define .. | .defineGlobal .. | .assign .. => depth

/-- The name that an operation is about. -/
def target? : Operation → Option Name
  | .push | .pop => none
  | .define name _ _ | .defineGlobal name _ | .assign name _ => some name

/-- What a name stands for in a scope after an operation on `env` that leaves the scope, if it stood
for `d` before. -/
def settle (env : Environment) (level : Nat) (name : Name) (d : Option Definition) :
    Operation → Option Definition
  | .push | .pop => d
  | .define other value mutability =>
      if level + 1 = env.depth ∧ other = name then some ⟨value, mutability⟩ else d
  | .defineGlobal other value => Write.settle level name d (.global other value)
  | .assign other value =>
      match env.assign other value with
      | .ok _ => Write.settle level name d (.assigned (env.levelOf other) other value)
      | .error _ => d

theorem settle_untouched {operation : Operation} (h : operation.target? ≠ some name)
    (env : Environment) (level : Nat) (d : Option Definition) :
    operation.settle env level name d = d := by
  cases operation with
  | push | pop => rfl
  | define other value mutability =>
      have hne : other ≠ name := by simpa [target?] using h
      exact if_neg fun h => hne h.2
  | defineGlobal other value =>
      have hne : other ≠ name := by simpa [target?] using h
      exact if_neg fun h => hne h.2
  | assign other value =>
      have hne : other ≠ name := by simpa [target?] using h
      rw [settle]
      split
      · exact if_neg fun h => hne h.2
      · rfl

end Operation

/-! ## What one operation does -/

theorem depth_apply (env : Environment) (operation : Operation) :
    (env.apply operation).depth = operation.depthAfter env.depth := by
  cases operation with
  | push => rfl
  | pop =>
      simp only [apply, pop, depth, Operation.depthAfter, List.length_tail]
      omega
  | define name value mutability => exact depth_define env name value mutability
  | defineGlobal name value => rfl
  | assign name value =>
      rw [apply]
      split
      · next haccepted => exact (frame_assign 0 haccepted).depth
      · rfl

/-- A scope that is still there holds what it held, but for the operation; the others are new. -/
theorem definition?_apply (env : Environment) (operation : Operation) (level : Nat) (name : Name) :
    (env.apply operation).definition? level name =
      if level < operation.depthAfter env.depth then
        operation.settle env level name (env.definition? level name)
      else none := by
  split
  · next hlevel =>
      cases operation with
      | push => exact definition?_push env level name
      | pop =>
          by_cases hglobal : env.depth = 1
          · obtain ⟨locals, globals⟩ := env
            obtain rfl : locals = [] := by simpa [depth] using hglobal
            rfl
          · have hlt : level + 1 < env.depth := by
              have := env.depth_pos
              simp only [Operation.depthAfter] at hlevel
              omega
            exact definition?_pop hlt name
      | define other value mutability => exact definition?_define ..
      | defineGlobal other value =>
          exact (frame_defineGlobal (level + 1) env other value).kept level (Nat.lt_succ_self _) name
      | assign other value =>
          rw [apply, Operation.settle]
          split
          · next haccepted =>
              exact (frame_assign (level + 1) haccepted).kept level (Nat.lt_succ_self _) name
          · rfl
  · next hlevel =>
      rw [← depth_apply] at hlevel
      exact definition?_of_le (Nat.le_of_not_lt hlevel) name

/-! ## What many do -/

/-- The number of scopes after operations, of `depth` before. -/
def depthAfter (depth : Nat) (operations : List Operation) : Nat :=
  operations.foldl Operation.depthAfter depth

/-- The least number of scopes there are on the way, the start and the end included. -/
def lowest (depth : Nat) : List Operation → Nat
  | [] => depth
  | operation :: rest => min depth (lowest (operation.depthAfter depth) rest)

/-- What a name stands for after operations in a scope that was there all the time. -/
def settled (env : Environment) (level : Nat) (name : Name) (d : Option Definition) :
    List Operation → Option Definition
  | [] => d
  | operation :: rest =>
      settled (env.apply operation) level name (operation.settle env level name d) rest

theorem depth_run (env : Environment) (operations : List Operation) :
    (env.run operations).depth = depthAfter env.depth operations := by
  induction operations generalizing env with
  | nil => rfl
  | cons operation rest ih =>
      have hrun : env.run (operation :: rest) = (env.apply operation).run rest := rfl
      rw [hrun, ih, depth_apply]
      rfl

theorem lowest_le (depth : Nat) (operations : List Operation) : lowest depth operations ≤ depth := by
  cases operations with
  | nil => exact Nat.le_refl _
  | cons operation rest => exact Nat.min_le_left ..

theorem lowest_append (depth : Nat) (operations more : List Operation) :
    lowest depth (operations ++ more) =
      min (lowest depth operations) (lowest (depthAfter depth operations) more) := by
  induction operations generalizing depth with
  | nil => exact (Nat.min_eq_right (lowest_le depth more)).symm
  | cons operation rest ih =>
      rw [List.cons_append, lowest, lowest, ih, Nat.min_assoc]
      rfl

/-- The globals are never popped. -/
theorem lowest_pos {depth : Nat} (h : 0 < depth) (operations : List Operation) :
    0 < lowest depth operations := by
  induction operations generalizing depth with
  | nil => exact h
  | cons operation rest ih =>
      have hafter : 0 < operation.depthAfter depth := by
        cases operation with
        | push => exact Nat.succ_pos _
        | pop => exact Nat.lt_of_lt_of_le Nat.one_pos (Nat.le_max_left ..)
        | define | defineGlobal | assign => exact h
      exact Nat.lt_min.mpr ⟨h, ih hafter⟩

theorem settled_append (env : Environment) (level : Nat) (name : Name) (d : Option Definition)
    (operations more : List Operation) :
    settled env level name d (operations ++ more) =
      settled (env.run operations) level name (settled env level name d operations) more := by
  induction operations generalizing env d with
  | nil => rfl
  | cons operation rest ih => exact ih ..

/-- In a scope that was there all the time, a name stands for what the operations made of it. -/
theorem definition?_run {operations : List Operation} (h : level < lowest env.depth operations) :
    (env.run operations).definition? level name =
      settled env level name (env.definition? level name) operations := by
  induction operations generalizing env with
  | nil => rfl
  | cons operation rest ih =>
      have hrun : env.run (operation :: rest) = (env.apply operation).run rest := rfl
      have hrest : level < lowest (operation.depthAfter env.depth) rest :=
        Nat.lt_of_lt_of_le h (Nat.min_le_right ..)
      have hafter : level < operation.depthAfter env.depth :=
        Nat.lt_of_lt_of_le hrest (lowest_le ..)
      rw [hrun, ih (by rwa [depth_apply]), definition?_apply, if_pos hafter, settled]

/-- A name that no operation is about is left in the scopes that were there all the time, and is in no
other. -/
theorem definition?_run_untouched {operations : List Operation}
    (h : name ∉ operations.filterMap Operation.target?) (level : Nat) :
    (env.run operations).definition? level name =
      if level < lowest env.depth operations then env.definition? level name else none := by
  induction operations generalizing env with
  | nil =>
      split
      · rfl
      · next hlevel => exact definition?_of_le (Nat.le_of_not_lt hlevel) name
  | cons operation rest ih =>
      have hrun : env.run (operation :: rest) = (env.apply operation).run rest := rfl
      have htarget : operation.target? ≠ some name := fun heq => h (by simp [heq])
      have hrest : name ∉ rest.filterMap Operation.target? := fun hmem =>
        h (((List.sublist_cons_self ..).filterMap _).subset hmem)
      rw [hrun, ih hrest, definition?_apply, Operation.settle_untouched htarget, depth_apply, lowest]
      have hle := lowest_le (operation.depthAfter env.depth) rest
      by_cases hlevel : level < lowest (operation.depthAfter env.depth) rest
      · rw [if_pos hlevel, if_pos (Nat.lt_of_lt_of_le hlevel hle)]
        by_cases hdepth : level < env.depth
        · rw [if_pos (Nat.lt_min.mpr ⟨hdepth, hlevel⟩)]
        · rw [if_neg fun h => hdepth (Nat.lt_min.mp h).1,
            definition?_of_le (Nat.le_of_not_lt hdepth)]
      · rw [if_neg hlevel, if_neg fun h => hlevel (Nat.lt_min.mp h).2]

/-! ## Popping and nothing else -/

/-- The environment with its uppermost scopes popped. -/
def popped (env : Environment) (count : Nat) : Environment := env.run (List.replicate count .pop)

theorem lowest_pops {depth : Nat} (h : 0 < depth) (count : Nat) :
    lowest depth (List.replicate count .pop) = max 1 (depth - count) := by
  induction count generalizing depth with
  | zero =>
      rw [List.replicate_zero, lowest]
      omega
  | succ count ih =>
      have hafter : 0 < Operation.pop.depthAfter depth :=
        Nat.lt_of_lt_of_le Nat.one_pos (Nat.le_max_left ..)
      rw [List.replicate_succ, lowest, ih hafter, Operation.depthAfter]
      omega

theorem definition?_popped (env : Environment) (count level : Nat) (name : Name) :
    (env.popped count).definition? level name =
      if level < max 1 (env.depth - count) then env.definition? level name else none := by
  have hnone : (List.replicate count Operation.pop).filterMap Operation.target? = [] := by
    simp [List.filterMap_replicate, Operation.target?]
  rw [popped, definition?_run_untouched (by simp [hnone]), lowest_pops env.depth_pos]

/-- A name that no operation is about stands for what it would if scopes had been popped only. -/
theorem lookup_run {operations : List Operation}
    (h : name ∉ operations.filterMap Operation.target?) :
    (env.run operations).lookup name =
      (env.popped (env.depth - lowest env.depth operations)).lookup name := by
  refine lookup_congr fun level => ?_
  have hle := lowest_le env.depth operations
  have hpos := lowest_pos env.depth_pos operations
  have hlowest : max 1 (env.depth - (env.depth - lowest env.depth operations)) =
      lowest env.depth operations := by omega
  rw [definition?_run_untouched h, definition?_popped, hlowest]

end Environment

end TaggedMatch
