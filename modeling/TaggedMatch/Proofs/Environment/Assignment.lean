import TaggedMatch.Proofs.Environment.Operations

/-!
# Assigning to what is looked up

An assignment is to the definition that looking the name up would find, if that is mutable, and to
no other. What else it changes could be seen only later, when scopes have been popped, so the
account of it is given for every number of pops: each name is looked up as if nothing had been
assigned, but for the name itself while the scope of the assigned definition is still there. No
definition of the name is above that scope, so there it is the nearest one; and below it the other
definitions of the name are what they were.

The globals are below every scope and are never popped, so what is defined there stays defined.
-/

namespace TaggedMatch

/-- No scope above the level of a name defines it. -/
theorem Scope.definitionAt_of_levelOf_lt {scopes : List Scope} {name : Name} {higher : Nat}
    (h : levelOf scopes name < higher) : definitionAt scopes higher name = none := by
  induction scopes with
  | nil => rfl
  | cons scope rest ih =>
      rw [levelOf] at h
      rw [definitionAt]
      split at h
      · rw [if_neg (Nat.ne_of_gt h)]
        exact definitionAt_of_le (Nat.le_of_lt h) name
      · next hnone =>
          split
          · exact Option.not_isSome_iff_eq_none.mp hnone
          · exact ih h

namespace Environment

variable {env assigned : Environment} {name : Name} {value : Value}

/-! ## The nearest definition -/

/-- The nearest definition is the one with no other above it. -/
theorem nearest?_eq_some_iff {d : Definition} : env.nearest? name = some d ↔
    ∃ level, env.definition? level name = some d ∧
      ∀ higher, level < higher → env.definition? higher name = none :=
  Scope.findSome?_eq_some_iff

theorem lookup_of_nearest {level : Nat} {d : Definition} (here : env.definition? level name = some d)
    (above : ∀ higher, level < higher → env.definition? higher name = none) :
    env.lookup name = some d.value := by
  rw [lookup, nearest?_eq_some_iff.mpr ⟨level, here, above⟩]
  rfl

theorem lookup_eq_none_iff : env.lookup name = none ↔ env.nearest? name = none := by
  rw [lookup, Option.map_eq_none_iff]

theorem lt_depth {level : Nat} {d : Definition} (h : env.definition? level name = some d) :
    level < env.depth := by
  by_contra hle
  rw [definition?_of_le (Nat.le_of_not_lt hle)] at h
  cases h

/-! ## When an assignment is refused -/

theorem assign_undefined (h : env.nearest? name = none) (value : Value) :
    env.assign name value = .error .undefined := by
  rw [assign, h]

theorem assign_immutable {d : Definition} (h : env.nearest? name = some d)
    (hd : d.mutability = .isImmutable) (value : Value) :
    env.assign name value = .error .immutable := by
  rw [assign, h]
  simp only [hd]

theorem assign_mutable {d : Definition} (h : env.nearest? name = some d)
    (hd : d.mutability = .isMutable) (value : Value) :
    env.assign name value = .ok (redefine name ⟨value, .isMutable⟩ env.locals env.globals) := by
  rw [assign, h]
  simp only [hd]

/-- The three answers to an assignment, by the nearest definition. -/
theorem assign_cases (env : Environment) (name : Name) (value : Value) :
    (env.nearest? name = none ∧ env.assign name value = .error .undefined) ∨
      (∃ d, env.nearest? name = some d ∧ d.mutability = .isImmutable ∧
        env.assign name value = .error .immutable) ∨
      ∃ d assigned, env.nearest? name = some d ∧ d.mutability = .isMutable ∧
        env.assign name value = .ok assigned := by
  cases h : env.nearest? name with
  | none => exact .inl ⟨rfl, assign_undefined h value⟩
  | some d =>
      cases hd : d.mutability with
      | isImmutable => exact .inr (.inl ⟨d, rfl, hd, assign_immutable h hd value⟩)
      | isMutable => exact .inr (.inr ⟨d, _, rfl, hd, assign_mutable h hd value⟩)

/-! ## What an assignment changes -/

/-- `env.Sets level name value assigned`: the two environments have the same definitions, but that
in the scope with this number, where a mutable definition of the name is the nearest, it has the
value. -/
structure Sets (env : Environment) (level : Nat) (name : Name) (value : Value)
    (assigned : Environment) : Prop where
  depth : assigned.depth = env.depth
  here : ∃ d, env.definition? level name = some d ∧ d.mutability = .isMutable
  above : ∀ higher, level < higher → env.definition? higher name = none
  definition? : ∀ level' other, assigned.definition? level' other =
    if level' = level ∧ other = name then some ⟨value, .isMutable⟩
    else env.definition? level' other

theorem sets_of_assign (h : env.assign name value = .ok assigned) :
    env.Sets (env.levelOf name) name value assigned := by
  rcases assign_cases env name value with ⟨-, heq⟩ | ⟨d, -, -, heq⟩ | ⟨d, -, hd, hmutable, -⟩
  · cases h.symm.trans heq
  · cases h.symm.trans heq
  · cases h.symm.trans (assign_mutable hd hmutable value)
    have hhere : env.definition? (env.levelOf name) name = some d :=
      (Scope.findSome?_eq_definitionAt env.scopes name).symm.trans hd
    exact ⟨depth_redefine .., ⟨d, hhere, hmutable⟩,
      fun _ hhigher => Scope.definitionAt_of_levelOf_lt hhigher,
      fun level other => definition?_redefine ..⟩

theorem depth_popped (env : Environment) (count : Nat) :
    (env.popped count).depth = max 1 (env.depth - count) := by
  induction count generalizing env with
  | zero =>
      have hpos := env.depth_pos
      rw [Nat.sub_zero, Nat.max_eq_right hpos]
      rfl
  | succ count ih =>
      have hpopped : env.popped (count + 1) = (env.apply .pop).popped count := rfl
      rw [hpopped, ih, depth_apply, Operation.depthAfter]
      omega

/-- After pops, names stand for what they would without the assignment, but for the one assigned to
while the scope of the assigned definition is there. -/
theorem Sets.lookup_popped {level : Nat} (h : env.Sets level name value assigned) (count : Nat)
    (other : Name) : (assigned.popped count).lookup other =
      if other = name ∧ level < (env.popped count).depth then some value
      else (env.popped count).lookup other := by
  have hdefinition (level' : Nat) : (assigned.popped count).definition? level' other =
      if level' < (env.popped count).depth then
        if level' = level ∧ other = name then some ⟨value, .isMutable⟩
        else env.definition? level' other
      else none := by
    rw [definition?_popped, h.depth, depth_popped, h.definition?]
  split
  · next hleft =>
      obtain ⟨rfl, hlevel⟩ := hleft
      have hhere : (assigned.popped count).definition? level other = some ⟨value, .isMutable⟩ := by
        rw [hdefinition, if_pos hlevel, if_pos ⟨rfl, rfl⟩]
      refine lookup_of_nearest hhere fun higher hhigher => ?_
      rw [hdefinition]
      split
      · rw [if_neg fun heq => Nat.ne_of_gt hhigher heq.1, h.above higher hhigher]
      · rfl
  · next hgone =>
      refine lookup_congr fun level' => ?_
      rw [hdefinition, definition?_popped, ← depth_popped]
      split
      · next hlevel =>
          refine if_neg ?_
          rintro ⟨rfl, hsame⟩
          exact hgone ⟨hsame, hlevel⟩
      · rfl

/-! ## What is defined in the globals -/

theorem Write.settle_isSome (write : Write) (level : Nat) (name : Name) (d : Definition) :
    (write.settle level name (some d)).isSome = true := by
  cases write with
  | assigned there other value =>
      obtain ⟨old, mutability⟩ := d
      by_cases hwritten : there = level ∧ other = name
      · cases mutability with
        | isMutable => simp [settle, hwritten]
        | isImmutable => simp [settle, hwritten]
      · simp [settle, hwritten]
  | global other value =>
      rw [settle]
      split
      · rfl
      · rfl

theorem Operation.settle_isSome (operation : Operation) (env : Environment) (level : Nat)
    (name : Name) (d : Definition) : (operation.settle env level name (some d)).isSome = true := by
  cases operation with
  | push | pop => rfl
  | define other value mutability =>
      rw [settle]
      split
      · rfl
      · rfl
  | defineGlobal other value =>
      rw [settle]
      exact Write.settle_isSome ..
  | assign other value =>
      rw [settle]
      split
      · exact Write.settle_isSome ..
      · rfl

theorem settled_isSome (env : Environment) (level : Nat) (name : Name) (d : Definition)
    (operations : List Operation) : (settled env level name (some d) operations).isSome = true := by
  induction operations generalizing env d with
  | nil => rfl
  | cons operation rest ih =>
      obtain ⟨d', hd'⟩ := Option.isSome_iff_exists.mp
        (operation.settle_isSome env level name d)
      rw [settled, hd']
      exact ih ..

theorem definition?_zero (env : Environment) (name : Name) :
    env.definition? 0 name = env.globals.find? name :=
  definitionAt_zero env.locals env.globals name

/-- A global stays defined, and stands for what it did if nothing was done to the name. -/
theorem global_run {d : Definition} (h : env.globals.find? name = some d)
    (operations : List Operation) : ∃ d', (env.run operations).globals.find? name = some d' ∧
      (name ∉ operations.filterMap Operation.target? → d' = d) := by
  have hpos := lowest_pos env.depth_pos operations
  rw [← definition?_zero] at h
  obtain ⟨d', hd'⟩ := Option.isSome_iff_exists.mp (settled_isSome env 0 name d operations)
  refine ⟨d', ?_, fun huntouched => ?_⟩
  · rw [← definition?_zero, definition?_run hpos, h, hd']
  · have hrun : (env.run operations).definition? 0 name = _ :=
      definition?_run_untouched huntouched 0
    rw [definition?_run hpos, if_pos hpos, h, hd'] at hrun
    exact Option.some.inj hrun

theorem lookup_global {d : Definition} (h : env.globals.find? name = some d) :
    env.lookup name ≠ none := by
  rw [Ne, lookup_eq_none_iff, nearest?, List.findSome?_eq_none_iff]
  intro hnone
  rw [hnone env.globals (by simp [scopes])] at h
  cases h

/-! ## The account of an assignment -/

/-- What is seen of an assignment, at once and after any number of pops. -/
structure Assigning (env : Environment) (name : Name) (value : Value) : Prop where
  undefined_iff : env.assign name value = .error .undefined ↔ env.lookup name = none
  immutable_iff : env.assign name value = .error .immutable ↔
    ∃ d, env.nearest? name = some d ∧ d.mutability = .isImmutable
  accepted_iff : (∃ assigned, env.assign name value = .ok assigned) ↔
    ∃ d, env.nearest? name = some d ∧ d.mutability = .isMutable
  /-- The scope with the number `level` is the nearest that defines the name. -/
  accepted : ∀ assigned, env.assign name value = .ok assigned →
    assigned.lookup name = some value ∧ ∃ level, env.Sets level name value assigned ∧
      ∀ count other, (assigned.popped count).lookup other =
        if other = name ∧ level < (env.popped count).depth then some value
        else (env.popped count).lookup other
  refused : ∀ reason, env.assign name value = .error reason → ∀ count other,
    ((env.apply (.assign name value)).popped count).lookup other =
      (env.popped count).lookup other

theorem Sets.lookup {level : Nat} (h : env.Sets level name value assigned) :
    assigned.lookup name = some value := by
  obtain ⟨d, hhere, -⟩ := h.here
  have hnow := h.lookup_popped 0 name
  rwa [if_pos ⟨rfl, lt_depth hhere⟩] at hnow

theorem assigning (env : Environment) (name : Name) (value : Value) :
    Assigning env name value where
  undefined_iff := by
    rw [lookup_eq_none_iff]
    rcases assign_cases env name value with ⟨hd, h⟩ | ⟨d, hd, -, h⟩ | ⟨d, _, hd, -, h⟩
    all_goals simp [hd, h]
  immutable_iff := by
    rcases assign_cases env name value with ⟨hd, h⟩ | ⟨d, hd, hm, h⟩ | ⟨d, _, hd, hm, h⟩
    all_goals simp [*]
  accepted_iff := by
    rcases assign_cases env name value with ⟨hd, h⟩ | ⟨d, hd, hm, h⟩ | ⟨d, _, hd, hm, h⟩
    all_goals simp [*]
  accepted _ h := ⟨(sets_of_assign h).lookup, _, sets_of_assign h, (sets_of_assign h).lookup_popped⟩
  refused reason h count other := by
    rw [apply, h]

/-- Whatever was done before, an assignment is to the definition that is looked up and to no other;
there is always a scope, and what is defined in the globals stays defined. -/
theorem assignment_exact (operations : List Operation) (name : Name) (value : Value) :
    let env := initial.run operations
    Assigning env name value ∧ 1 ≤ env.depth ∧
      ∀ (more : List Operation) (other : Name) (d : Definition), env.globals.find? other = some d →
        (env.run more).lookup other ≠ none ∧
          ∃ d', (env.run more).globals.find? other = some d' ∧
            (other ∉ more.filterMap Operation.target? → d' = d) := by
  intro env
  refine ⟨assigning env name value, env.depth_pos, fun more other d h => ?_⟩
  obtain ⟨d', hd', huntouched⟩ := global_run h more
  exact ⟨lookup_global hd', d', hd', huntouched⟩

end Environment

end TaggedMatch
