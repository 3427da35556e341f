import TaggedMatch.Proofs.Environment.Operations
import TaggedMatch.Proofs.Inspect.FirstMatch
import TaggedMatch.Proofs.Inspect.NoLeak

/-!
# Scopes that an action leaves behind

The scope of an arm is pushed before its action and one scope is popped after it, whichever that is. An
action may do anything to the scopes in between. What it comes to is decided by the least number of
scopes that there are from the start of the action to the end of the call (`lowest`, over the action's
operations and the last pop). If that is the number there was before the call, nothing of the arm is
left and nothing else is lost. If it is one more, the scope of the arm was never popped, and its
bindings are still seen when the call has returned. If it is less, scopes of the caller are gone.

An action that pops what it pushes, and no more, makes it the number there was before
(`Leaves.contained`).
-/

namespace TaggedMatch

variable {γ σ α β ρ : Type}

namespace Environment

/-- The least number of scopes from the start of an action, in a scope of its own, to the end of the
call. -/
def floor (env : Environment) (operations : List Operation) : Nat :=
  lowest (env.depth + 1) (operations ++ [.pop])

/-- What is left of the scopes after a call in which an action with these bindings did these
operations. -/
structure Leaves (env : Environment) (bindings : Bindings) (operations : List Operation)
    (after : Environment) : Prop where
  depth : after.depth = depthAfter (env.depth + 1) (operations ++ [.pop])
  /-- The scopes that were there all the time hold what they held, but for the operations. -/
  kept : ∀ level < min env.depth (env.floor operations), ∀ name,
    after.definition? level name =
      settled (env.within bindings) level name (env.definition? level name) operations
  /-- The scope of the arm was never popped: its bindings are still seen. -/
  leaked : env.floor operations = env.depth + 1 →
    ∀ name ∉ operations.filterMap Operation.target?,
      after.lookup name = bindings.scope env.lookup name
  /-- The scope of the arm was popped, and maybe others: nothing of them is seen. -/
  gone : env.floor operations ≤ env.depth → ∀ name ∉ operations.filterMap Operation.target?,
    after.lookup name = (env.popped (env.depth - env.floor operations)).lookup name
  /-- The action popped what it pushed, and no more. -/
  contained : env.depth < lowest (env.depth + 1) operations →
    depthAfter (env.depth + 1) operations = env.depth + 1 →
    after.depth = env.depth ∧
      (∀ level < env.depth, ∀ name, after.definition? level name =
        settled (env.within bindings) level name (env.definition? level name) operations) ∧
      ∀ name ∉ operations.filterMap Operation.target?, after.lookup name = env.lookup name

theorem depth_within (env : Environment) (bindings : Bindings) :
    (env.within bindings).depth = env.depth + 1 :=
  (frame_within env bindings).depth

/-- Below the scope of the arm, the bindings are not seen. -/
theorem definition?_within {env : Environment} {level : Nat} (h : level < env.depth)
    (bindings : Bindings) (name : Name) :
    (env.within bindings).definition? level name = env.definition? level name := by
  rw [(frame_within env bindings).kept level h, definition?_push]
  rfl

theorem popped_within {env : Environment} {count : Nat} (h : count < env.depth)
    (bindings : Bindings) (name : Name) :
    ((env.within bindings).popped (count + 1)).lookup name = (env.popped count).lookup name := by
  refine lookup_congr fun level => ?_
  rw [definition?_popped, definition?_popped, depth_within, Nat.add_sub_add_right]
  split
  · next hlevel => exact definition?_within (by omega) bindings name
  · rfl

/-- After an action that pops what it pushes there are as many scopes on the way as before it. -/
theorem floor_eq {env : Environment} {operations : List Operation}
    (above : env.depth < lowest (env.depth + 1) operations)
    (ends : depthAfter (env.depth + 1) operations = env.depth + 1) :
    env.floor operations = env.depth := by
  have hpos := env.depth_pos
  rw [floor, lowest_append, ends, lowest, lowest, Operation.depthAfter]
  omega

/-! ### From the start of the action to the end of the call -/

section Left

variable (env : Environment) (bindings : Bindings) (operations : List Operation)

/-- The last pop is one more operation. -/
theorem pop_run : ((env.within bindings).run operations).pop =
    (env.within bindings).run (operations ++ [.pop]) := by
  rw [run, run, List.foldl_append]
  rfl

theorem lowest_within :
    lowest (env.within bindings).depth (operations ++ [.pop]) = env.floor operations := by
  rw [depth_within, floor]

theorem depth_left : ((env.within bindings).run operations).pop.depth =
    depthAfter (env.depth + 1) (operations ++ [.pop]) := by
  rw [pop_run, depth_run, depth_within]

variable {env operations} {name : Name}

theorem definition?_left {level : Nat} (h : level < min env.depth (env.floor operations))
    (name : Name) :
    ((env.within bindings).run operations).pop.definition? level name =
      settled (env.within bindings) level name (env.definition? level name) operations := by
  obtain ⟨hbelow, hstays⟩ := Nat.lt_min.mp h
  rw [← lowest_within env bindings] at hstays
  rw [pop_run, definition?_run hstays, definition?_within hbelow, settled_append]
  rfl

theorem lookup_left (h : name ∉ operations.filterMap Operation.target?) :
    ((env.within bindings).run operations).pop.lookup name =
      ((env.within bindings).popped (env.depth + 1 - env.floor operations)).lookup name := by
  have hnone : name ∉ (operations ++ [Operation.pop]).filterMap Operation.target? := by
    simpa [Operation.target?] using h
  rw [pop_run, lookup_run hnone, lowest_within, depth_within]

theorem lookup_left_of_le (hle : env.floor operations ≤ env.depth)
    (h : name ∉ operations.filterMap Operation.target?) :
    ((env.within bindings).run operations).pop.lookup name =
      (env.popped (env.depth - env.floor operations)).lookup name := by
  have hpos : 0 < env.floor operations := lowest_pos (Nat.succ_pos _) _
  have hmore : env.depth - env.floor operations < env.depth := by omega
  rw [lookup_left bindings h, Nat.sub_add_comm hle, popped_within hmore]

end Left

theorem leaves_pop (env : Environment) (bindings : Bindings) (operations : List Operation) :
    Leaves env bindings operations ((env.within bindings).run operations).pop where
  depth := depth_left env bindings operations
  kept level hlevel name := definition?_left bindings hlevel name
  leaked hleak name hname := by
    rw [lookup_left bindings hname, hleak, Nat.sub_self, ← lookup_within]
    rfl
  gone hle name hname := lookup_left_of_le bindings hle hname
  contained above ends := by
    have hfloor := floor_eq above ends
    refine ⟨?_, fun level hlevel => definition?_left bindings (by rwa [hfloor, Nat.min_self]),
      fun name hname => ?_⟩
    · have hpos := env.depth_pos
      have hlast : depthAfter (env.depth + 1) (operations ++ [.pop]) =
          Operation.pop.depthAfter (depthAfter (env.depth + 1) operations) := List.foldl_append
      rw [depth_left, hlast, ends]
      exact Nat.max_eq_right hpos
    · rw [lookup_left_of_le bindings (Nat.le_of_eq hfloor) hname, hfloor, Nat.sub_self]
      rfl

end Environment

namespace Inspect

open Environment (Operation Leaves)

/-- What it is for a call to leave the scopes to the action of the arm, but for the one that it pops at
the end. -/
structure Contains (host : InspectHost γ σ α β) (call : Inspect γ α → List Value → Action σ ρ)
    (inspect : Inspect γ α) : Prop where
  /-- Whatever the action did to the environment. -/
  depth : ∀ subjects env s arm bindings s', inspect.Performs host subjects env s arm bindings s' →
    (((call inspect subjects).run (env, s)).2.1.depth = env.depth ↔
      ((host.act arm.action).run (env.within bindings, s')).2.1.depth = env.depth + 1 ∨
        ((host.act arm.action).run (env.within bindings, s')).2.1.depth = 1 ∧ env.depth = 1)
  /-- By operations, in whatever order. -/
  operated : ∀ subjects env s arm bindings s' operations,
    inspect.Performs host subjects env s arm bindings s' →
    ((host.act arm.action).run (env.within bindings, s')).2.1 =
      (env.within bindings).run operations →
    Leaves env bindings operations ((call inspect subjects).run (env, s)).2.1
  untouched : ∀ subjects env s,
    (∀ arm bindings s', ¬ inspect.Performs host subjects env s arm bindings s') →
    ((call inspect subjects).run (env, s)).2.1 = env

theorem contains_of_run {host : InspectHost γ σ α β} {inspect : Inspect γ α}
    {call : Inspect γ α → List Value → Action σ ρ} (form : Form)
    (hcall : ∀ subjects x,
      ((call inspect subjects).run x).2 = ((inspect.run host form subjects).run x).2) :
    Contains host call inspect where
  depth subjects env s arm bindings s' ran := by
    rw [hcall, env_of_performs form ran]
    generalize ((host.act arm.action).run (env.within bindings, s')).2.1 = left
    have hpop : left.pop.depth = max 1 (left.depth - 1) := left.depth_apply .pop
    have hpos := env.depth_pos
    have hleft := left.depth_pos
    omega
  operated subjects env s arm bindings s' operations ran acted := by
    rw [hcall, env_of_performs form ran, acted]
    exact Environment.leaves_pop env bindings operations
  untouched subjects env s idle := by
    rw [hcall]
    exact env_of_idle form idle

/-- What is left of the scopes after a call of an inspect, in either form and whether it succeeds or
fails. -/
theorem contains (host : InspectHost γ σ α β) (unitHost : InspectHost γ σ α Unit)
    (inspect : Inspect γ α) :
    Contains host (evaluate host) inspect ∧ Contains unitHost (execute unitHost) inspect := by
  constructor
  · refine contains_of_run .expression fun subjects x => ?_
    rw [run_evaluate]
  · refine contains_of_run .statement fun subjects x => ?_
    rw [run_execute]

/-- Actions that work on the scopes and give their number. -/
def scopeHost (work : Environment → Environment) : InspectHost Unit Nat Nat Nat :=
  tallyHost fun action => ExceptT.mk fun (env, n) => (.ok action, (work env, n))

/-- An action that pushes a scope leaves the bindings of its arm to be seen after the call, and one that
pops two takes a scope of the caller away. -/
theorem binding_outlives_arm :
    let caller := outerEnvironment.push.define ⟨3⟩ .unit .isImmutable
    let pushed := ((numbers.evaluate (scopeHost (·.push)) [.int 7]).run (caller, 0)).2.1
    let popped := ((numbers.evaluate (scopeHost (·.pop.pop)) [.int 7]).run (caller, 0)).2.1
    caller.depth = 2 ∧ caller.lookup ⟨1⟩ = none ∧ caller.lookup ⟨3⟩ = some .unit ∧
      pushed.depth = 3 ∧ pushed.lookup ⟨1⟩ = some (.int 7) ∧
      popped.depth = 1 ∧ popped.lookup ⟨3⟩ = none := by
  intro caller pushed popped
  refine ⟨?_, ?_, ?_, ?_, ?_, ?_, ?_⟩
  all_goals with_unfolding_all rfl

end Inspect

end TaggedMatch
