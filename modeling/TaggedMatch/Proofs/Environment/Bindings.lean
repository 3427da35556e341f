import Mathlib.Data.List.Induction
import TaggedMatch.Environment
import TaggedMatch.Proofs.Pattern.Slots
import TaggedMatch.Pattern.Match

/-!
# Scopes of bindings

An action runs in a scope of its own, with the bindings of the match defined in it one by one. What
is looked up there is what the guards saw during the match: the bindings over the enclosing scope.
Since no match binds a name twice, no definition takes the place of another, and the order they are
made in does not matter.
-/

namespace TaggedMatch

namespace Environment

/-- The environment with one more scope, which holds the bindings. -/
def within (env : Environment) (bindings : Bindings) : Environment :=
  bindings.foldl (fun env (name, value) => env.define name value .isImmutable) env.push

theorem lookup_define (env : Environment) (name other : Name) (value : Value)
    (mutability : Mutability) :
    (env.define name value mutability).lookup other =
      if other = name then some value else env.lookup other := by
  rw [lookup, nearest?_define]
  split
  · rfl
  · rfl

theorem lookup_within (env : Environment) (bindings : Bindings) :
    (env.within bindings).lookup = bindings.scope env.lookup := by
  induction bindings using List.reverseRecOn with
  | nil => rfl
  | append_singleton bindings binding ih =>
      obtain ⟨name, value⟩ := binding
      funext other
      rw [Bindings.scope_append_singleton, ← ih, within, List.foldl_append]
      exact lookup_define _ name other value .isImmutable

end Environment

namespace Bindings

variable {bindings : Bindings} {outer : Lookup} {name : Name} {value : Value}

theorem scope_of_mem (hnodup : (bindings.map (·.1)).Nodup) (h : (name, value) ∈ bindings) :
    bindings.scope outer name = some value := by
  have hreverse : (bindings.reverse.map (·.1)).Nodup := by
    rw [List.map_reverse]
    exact List.nodup_reverse.mpr hnodup
  rw [scope, (lookup_eq_some_iff_mem hreverse).mpr (List.mem_reverse.mpr h), Option.some_or]

/-- Where no name is bound twice, a name has one value. -/
theorem mem_iff_of_mem {value' : Value} (hnodup : (bindings.map (·.1)).Nodup)
    (h : (name, value) ∈ bindings) : (name, value') ∈ bindings ↔ value' = value := by
  constructor
  · intro h'
    have hscope : bindings.scope Lookup.empty name = some value := scope_of_mem hnodup h
    rw [scope_of_mem hnodup h'] at hscope
    exact Option.some.inj hscope
  · rintro rfl
    exact h

theorem scope_of_notMem (h : name ∉ bindings.map (·.1)) :
    bindings.scope outer name = outer name := by
  have hnone : bindings.reverse.lookup name = none := by
    rw [lookup_eq_none_iff, List.map_reverse, List.mem_reverse]
    exact h
  rw [scope, hnone, Option.none_or]

end Bindings

end TaggedMatch
