import TaggedMatch.Proofs.Pattern.Growth
import TaggedMatch.Proofs.Value.Default

/-!
# What was accepted stays accepted

Patterns are checked, values compared with types and defaults built against a registry that goes on
growing: arms are checked one after the other, and a type may get its body long after others mention
it. Here the three kinds of growth come together. A pattern that passed keeps its resolved form to
the last text in it, a value stays a value of its type, and a type keeps its default.

Nothing of the kind holds of what was refused. A type that is only declared, or not even issued, has
no default and fits next to no pattern, and may well have and fit them later.
-/

namespace TaggedMatch.Registry

/-- Whatever further operations a registry goes through, what it accepted before it accepts with the
same result: checked patterns, values of a type, defaults. -/
theorem Reachable.accepted_run {r : Registry} (reachable : r.Reachable)
    (operations : List Operation) :
    (∀ {γ : Type} (p : Pattern γ) (ty : TypeId) (c : Compiled γ),
        p.check r ty = .ok c → p.check (r.run operations) ty = .ok c) ∧
      (∀ (v : Value) (ty : TypeId),
        v.conforms r ty = true → v.conforms (r.run operations) ty = true) ∧
      ∀ (ty : TypeId) (v : Value),
        Value.default r ty = .ok v → Value.default (r.run operations) ty = .ok v := by
  have hextends := run_extends r operations
  have htexts : SameTexts r (r.run operations) := reachable.sameTexts_run operations
  refine ⟨fun p ty c hchecked => ?_, fun v ty hconforms => ?_, fun ty v hdefault => ?_⟩
  · exact Pattern.check_extends hextends htexts hchecked
  · exact hextends.conforms hconforms
  · exact Value.default_extends hextends hdefault

/-- A union over pointers to a type that is not issued yet, and a type that is only declared. -/
def earlyRegistry : Registry :=
  fresh.run [.declareAt "Later" Span.dummy, .pointer ⟨8⟩,
    .union "Link" [("Next", ⟨6⟩)] .propagate]

/-- The declared type gets its body, and the missing type is issued. -/
def laterRegistry : Registry :=
  earlyRegistry.run [.defineEnum ⟨5⟩ ["One", "Two"], .tuple [⟨5⟩, ⟨7⟩]]

def endLink : Value :=
  .union ⟨⟨2⟩, ⟨7⟩, [⟨⟨3⟩, ⟨6⟩, Span.dummy⟩], .propagate⟩ 0 .null

theorem accepted_laterRegistry : earlyRegistry.Reachable ∧
    (Pattern.bind Span.dummy ⟨9⟩ : Pattern Unit).check laterRegistry ⟨5⟩ =
      .ok ⟨.binding ⟨9⟩ .wildcard, ⟨5⟩, [⟨9⟩], Span.dummy⟩ ∧
    (Pattern.alternative Span.dummy ⟨3⟩ (.null Span.dummy) : Pattern Unit).check laterRegistry ⟨7⟩ =
      .ok ⟨.unionAlternative ⟨7⟩ "Link" 0 .null, ⟨7⟩, [], Span.dummy⟩ ∧
    endLink.conforms laterRegistry ⟨7⟩ = true ∧
    Value.default laterRegistry ⟨7⟩ = .ok endLink := by
  have reachable : earlyRegistry.Reachable := ⟨_, rfl⟩
  obtain ⟨hchecks, hconforms, hdefaults⟩ := reachable.accepted_run
    [.defineEnum ⟨5⟩ ["One", "Two"], .tuple [⟨5⟩, ⟨7⟩]]
  refine ⟨reachable, hchecks _ _ _ ?_, hchecks _ _ _ ?_, hconforms _ _ ?_, hdefaults _ _ ?_⟩
  · with_unfolding_all rfl
  · with_unfolding_all rfl
  · with_unfolding_all rfl
  · with_unfolding_all rfl

end TaggedMatch.Registry
