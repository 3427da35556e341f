import TaggedMatch.Proofs.Inspect.Building
import TaggedMatch.Proofs.Pattern.Composition
import TaggedMatch.Proofs.Registry.Indexes

/-!
# What is reported when an inspect is built

Arms are added in two ways, and the building checks all of them before it says anything. So what it
reports is one list: the rows with a wrong number of patterns, as they were added, and then arm by arm
what a check of that arm alone reports. Nothing is left out because of another mistake and nothing is
said twice, and the inspect is built just if the list is empty. With the same for the parts of product
patterns this goes all the way down (`reports_composed`).
-/

namespace TaggedMatch

namespace Inspect.Builder

variable {γ α : Type}

/-! ## Adding arms in either way -/

/-- A call that adds an arm. -/
inductive Addition (γ α : Type) where
  | whole (pattern : Pattern γ) (action : α)
  | each (patterns : List (Pattern γ)) (action : α)

namespace Addition

/-- The mistake in a call, if there are `count` subjects. -/
def misfit? (count : Nat) : Addition γ α → Option Mistake
  | .whole _ _ => none
  | .each patterns _ =>
      if patterns.length = count then none
      else some (.subjectCount patterns.length count (Span.mergeAll (patterns.map (·.span))))

/-- The arm that a call adds, if there are `count` subjects. -/
def arm? (count : Nat) : Addition γ α → Option (Pattern γ × α)
  | .whole pattern action => some (pattern, action)
  | .each patterns action =>
      if patterns.length = count then some (joint patterns, action) else none

end Addition

/-- Makes a call. -/
def add (b : Builder γ α) : Addition γ α → Builder γ α
  | .whole pattern action => b.arm pattern action
  | .each patterns action => b.armEach patterns action

/-- Makes calls, the first of the list first. -/
def addAll (b : Builder γ α) (additions : List (Addition γ α)) : Builder γ α :=
  additions.foldl add b

theorem add_eq (b : Builder γ α) (a : Addition γ α) :
    b.add a = ⟨b.subjects, b.arms ++ (a.arm? b.subjects.length).toList,
      b.mistakes ++ (a.misfit? b.subjects.length).toList⟩ := by
  cases a with
  | whole pattern action => simp [add, arm, Addition.arm?, Addition.misfit?]
  | each patterns action =>
      rw [add, armEach, Addition.arm?, Addition.misfit?]
      split
      · simp [arm]
      · simp

/-- Each call adds an arm or a mistake, in order. -/
theorem addAll_eq (b : Builder γ α) (additions : List (Addition γ α)) :
    b.addAll additions = ⟨b.subjects,
      b.arms ++ additions.filterMap (·.arm? b.subjects.length),
      b.mistakes ++ additions.filterMap (·.misfit? b.subjects.length)⟩ := by
  induction additions generalizing b with
  | nil => simp [addAll]
  | cons a rest ih =>
      have hrest : b.addAll (a :: rest) = (b.add a).addAll rest := rfl
      have hfirst {β : Type} (f : Addition γ α → Option β) :
          (a :: rest).filterMap f = (f a).toList ++ rest.filterMap f := by
        cases h : f a <;> simp [h]
      rw [hrest, ih, add_eq, hfirst, hfirst, List.append_assoc, List.append_assoc]

/-! ## What is reported -/

variable {r r' : Registry} {ty : TypeId} {b : Builder γ α}

theorem mistakes_checkArms (arms : List (Pattern γ × α)) :
    (checkArms r ty arms).1 = arms.flatMap fun arm => Mistake.reasons (arm.1.check r ty) := by
  induction arms with
  | nil => rfl
  | cons arm rest ih =>
      obtain ⟨p, action⟩ := arm
      rw [checkArms, List.flatMap_cons, ← ih]
      cases p.check r ty with
      | ok c => rfl
      | error mistakes => rfl

theorem build_ne_error_nil : (b.build r).1 ≠ .error [] := by
  rw [build]
  cases subjectType r b.subjects with
  | none => simp
  | some subject =>
      obtain ⟨ty, r'⟩ := subject
      dsimp only
      cases b.mistakes ++ (checkArms r' ty b.arms).1 with
      | nil => simp
      | cons m ms => simp

theorem reasons_build (hsubject : subjectType r b.subjects = some (ty, r')) :
    Mistake.reasons (b.build r).1 = b.mistakes ++
      b.arms.flatMap fun arm => Mistake.reasons (arm.1.check r' ty) := by
  rw [build, hsubject, ← mistakes_checkArms]
  dsimp only
  cases b.mistakes ++ (checkArms r' ty b.arms).1 with
  | nil => rfl
  | cons m ms => rfl

theorem snd_build (hsubject : subjectType r b.subjects = some (ty, r')) : (b.build r).2 = r' := by
  rw [build, hsubject]
  dsimp only
  cases b.mistakes ++ (checkArms r' ty b.arms).1 with
  | nil => rfl
  | cons m ms => rfl

/-- The type that subjects are matched as: one subject as itself, several as their tuple. -/
def MatchedAs (r : Registry) : List TypeId → TypeId → Prop
  | [single], ty => ty = single
  | several, ty => r.kind? ty = some (.tuple several)

theorem exists_matchedAs (reachable : r.Reachable) (hne : b.subjects ≠ []) :
    ∃ ty, subjectType r b.subjects = some (ty, (b.build r).2) ∧
      MatchedAs (b.build r).2 b.subjects ty := by
  obtain ⟨subjects, arms, mistakes⟩ := b
  dsimp only at hne ⊢
  rcases subjects with _ | ⟨first, _ | ⟨second, rest⟩⟩
  · exact absurd rfl hne
  · rw [snd_build (b := ⟨[first], arms, mistakes⟩) rfl]
    exact ⟨first, rfl, rfl⟩
  · rw [snd_build (b := ⟨first :: second :: rest, arms, mistakes⟩) rfl]
    exact ⟨_, rfl, reachable.indexed.kind?_tuple (first :: second :: rest)⟩

/-- The rows that do not fit `count` subjects, and what a check of each arm alone reports. -/
def reportsOf (r : Registry) (count : Nat) (ty : TypeId) (additions : List (Addition γ α)) :
    List Diagnostic :=
  (additions.filterMap (·.misfit? count)).map (·.diagnostic r) ++
    (additions.filterMap (·.arm? count)).flatMap fun arm => r.reports (arm.1.check r ty)

theorem reports_addAll (reachable : r.Reachable) {subjects : List TypeId} (hne : subjects ≠ [])
    (additions : List (Addition γ α)) :
    let built := ((ofSubjects subjects).addAll additions).build r
    ∃ ty, MatchedAs built.2 subjects ty ∧
      built.2.reports built.1 = reportsOf built.2 subjects.length ty additions := by
  have hbuilder : (ofSubjects subjects).addAll additions = ⟨subjects,
      additions.filterMap (·.arm? subjects.length),
      additions.filterMap (·.misfit? subjects.length)⟩ := addAll_eq _ _
  rw [hbuilder]
  obtain ⟨ty, hsubject, hmatched⟩ := exists_matchedAs (b := ⟨subjects, _, _⟩) reachable hne
  refine ⟨ty, hmatched, ?_⟩
  rw [Registry.reports, reasons_build hsubject, List.map_append, List.map_flatMap]
  rfl

/-- No mistake hides or repeats another, in the parts of a product pattern and in the arms of an
inspect. -/
theorem reports_composed (reachable : r.Reachable) :
    (∀ (p : Pattern γ) (ty : TypeId) (parts : List (Pattern γ × TypeId)), p.Splits r ty parts →
      (parts.Pairwise fun x y => x.1.binders.Disjoint y.1.binders) →
      r.reports (p.check r ty) = (parts.flatMap fun x => r.reports (x.1.check r x.2)) ∧
        ((∃ c, p.check r ty = .ok c) ↔
          (parts.flatMap fun x => r.reports (x.1.check r x.2)) = [])) ∧
    ∀ (subjects : List TypeId) (additions : List (Addition γ α)), subjects ≠ [] →
      let built := ((ofSubjects subjects).addAll additions).build r
      ∃ ty, MatchedAs built.2 subjects ty ∧
        built.2.reports built.1 = reportsOf built.2 subjects.length ty additions ∧
          ((∃ inspect, built.1 = .ok inspect) ↔
            reportsOf built.2 subjects.length ty additions = []) := by
  constructor
  · intro p ty parts splits apart
    have hreports : r.reports (p.check r ty) =
        parts.flatMap fun x => r.reports (x.1.check r x.2) := by
      rw [Registry.reports, splits.reasons_eq apart, List.map_flatMap]
      rfl
    exact ⟨hreports, by rw [← hreports, Registry.reports_eq_nil_iff check_ne_error_nil]⟩
  · intro subjects additions hne built
    obtain ⟨ty, hmatched, hreports⟩ := reports_addAll reachable hne additions
    exact ⟨ty, hmatched, hreports, by
      rw [← hreports, Registry.reports_eq_nil_iff build_ne_error_nil]⟩

/-- A pair with a mistake in both places, and an inspect with two rows that do not fit and two arms
that are refused. -/
theorem reports_composed_pair :
    let r := Registry.fresh.run [.tuple [TypeId.int, TypeId.bool]]
    let word : Pattern Unit := .binding Span.dummy ⟨0⟩ (.literal Span.dummy (.char 'c'))
    let truth : Pattern Unit := .binding Span.dummy ⟨1⟩ (.literal Span.dummy (.bool true))
    let any : Pattern Unit := .wildcard Span.dummy
    let additions : List (Addition Unit Nat) :=
      [.each [any] 10, .whole word 20, .whole any 30, .each [truth, truth] 40, .each [] 50,
        .each [any, truth] 60]
    let built := ((ofSubjects [TypeId.int, TypeId.bool]).addAll additions).build r
    r.Reachable ∧
      r.reports ((Pattern.sequence Span.dummy [truth, word]).check r ⟨5⟩) =
        r.reports (truth.check r TypeId.int) ++ r.reports (word.check r TypeId.bool) ∧
      (r.reports ((Pattern.sequence Span.dummy [truth, word]).check r ⟨5⟩)).map (·.code) =
        [.literalMismatch, .literalMismatch] ∧
      built.2.reports built.1 = reportsOf built.2 2 ⟨5⟩ additions ∧
      (reportsOf built.2 2 ⟨5⟩ additions).map (·.code) =
        [.subjectCount, .subjectCount, .literalMismatch, .literalMismatch, .boundTwice] ∧
      ¬ ∃ inspect, built.1 = .ok inspect := by
  intro r word truth any additions built
  have reachable : r.Reachable := ⟨_, rfl⟩
  have hkind : r.kind? ⟨5⟩ = some (.tuple [TypeId.int, TypeId.bool]) := by with_unfolding_all rfl
  have splits : (Pattern.sequence Span.dummy [truth, word]).Splits r ⟨5⟩
      [(truth, TypeId.int), (word, TypeId.bool)] := .sequence (.tuple hkind) rfl
  have apart : [(truth, TypeId.int), (word, TypeId.bool)].Pairwise
      fun x y => x.1.binders.Disjoint y.1.binders :=
    List.pairwise_pair.mpr (List.disjoint_singleton.mpr (by decide))
  obtain ⟨hparts, hbuilt⟩ := reports_composed (γ := Unit) (α := Nat) reachable
  obtain ⟨hreports, -⟩ := hparts _ _ _ splits apart
  obtain ⟨ty, hmatched, hall, hok⟩ :=
    hbuilt [TypeId.int, TypeId.bool] additions (List.cons_ne_nil _ _)
  have hlookup : r.tuples.lookup [TypeId.int, TypeId.bool] = some ty :=
    (reachable.indexed.tuples _ _).mpr hmatched
  have hfive : r.tuples.lookup [TypeId.int, TypeId.bool] = some ⟨5⟩ := by with_unfolding_all rfl
  obtain rfl : ty = ⟨5⟩ := Option.some.inj (hlookup.symm.trans hfive)
  have hcodes : (reportsOf built.2 2 ⟨5⟩ additions).map (·.code) =
      [.subjectCount, .subjectCount, .literalMismatch, .literalMismatch, .boundTwice] := by
    decide +kernel
  have hpair : r.reports ((Pattern.sequence Span.dummy [truth, word]).check r ⟨5⟩) =
      r.reports (truth.check r TypeId.int) ++ r.reports (word.check r TypeId.bool) := by
    rw [hreports]
    simp only [List.flatMap_cons, List.flatMap_nil, List.append_nil]
  refine ⟨reachable, hpair, by decide +kernel, hall, hcodes, ?_⟩
  rw [hok]
  intro hnone
  cases hcodes.symm.trans (congrArg (List.map (·.code)) hnone)

end Inspect.Builder

end TaggedMatch
