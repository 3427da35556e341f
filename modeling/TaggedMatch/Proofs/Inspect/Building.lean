import TaggedMatch.Inspect.Build
import TaggedMatch.Proofs.Pattern.Draft

/-!
# When an inspect can be built

Arms are added one by one and checked together. An inspect is built just if no mistake was made in
adding arms and each pattern passes the check against the type of all subjects; its arms are then the
checked patterns, in the order of the arms that were added.
-/

namespace TaggedMatch

theorem exists_forall₂_iff {α β : Type} {R : α → β → Prop} {l : List α} :
    (∃ l', List.Forall₂ R l l') ↔ ∀ a ∈ l, ∃ b, R a b := by
  induction l with
  | nil => simp
  | cons a l ih =>
      rw [List.forall_mem_cons, ← ih]
      constructor
      · rintro ⟨_, h | ⟨ha, hl⟩⟩
        exact ⟨⟨_, ha⟩, _, hl⟩
      · rintro ⟨⟨b, hb⟩, l', hl'⟩
        exact ⟨b :: l', .cons hb hl'⟩

namespace Inspect.Builder

variable {γ α : Type} {r r' : Registry} {ty : TypeId} {b : Builder γ α}

/-- Adds arms, the first of the list first. -/
def withArms (b : Builder γ α) (arms : List (Pattern γ × α)) : Builder γ α :=
  arms.foldl (fun b arm => b.arm arm.1 arm.2) b

/-- Adds arms with one pattern for each subject. -/
def withRows (b : Builder γ α) (rows : List (List (Pattern γ) × α)) : Builder γ α :=
  rows.foldl (fun b row => b.armEach row.1 row.2) b

theorem withArms_eq (b : Builder γ α) (arms : List (Pattern γ × α)) :
    b.withArms arms = { b with arms := b.arms ++ arms } := by
  induction arms generalizing b with
  | nil => simp [withArms]
  | cons arm rest ih =>
      have hrest : b.withArms (arm :: rest) = (b.arm arm.1 arm.2).withArms rest := rfl
      rw [hrest, ih, Builder.arm, List.append_assoc]
      rfl

/-- Rows of the right length are arms for all subjects together. -/
theorem withRows_eq {rows : List (List (Pattern γ) × α)}
    (arity : ∀ row ∈ rows, row.1.length = b.subjects.length) :
    b.withRows rows = b.withArms (rows.map fun row => (joint row.1, row.2)) := by
  induction rows generalizing b with
  | nil => rfl
  | cons row rest ih =>
      rw [List.forall_mem_cons] at arity
      have hrow : b.armEach row.1 row.2 = b.arm (joint row.1) row.2 := if_pos arity.1
      have hrest : b.withRows (row :: rest) = (b.armEach row.1 row.2).withRows rest := rfl
      rw [hrest, hrow, ih (b := b.arm (joint row.1) row.2) arity.2]
      rfl

theorem joint_of_several {patterns : List (Pattern γ)} (h : patterns.length ≠ 1) :
    joint patterns = .sequence (Span.mergeAll (patterns.map (·.span))) patterns := by
  rcases patterns with _ | ⟨p, _ | ⟨q, others⟩⟩
  · rfl
  · exact absurd rfl h
  · rfl

theorem check_ne_error_nil {p : Pattern γ} : p.check r ty ≠ .error [] := by
  rw [Pattern.check]
  intro h
  split at h
  · cases h
  · next hsome => exact hsome (Except.error.inj h)

/-- The arm is what the check makes of the pattern and its action. -/
def Accepts (r : Registry) (ty : TypeId) (pair : Pattern γ × α) (arm : Arm γ α) : Prop :=
  pair.1.check r ty = .ok arm.pattern ∧ arm.action = pair.2

theorem checkArms_eq_iff {pairs : List (Pattern γ × α)} {arms : List (Arm γ α)} :
    checkArms r ty pairs = ([], arms) ↔ List.Forall₂ (Accepts r ty) pairs arms := by
  induction pairs generalizing arms with
  | nil => simp [checkArms, eq_comm]
  | cons pair rest ih =>
      obtain ⟨p, action⟩ := pair
      rw [checkArms]
      cases hcheck : p.check r ty with
      | error mistakes =>
          have hmistakes : mistakes ≠ [] := by
            rintro rfl
            exact check_ne_error_nil hcheck
          constructor
          · intro h
            exact absurd (List.append_eq_nil_iff.mp (Prod.ext_iff.mp h).1).1 hmistakes
          · rintro (_ | ⟨⟨h, -⟩, -⟩)
            rw [hcheck] at h
            cases h
      | ok compiled =>
          constructor
          · intro h
            obtain ⟨hnone, rfl⟩ := Prod.ext_iff.mp h
            exact .cons ⟨hcheck, rfl⟩ (ih.mp (Prod.ext hnone rfl))
          · rintro (_ | ⟨⟨h, haction⟩, hrest⟩)
            rw [hcheck] at h
            cases h
            subst haction
            rw [ih.mpr hrest]

/-- An inspect is built from the arms that were added, if no mistake was made and all pass. -/
theorem build_eq_ok_iff (hsubject : subjectType r b.subjects = some (ty, r'))
    {inspect : Inspect γ α} : (b.build r).1 = .ok inspect ↔
      b.mistakes = [] ∧ inspect.subject = ty ∧ inspect.subjectCount = b.subjects.length ∧
        List.Forall₂ (Accepts r' ty) b.arms inspect.arms := by
  rw [build, hsubject, ← checkArms_eq_iff]
  dsimp only
  rcases checkArms r' ty b.arms with ⟨mistakes, arms⟩
  dsimp only
  cases hall : b.mistakes ++ mistakes with
  | nil =>
      obtain ⟨hnone, rfl⟩ := List.append_eq_nil_iff.mp hall
      obtain ⟨subject, count, arms'⟩ := inspect
      simp only [hnone, Except.ok.injEq, Inspect.mk.injEq, Prod.mk.injEq, true_and]
      exact and_congr eq_comm (and_congr_left' eq_comm)
  | cons m ms =>
      refine iff_of_false (fun h => by cases h) ?_
      rintro ⟨hnone, -, -, harms⟩
      cases harms
      rw [hnone] at hall
      cases hall

/-- Whether an inspect can be built. -/
theorem exists_build_iff (hsubject : subjectType r b.subjects = some (ty, r')) :
    (∃ inspect, (b.build r).1 = .ok inspect) ↔
      b.mistakes = [] ∧ ∀ pair ∈ b.arms, ∃ c, pair.1.check r' ty = .ok c := by
  have harms : (∃ arms, List.Forall₂ (Accepts r' ty) b.arms arms) ↔
      ∀ pair ∈ b.arms, ∃ c, pair.1.check r' ty = .ok c := by
    rw [exists_forall₂_iff]
    refine forall₂_congr fun pair _ => ⟨?_, ?_⟩
    · rintro ⟨arm, hcheck, -⟩
      exact ⟨arm.pattern, hcheck⟩
    · rintro ⟨c, hcheck⟩
      exact ⟨⟨c, pair.2⟩, hcheck, rfl⟩
  simp only [build_eq_ok_iff hsubject, ← harms]
  constructor
  · rintro ⟨inspect, hmistakes, -, -, h⟩
    exact ⟨hmistakes, inspect.arms, h⟩
  · rintro ⟨hmistakes, arms, h⟩
    exact ⟨⟨ty, b.subjects.length, arms⟩, hmistakes, rfl, rfl, h⟩

end Inspect.Builder

end TaggedMatch
