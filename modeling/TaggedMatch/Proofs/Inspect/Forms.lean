import TaggedMatch.Proofs.Inspect.Events
import TaggedMatch.Proofs.Inspect.NoLeak

/-!
# Statements and expressions

The two forms of an inspect are one run with two ends. What is shown here is that they part only
there: up to the point where all arms have been tried they do the same, and if they do not come to
that point they do the same altogether and end alike.

The end without a match is the error of an expression, and it is an error that guards and actions
may raise as well. The forms must not take the one for the other. A statement falls through if all
its arms were tried and none matched, and in no other case; an error that was raised on the way,
whatever it is, is the error of the call in both forms.
-/

namespace TaggedMatch

variable {γ σ α β : Type}

namespace Inspect

/-- The errors that do not come from having no match: of the call itself, of the match of an arm,
and of the action. -/
inductive Raises (host : InspectHost γ σ α β) (inspect : Inspect γ α) (subjects : List Value)
    (env : Environment) (s : σ) : EvalError → Prop
  | miscounted (h : subjects.length ≠ inspect.subjectCount) :
      Raises host inspect subjects env s
        (.shapeMismatch s!"{inspect.subjectCount} subjects" (toString subjects.length))
  | matching {i : Nat} {arm : Arm γ α} {e : EvalError} {s' : σ}
      (counted : subjects.length = inspect.subjectCount)
      (first : inspect.FirstAt host subjects env s i arm (.error e) s') :
      Raises host inspect subjects env s e
  | acting {arm : Arm γ α} {bindings : Bindings} {e : EvalError} {s' : σ}
      (ran : inspect.Performs host subjects env s arm bindings s')
      (failed : ((host.act arm.action).run (env.within bindings, s')).1 = .error e) :
      Raises host inspect subjects env s e

/-- All arms were tried and none matched. -/
def Exhausts (host : InspectHost γ σ α β) (inspect : Inspect γ α) (subjects : List Value)
    (env : Environment) (s : σ) : Prop :=
  subjects.length = inspect.subjectCount ∧ ∃ s', inspect.AllPass host subjects env s s'

variable {host : InspectHost γ σ α β} {inspect : Inspect γ α} {subjects : List Value}
variable {env : Environment} {s s' : σ} {form : Form} {i : Nat} {arm : Arm γ α}

/-! ## One run, two ends -/

/-- Every run is exhausted, or it ends in the same way in both forms: with an error that was raised,
or with the value of an action. -/
theorem run_ends (host : InspectHost γ σ α β) (inspect : Inspect γ α) (subjects : List Value)
    (env : Environment) (s : σ) :
    inspect.Exhausts host subjects env s ∨
      ∃ result after, (∀ form, (inspect.run host form subjects).run (env, s) = (result, after)) ∧
        ((∃ e, inspect.Raises host subjects env s e ∧ result = .error e) ∨
          ∃ found, result = .ok (some found)) := by
  by_cases hlength : subjects.length = inspect.subjectCount
  · rcases inspect.search_ends host subjects env s with
      ⟨s', hpass⟩ | ⟨i, arm, e, s', hfirst⟩ | ⟨i, arm, bindings, s', hfirst⟩
    · exact .inl ⟨hlength, s', hpass⟩
    · exact .inr ⟨_, _, fun form => run_failed hlength hfirst,
        .inl ⟨e, .matching hlength hfirst, rfl⟩⟩
    · have hran : inspect.Performs host subjects env s arm bindings _ :=
        ⟨hlength, i, s', hfirst, rfl⟩
      rcases hact : (host.act arm.action).run (env.within bindings,
          host.shown (some (.scanning i)) (.matched i) s') with ⟨e | value, env', s''⟩
      · refine .inr ⟨.error e, (env'.pop, s''), fun form => ?_, .inl ⟨e, ?_, rfl⟩⟩
        · rw [run_found hlength hfirst, hact]
          rfl
        · exact .acting hran (by rw [hact])
      · refine .inr ⟨.ok (some (i, value)),
          (env'.pop, host.shown (some (.matched i)) .done s''), fun form => ?_, .inr ⟨_, rfl⟩⟩
        rw [run_found hlength hfirst, hact]
        rfl
  · exact .inr ⟨_, _, fun form => run_miscounted hlength,
      .inl ⟨_, .miscounted hlength, rfl⟩⟩

/-- A run ends with the errors that are raised, and else only with that of having no match. -/
theorem Raises.run {e : EvalError} (h : inspect.Raises host subjects env s e) (form : Form) :
    ((inspect.run host form subjects).run (env, s)).1 = .error e := by
  cases h with
  | miscounted hlength => rw [run_miscounted hlength]
  | matching counted first => rw [run_failed counted first]
  | acting ran failed =>
      obtain ⟨hlength, i, after, hfirst, rfl⟩ := ran
      rw [run_found hlength hfirst]
      generalize (host.act _).run _ = ended at failed
      obtain ⟨result, env', s'⟩ := ended
      cases failed
      rfl

theorem Exhausts.run (h : inspect.Exhausts host subjects env s) :
    ∃ s', ∀ form, (inspect.run host form subjects).run (env, s) =
      (inspect.unmatched form,
        (env, host.shown (some (.scanning inspect.arms.length)) form.exhausted s')) := by
  obtain ⟨hlength, s', hpass⟩ := h
  exact ⟨s', fun form => run_exhausted hlength hpass⟩

/-- A statement finds nothing if it is exhausted, and in no other case. -/
theorem exhausts_iff : inspect.Exhausts host subjects env s ↔
    ((inspect.run host .statement subjects).run (env, s)).1 = .ok none := by
  constructor
  · intro h
    obtain ⟨s', hrun⟩ := h.run
    rw [hrun]
    rfl
  · intro hnone
    rcases run_ends host inspect subjects env s with h | ⟨result, after, hrun, hend⟩
    · exact h
    · rw [hrun] at hnone
      rcases hend with ⟨e, -, rfl⟩ | ⟨found, rfl⟩
      · cases hnone
      · cases hnone

/-- The errors of a statement are those that are raised. -/
theorem raises_iff {e : EvalError} : inspect.Raises host subjects env s e ↔
    ((inspect.run host .statement subjects).run (env, s)).1 = .error e := by
  constructor
  · exact fun h => h.run .statement
  · intro herror
    rcases run_ends host inspect subjects env s with h | ⟨result, after, hrun, hend⟩
    · rw [exhausts_iff.mp h] at herror
      cases herror
    · rw [hrun] at herror
      rcases hend with ⟨e', hraises, rfl⟩ | ⟨found, rfl⟩
      · cases herror
        exact hraises
      · cases herror

theorem run_forms (h : ¬ inspect.Exhausts host subjects env s) :
    (inspect.run host .expression subjects).run (env, s) =
      (inspect.run host .statement subjects).run (env, s) := by
  rcases run_ends host inspect subjects env s with h' | ⟨result, after, hrun, -⟩
  · exact absurd h' h
  · rw [hrun, hrun]

theorem exhausts_recorded_iff :
    inspect.Exhausts host.recorded subjects env (s, []) ↔ inspect.Exhausts host subjects env s := by
  rw [exhausts_iff, exhausts_iff, run_recorded]

theorem events_forms (h : ¬ inspect.Exhausts host subjects env s) :
    inspect.events host .expression subjects env s =
      inspect.events host .statement subjects env s := by
  rw [Inspect.events, Inspect.events, run_forms (exhausts_recorded_iff.not.mpr h)]

/-- An exhausted run does the same in both forms but for the state it ends in. -/
theorem Exhausts.events (h : inspect.Exhausts host subjects env s) :
    ∃ common, ∀ form, inspect.events host form subjects env s =
      common ++ [.entered (some (.scanning inspect.arms.length)) form.exhausted] := by
  obtain ⟨hlength, s', hpass⟩ := h
  obtain ⟨events, -, hrun⟩ := run_recorded_exhausted hlength hpass
  exact ⟨events, fun form => by rw [Inspect.events, hrun form]⟩

/-! ## Calls -/

/-- What happens in a statement. -/
def executed (host : InspectHost γ σ α Unit) (inspect : Inspect γ α) (subjects : List Value)
    (env : Environment) (s : σ) : List (Event γ α) :=
  ((inspect.execute host.recorded subjects).run (env, (s, []))).2.2.2

/-- What happens in an expression. -/
def evaluated (host : InspectHost γ σ α β) (inspect : Inspect γ α) (subjects : List Value)
    (env : Environment) (s : σ) : List (Event γ α) :=
  ((inspect.evaluate host.recorded subjects).run (env, (s, []))).2.2.2

theorem executed_eq (host : InspectHost γ σ α Unit) (inspect : Inspect γ α)
    (subjects : List Value) (env : Environment) (s : σ) :
    inspect.executed host subjects env s = inspect.events host .statement subjects env s := by
  rw [executed, run_execute]
  rfl

theorem evaluated_eq (host : InspectHost γ σ α β) (inspect : Inspect γ α)
    (subjects : List Value) (env : Environment) (s : σ) :
    inspect.evaluated host subjects env s = inspect.events host .expression subjects env s := by
  rw [evaluated, run_evaluate]
  rfl

/-- What it is for the forms to differ in nothing but what they do when they are exhausted. -/
structure FormsAgree (host : InspectHost γ σ α Unit) (inspect : Inspect γ α)
    (subjects : List Value) (env : Environment) (s : σ) : Prop where
  miscounted : subjects.length ≠ inspect.subjectCount →
    (inspect.execute host subjects).run (env, s) =
      (.error (.shapeMismatch s!"{inspect.subjectCount} subjects" (toString subjects.length)),
        (env, s)) ∧
    (inspect.evaluate host subjects).run (env, s) =
      (.error (.shapeMismatch s!"{inspect.subjectCount} subjects" (toString subjects.length)),
        (env, s)) ∧
    inspect.executed host subjects env s = [] ∧ inspect.evaluated host subjects env s = []
  matched : (∃ i, ((inspect.execute host subjects).run (env, s)).1 = .ok (.matched i)) ↔
    ((inspect.evaluate host subjects).run (env, s)).1 = .ok ()
  fellThrough : ((inspect.execute host subjects).run (env, s)).1 = .ok .fellThrough ↔
    inspect.Exhausts host subjects env s
  noMatch : ((inspect.execute host subjects).run (env, s)).1 = .ok .fellThrough →
    ((inspect.evaluate host subjects).run (env, s)).1 =
      .error ⟨.noMatch, some (Span.mergeAll (inspect.arms.map (·.pattern.span)))⟩
  raised : ∀ e, ((inspect.execute host subjects).run (env, s)).1 = .error e ↔
    inspect.Raises host subjects env s e
  failed : ∀ e, ((inspect.execute host subjects).run (env, s)).1 = .error e →
    ((inspect.evaluate host subjects).run (env, s)).1 = .error e
  environment : ((inspect.execute host subjects).run (env, s)).2.1 =
    ((inspect.evaluate host subjects).run (env, s)).2.1
  /-- Otherwise the state that a run is exhausted in is the only difference. -/
  events : inspect.executed host subjects env s = inspect.evaluated host subjects env s ∧
      ((inspect.execute host subjects).run (env, s)).2 =
        ((inspect.evaluate host subjects).run (env, s)).2 ∨
    inspect.Exhausts host subjects env s ∧ ∃ common s',
      inspect.executed host subjects env s =
        common ++ [.entered (some (.scanning inspect.arms.length)) .done] ∧
      inspect.evaluated host subjects env s =
        common ++ [.entered (some (.scanning inspect.arms.length)) .noMatchFailure] ∧
      ((inspect.execute host subjects).run (env, s)).2 =
        (env, host.shown (some (.scanning inspect.arms.length)) .done s') ∧
      ((inspect.evaluate host subjects).run (env, s)).2 =
        (env, host.shown (some (.scanning inspect.arms.length)) .noMatchFailure s')

section Ends

variable {result : Except EvalError (Option (Nat × Unit))}

theorem bind_outcomeOf_error {e : EvalError} :
    result.bind outcomeOf = .error e ↔ result = .error e := by
  rcases result with e' | _ | found <;> simp [Except.bind, outcomeOf]

theorem bind_outcomeOf_fellThrough :
    result.bind outcomeOf = .ok .fellThrough ↔ result = .ok none := by
  rcases result with e | _ | found <;> simp [Except.bind, outcomeOf]

theorem bind_outcomeOf_matched :
    (∃ i, result.bind outcomeOf = .ok (.matched i)) ↔ result.bind valueOf = .ok () := by
  rcases result with e | _ | found <;> simp [Except.bind, outcomeOf, valueOf]

end Ends

theorem formsAgree_of_exhausts {host : InspectHost γ σ α Unit}
    (h : inspect.Exhausts host subjects env s) : FormsAgree host inspect subjects env s := by
  obtain ⟨s', hrun⟩ := h.run
  obtain ⟨common, hevents⟩ := h.events
  have hexecute : (inspect.execute host subjects).run (env, s) = (.ok .fellThrough,
      (env, host.shown (some (.scanning inspect.arms.length)) .done s')) := by
    rw [run_execute, hrun]
    rfl
  have hevaluate : (inspect.evaluate host subjects).run (env, s) = (.error inspect.noMatch,
      (env, host.shown (some (.scanning inspect.arms.length)) .noMatchFailure s')) := by
    rw [run_evaluate, hrun]
    rfl
  constructor
  case miscounted => exact fun hlength => absurd h.1 hlength
  case matched => simp [hexecute, hevaluate]
  case fellThrough => simp [hexecute, h]
  case noMatch =>
    intro _
    rw [hevaluate]
    rfl
  case raised =>
    intro e
    rw [raises_iff, exhausts_iff.mp h, hexecute]
    simp
  case failed => simp [hexecute]
  case environment => rw [hexecute, hevaluate]
  case events =>
    refine .inr ⟨h, common, s', ?_, ?_, by rw [hexecute], by rw [hevaluate]⟩
    · rw [executed_eq, hevents]
      rfl
    · rw [evaluated_eq, hevents]
      rfl

/-- A run that ends in the same way in both forms, and not for want of a match. -/
theorem formsAgree_of_ended {host : InspectHost γ σ α Unit}
    {result : Except EvalError (Option (Nat × Unit))} {after : Environment × σ}
    (hrun : ∀ form, (inspect.run host form subjects).run (env, s) = (result, after))
    (hresult : result ≠ .ok none) : FormsAgree host inspect subjects env s := by
  have hexecute : (inspect.execute host subjects).run (env, s) =
      (result.bind outcomeOf, after) := by
    rw [run_execute, hrun]
  have hevaluate : (inspect.evaluate host subjects).run (env, s) =
      (result.bind valueOf, after) := by
    rw [run_evaluate, hrun]
  have hexhausts : ¬ inspect.Exhausts host subjects env s := by
    rw [exhausts_iff, hrun]
    exact hresult
  have hfell : result.bind outcomeOf ≠ .ok .fellThrough :=
    bind_outcomeOf_fellThrough.not.mpr hresult
  have hevents : inspect.executed host subjects env s = inspect.evaluated host subjects env s := by
    rw [executed_eq, evaluated_eq, events_forms hexhausts]
  constructor
  case miscounted =>
    intro hlength
    have hempty : inspect.executed host subjects env s = [] := by
      rw [executed_eq, Inspect.events, run_miscounted hlength]
    have hmiscounted := hrun .statement
    rw [run_miscounted hlength] at hmiscounted
    cases hmiscounted
    exact ⟨hexecute, hevaluate, hempty, hevents.symm.trans hempty⟩
  case matched =>
    rw [hexecute, hevaluate]
    exact bind_outcomeOf_matched
  case fellThrough =>
    rw [hexecute]
    exact iff_of_false hfell hexhausts
  case noMatch =>
    rw [hexecute]
    exact fun h => absurd h hfell
  case raised =>
    intro e
    rw [raises_iff, hrun, hexecute]
    exact bind_outcomeOf_error
  case failed =>
    rw [hexecute, hevaluate]
    intro e h
    rw [bind_outcomeOf_error.mp h]
    rfl
  case environment => rw [hexecute, hevaluate]
  case events => exact .inl ⟨hevents, by rw [hexecute, hevaluate]⟩

/-- The two forms of every inspect of actions without a value differ only when they are
exhausted. -/
theorem formsAgree (host : InspectHost γ σ α Unit) (inspect : Inspect γ α) (subjects : List Value)
    (env : Environment) (s : σ) : FormsAgree host inspect subjects env s := by
  rcases run_ends host inspect subjects env s with h | ⟨_, _, hrun, ⟨_, _, rfl⟩ | ⟨_, rfl⟩⟩
  · exact formsAgree_of_exhausts h
  · exact formsAgree_of_ended hrun (by simp)
  · exact formsAgree_of_ended hrun (by simp)

/-- An action that raises the error of having no match ends a statement with it, though an arm
matched. -/
example : ((numbers.execute (tallyHost fun _ => throw (.of .noMatch)) [.int 7]).run
    (Environment.initial, 0)).1 = .error (.of .noMatch) := by with_unfolding_all rfl

end Inspect

end TaggedMatch
