import TaggedMatch.Proofs.Inspect.Events

/-!
# The states of a run

A run is told as a recursion over the arms. It can be told as well as a machine that goes from state
to state: at a state `scanning i` it looks arm `i` up and matches it, at `matched i` it looks arm
`i` up once more and runs its action with the bindings that were kept, and it stops at a terminal
state. Told like that it is not plain that it stops, nor that the arm of a match is still found when
its action is to run. `drive` is the machine, for a number of transitions that is given to it, with
an error of one's choice for an arm that is not found. With one transition more than there are arms
it is the run, and as the choice of the error makes no difference the error is never raised.

The states that a run enters are then read off the events of its search: the arms up to the one that
decides are scanned, one after the other, and what comes after that is at most two states.
-/

namespace TaggedMatch

variable {γ σ α β : Type}

namespace Inspect

/-! ## The machine -/

/-- How far the machine has come: its state, the bindings that it keeps for the action, and what the
action gave. -/
structure Progress (β : Type) where
  state : MatchState
  bindings : Bindings
  result : Option (Nat × β)

variable (host : InspectHost γ σ α β) (form : Form) (missing : Nat → EvalError)
variable (inspect : Inspect γ α) (subject : Value)

/-- Runs the action of an arm that is still to be looked up. -/
def runAction (i : Nat) (bindings : Bindings) : Action σ β :=
  match inspect.arms[i]? with
  | some arm => host.perform arm.action bindings
  | none => throw (missing i)

/-- What the machine does in its state, up to entering the next. -/
def advance (progress : Progress β) : Action σ (Progress β) :=
  match progress.state with
  | .scanning i =>
      match inspect.arms[i]? with
      | some arm => do
          match ← host.tryArm arm subject with
          | some bindings => pure { progress with state := .matched i, bindings }
          | none => pure { progress with state := .scanning (i + 1) }
      | none => pure { progress with state := form.exhausted }
  | .matched i => do
      let value ← inspect.runAction host missing i progress.bindings
      pure ⟨.done, [], some (i, value)⟩
  | .done | .noMatchFailure => pure progress

/-- Makes so many transitions at most, and stops where a terminal state is reached. -/
def drive : Nat → Progress β → Action σ (Option (Progress β))
  | 0, progress => pure (if progress.state.isTerminal then some progress else none)
  | turns + 1, progress =>
      if progress.state.isTerminal then pure (some progress)
      else do
        let next ← inspect.advance host form missing subject progress
        host.enter (some progress.state) next.state
        drive turns next

/-- Runs an inspect on the machine, with so many transitions. Nothing comes out if they are too
few. -/
def loop (turns : Nat) (subjects : List Value) : Action σ (Option (Option (Nat × β))) := do
  match inspect.subjectValue subjects with
  | .error e => throw e
  | .ok subject =>
      host.enter none (.scanning 0)
      match ← inspect.drive host form missing subject turns ⟨.scanning 0, [], none⟩ with
      | none => pure none
      | some progress =>
          if progress.state = .noMatchFailure then throw inspect.noMatch
          else pure (some progress.result)

/-! ## The machine is the run -/

section Machine

variable {host form missing inspect subject}
variable {turns i : Nat} {bindings : Bindings} {arm : Arm γ α}

theorem drive_terminal {progress : Progress β} (h : progress.state.isTerminal = true) :
    inspect.drive host form missing subject turns progress = pure (some progress) := by
  cases turns with
  | zero => rw [drive, if_pos h]
  | succ turns => rw [drive, if_pos h]

theorem drive_succ {progress : Progress β} (h : progress.state.isTerminal = false) :
    inspect.drive host form missing subject (turns + 1) progress = (do
      let next ← inspect.advance host form missing subject progress
      host.enter (some progress.state) next.state
      inspect.drive host form missing subject turns next) := by
  rw [drive, if_neg (by simp [h])]

theorem advance_exhausted (h : inspect.arms[i]? = none) :
    inspect.advance host form missing subject ⟨.scanning i, bindings, none⟩ =
      pure ⟨form.exhausted, bindings, none⟩ := by
  simp only [advance, h]

theorem advance_scanning (h : inspect.arms[i]? = some arm) :
    inspect.advance host form missing subject ⟨.scanning i, bindings, none⟩ = (do
      match ← host.tryArm arm subject with
      | some found => pure ⟨.matched i, found, none⟩
      | none => pure ⟨.scanning (i + 1), bindings, none⟩) := by
  simp only [advance, h]

theorem advance_matched (h : inspect.arms[i]? = some arm) :
    inspect.advance host form missing subject ⟨.matched i, bindings, none⟩ = (do
      let value ← host.perform arm.action bindings
      pure ⟨.done, [], some (i, value)⟩) := by
  simp only [advance, runAction, h]

theorem drive_matched (h : inspect.arms[i]? = some arm) :
    inspect.drive host form missing subject (turns + 1) ⟨.matched i, bindings, none⟩ = (do
      let value ← host.perform arm.action bindings
      host.enter (some (.matched i)) .done
      pure (some ⟨.done, [], some (i, value)⟩)) := by
  rw [drive_succ rfl, advance_matched h]
  simp only [bind_assoc, pure_bind]
  exact bind_congr fun value => bind_congr fun _ => drive_terminal rfl

/-- Where the machine stops after a search. -/
def Progress.after (form : Form) (bindings : Bindings) : Option (Nat × β) → Progress β
  | some found => ⟨.done, [], some found⟩
  | none => ⟨form.exhausted, bindings, none⟩

/-- From `scanning i` on the machine goes through the arms from arm `i` on, in one transition each
and one more. -/
theorem drive_scanning {rest : List (Arm γ α)} (hrest : inspect.arms.drop i = rest)
    (hturns : rest.length + 1 ≤ turns) :
    inspect.drive host form missing subject turns ⟨.scanning i, bindings, none⟩ =
      (fun found => some (.after form bindings found)) <$> host.scan form subject i rest := by
  -- On the arms that are left: each takes a turn, and there is one more for what comes at the end.
  obtain ⟨turns, rfl⟩ : ∃ t, turns = t + 1 := ⟨turns - 1, by omega⟩
  induction rest generalizing i turns with
  | nil =>
      have harm : inspect.arms[i]? = none :=
        List.getElem?_eq_none_iff.mpr (List.drop_eq_nil_iff.mp hrest)
      rw [drive_succ rfl, advance_exhausted harm, pure_bind, InspectHost.scan, map_bind]
      refine bind_congr fun _ => ?_
      rw [map_pure]
      refine drive_terminal ?_
      cases form <;> rfl
  | cons arm rest ih =>
      have harm : inspect.arms[i]? = some arm := by
        rw [← List.head?_drop, hrest]
        rfl
      obtain ⟨turns, rfl⟩ : ∃ t, turns = t + 1 :=
        ⟨turns - 1, by rw [List.length_cons] at hturns; omega⟩
      rw [drive_succ rfl, advance_scanning harm, InspectHost.scan, bind_assoc, map_bind]
      refine bind_congr fun result => ?_
      cases result with
      | some found =>
          simp only [pure_bind, map_bind, map_pure]
          refine bind_congr fun _ => ?_
          exact drive_matched harm
      | none =>
          simp only [pure_bind, map_bind]
          refine bind_congr fun _ => ih ?_ turns ?_
          · rw [← List.drop_drop, hrest]
            rfl
          · rw [List.length_cons] at hturns
            omega

/-- One transition more than there are arms is enough, and no arm is ever missing. -/
theorem loop_eq (host : InspectHost γ σ α β) (form : Form) (missing : Nat → EvalError)
    (inspect : Inspect γ α) (subjects : List Value) (hturns : inspect.arms.length + 1 ≤ turns) :
    inspect.loop host form missing turns subjects = some <$> inspect.run host form subjects := by
  unfold loop run
  cases inspect.subjectValue subjects with
  | error e => rfl
  | ok subject =>
      dsimp only
      rw [map_bind, drive_scanning rfl hturns]
      refine bind_congr fun _ => ?_
      rw [bind_map_left, map_bind]
      refine bind_congr fun found => ?_
      cases found with
      | none => cases form <;> rfl
      | some found => cases form <;> rfl

end Machine

/-! ## Courses -/

/-- The states of a run through so many arms, and the arm whose action gave a value, if one did. -/
inductive Course (form : Form) (arms : Nat) : List MatchState → Option Nat → Prop
  | exhausted : Course form arms (scanned arms ++ [form.exhausted]) none
  | failed {i : Nat} (hi : i < arms) : Course form arms (scanned i) none
  | broken {i : Nat} (hi : i < arms) : Course form arms (scanned i ++ [.matched i]) none
  | returned {i : Nat} (hi : i < arms) :
      Course form arms (scanned i ++ [.matched i, .done]) (some i)

@[simp] theorem length_scanned (last : Nat) : (scanned last).length = last + 1 := by
  simp [scanned]

@[simp] theorem mem_scanned {last : Nat} {state : MatchState} :
    state ∈ scanned last ↔ ∃ i ≤ last, state = .scanning i := by
  rw [scanned, List.mem_map]
  constructor
  · rintro ⟨i, hi, rfl⟩
    exact ⟨i, Nat.le_of_lt_succ (List.mem_range.mp hi), rfl⟩
  · rintro ⟨i, hi, rfl⟩
    exact ⟨i, List.mem_range.mpr (Nat.lt_succ_of_le hi), rfl⟩

theorem isTerminal_of_mem_scanned {last : Nat} {state : MatchState} (h : state ∈ scanned last) :
    state.isTerminal = false := by
  obtain ⟨i, -, rfl⟩ := mem_scanned.mp h
  rfl

namespace Course

variable {form : Form} {arms : Nat} {states : List MatchState} {found : Option Nat}

theorem length_le (h : Course form arms states found) : states.length ≤ arms + 2 := by
  cases h <;> simp <;> omega

theorem goesOn (h : Course form arms states found) :
    ∀ state ∈ states.dropLast, state.isTerminal = false := by
  intro state hstate
  cases h with
  | exhausted =>
      rw [List.dropLast_concat] at hstate
      exact isTerminal_of_mem_scanned hstate
  | failed hi => exact isTerminal_of_mem_scanned (List.dropLast_subset _ hstate)
  | broken hi =>
      rw [List.dropLast_concat] at hstate
      exact isTerminal_of_mem_scanned hstate
  | @returned i hi =>
      have hlast : scanned i ++ [MatchState.matched i, .done] =
          scanned i ++ [.matched i] ++ [.done] := by simp
      rw [hlast, List.dropLast_concat, List.mem_append] at hstate
      rcases hstate with hstate | hstate
      · exact isTerminal_of_mem_scanned hstate
      · obtain rfl := List.mem_singleton.mp hstate
        rfl

theorem noMatchFailure_notMem (h : Course .statement arms states found) :
    .noMatchFailure ∉ states := by
  cases h <;> simp [Form.exhausted]

theorem matched_lt (h : Course form arms states found) {i : Nat} (hmem : .matched i ∈ states) :
    i < arms := by
  cases h with
  | exhausted => cases form <;> simp [Form.exhausted] at hmem
  | failed hi => simp at hmem
  | broken hi =>
      obtain rfl : i = _ := by simpa using hmem
      exact hi
  | returned hi =>
      obtain rfl : i = _ := by simpa using hmem
      exact hi

theorem returned_iff (h : Course form arms states found) (i : Nat) :
    found = some i ↔ [.matched i, .done] <:+: states := by
  constructor
  · rintro rfl
    cases h with
    | returned hi => exact (List.suffix_append _ _).isInfix
  · intro hinfix
    have hmatched : .matched i ∈ states := hinfix.subset (by simp)
    have hdone : .done ∈ states := hinfix.subset (by simp)
    cases h with
    | exhausted => cases form <;> simp [Form.exhausted] at hmatched
    | failed hi => simp at hmatched
    | broken hi => simp at hdone
    | returned hi =>
        obtain rfl : i = _ := by simpa using hmatched
        rfl

end Course

/-! ## The states of a run -/

variable {host : InspectHost γ σ α β} {form : Form} {inspect : Inspect γ α}
variable {subjects : List Value} {env : Environment} {s s' : σ} {i : Nat} {arm : Arm γ α}
variable {bindings : Bindings}

/-- The states that the watcher of a run is shown, in order. -/
def states (host : InspectHost γ σ α β) (form : Form) (inspect : Inspect γ α)
    (subjects : List Value) (env : Environment) (s : σ) : List MatchState :=
  Event.states (inspect.events host form subjects env s)

theorem states_exhausted (h : subjects.length = inspect.subjectCount)
    (passed : inspect.AllPass host subjects env s s') :
    inspect.states host form subjects env s =
      scanned inspect.arms.length ++ [form.exhausted] := by
  obtain ⟨events, hstates, hrun⟩ := run_recorded_exhausted h passed
  rw [states, Inspect.events, hrun form, Event.states_append, hstates]
  rfl

theorem states_failed {e : EvalError} (h : subjects.length = inspect.subjectCount)
    (first : inspect.FirstAt host subjects env s i arm (.error e) s') :
    inspect.states host form subjects env s = scanned i := by
  obtain ⟨events, hstates, hrun⟩ := run_recorded_failed h first
  rw [states, Inspect.events, hrun form, hstates]

/-- What is entered after a match is seen from how the action ends. -/
theorem states_found (h : subjects.length = inspect.subjectCount)
    (first : inspect.FirstAt host subjects env s i arm (.ok (some bindings)) s') :
    inspect.states host form subjects env s = scanned i ++
      match ((host.act arm.action).run
        (env.within bindings, host.shown (some (.scanning i)) (.matched i) s')).1 with
      | .ok _ => [.matched i, .done]
      | .error _ => [.matched i] := by
  obtain ⟨events, hstates, hrun⟩ := run_recorded_found h first
  rw [states, Inspect.events, hrun form, InspectHost.finished_recorded]
  rcases (host.act arm.action).run (env.within bindings,
    host.shown (some (.scanning i)) (.matched i) s') with ⟨_ | _, _, _⟩
  · simp [hstates]
  · simp [hstates]

theorem FirstAt.lt {result : Except EvalError (Option Bindings)}
    (first : inspect.FirstAt host subjects env s i arm result s') : i < inspect.arms.length := by
  obtain ⟨before, after, s₀, hsplit, rfl, -⟩ := first
  rw [hsplit, List.length_append, List.length_cons]
  omega

/-- Every run takes a course, and gives a value if the course tells so. -/
theorem exists_course (host : InspectHost γ σ α β) (form : Form)
    (h : subjects.length = inspect.subjectCount) (env : Environment) (s : σ) :
    ∃ found, Course form inspect.arms.length (inspect.states host form subjects env s) found ∧
      ∀ i, (∃ value, ((inspect.run host form subjects).run (env, s)).1 = .ok (some (i, value))) ↔
        found = some i := by
  rcases inspect.search_ends host subjects env s with
    ⟨s', hpass⟩ | ⟨i, arm, e, s', hfirst⟩ | ⟨i, arm, bindings, s', hfirst⟩
  · rw [states_exhausted h hpass, run_exhausted h hpass]
    refine ⟨none, .exhausted, fun i => ?_⟩
    cases form <;> simp [unmatched]
  · rw [states_failed h hfirst, run_failed h hfirst]
    exact ⟨none, .failed (FirstAt.lt hfirst), by simp⟩
  · rw [states_found h hfirst, run_found h hfirst]
    rcases (host.act arm.action).run (env.within bindings,
      host.shown (some (.scanning i)) (.matched i) s') with ⟨e | value, env', s''⟩
    · exact ⟨none, .broken (FirstAt.lt hfirst), by simp [InspectHost.finished]⟩
    · exact ⟨some i, .returned (FirstAt.lt hfirst), by simp [InspectHost.finished]⟩

/-- What it is for a run to be told by its states: which they are, how many at most, where they may
stand, and what they say about the result. -/
structure Proceeds (host : InspectHost γ σ α β) (form : Form) (inspect : Inspect γ α)
    (subjects : List Value) (env : Environment) (s : σ) : Prop where
  /-- The machine stops in time, and for want of an arm it never fails. -/
  machine : ∀ missing turns, inspect.arms.length + 1 ≤ turns →
    inspect.loop host form missing turns subjects = some <$> inspect.run host form subjects ∧
    inspect.loop host.recorded form missing turns subjects =
      some <$> inspect.run host.recorded form subjects
  searched : (∃ s', inspect.AllPass host subjects env s s') ∨
    ∃ i arm result s', i < inspect.arms.length ∧
      inspect.FirstAt host subjects env s i arm result s'
  exhausted : ∀ s', inspect.AllPass host subjects env s s' →
    inspect.states host form subjects env s = scanned inspect.arms.length ++ [form.exhausted]
  failed : ∀ i arm e s', inspect.FirstAt host subjects env s i arm (.error e) s' →
    inspect.states host form subjects env s = scanned i
  broken : ∀ i arm bindings s' e after,
    inspect.FirstAt host subjects env s i arm (.ok (some bindings)) s' →
    (host.act arm.action).run
      (env.within bindings, host.shown (some (.scanning i)) (.matched i) s') = (.error e, after) →
    inspect.states host form subjects env s = scanned i ++ [.matched i]
  returned : ∀ i arm bindings s' value after,
    inspect.FirstAt host subjects env s i arm (.ok (some bindings)) s' →
    (host.act arm.action).run
      (env.within bindings, host.shown (some (.scanning i)) (.matched i) s') = (.ok value, after) →
    inspect.states host form subjects env s = scanned i ++ [.matched i, .done] ∧
      ((inspect.run host form subjects).run (env, s)).1 = .ok (some (i, value))
  /-- There is one state more than there are transitions. -/
  transitions : (inspect.states host form subjects env s).length ≤ inspect.arms.length + 1 + 1
  goesOn : ∀ state ∈ (inspect.states host form subjects env s).dropLast, state.isTerminal = false
  statement : form = .statement → .noMatchFailure ∉ inspect.states host form subjects env s
  result : ∀ i,
    (∃ value, ((inspect.run host form subjects).run (env, s)).1 = .ok (some (i, value))) ↔
      [.matched i, .done] <:+: inspect.states host form subjects env s
  arms : ∀ i, .matched i ∈ inspect.states host form subjects env s → i < inspect.arms.length

/-- The run of every inspect, in either form, proceeds from state to state like this. -/
theorem proceeds (host : InspectHost γ σ α β) (form : Form)
    (h : subjects.length = inspect.subjectCount) (env : Environment) (s : σ) :
    Proceeds host form inspect subjects env s := by
  obtain ⟨found, hcourse, hresult⟩ := exists_course host form h env s
  constructor
  case machine =>
    intro missing turns hturns
    exact ⟨loop_eq _ _ _ _ _ hturns, loop_eq _ _ _ _ _ hturns⟩
  case searched =>
    rcases InspectHost.passes_or_decides host env.lookup (Value.joint subjects) inspect.arms
      (host.shown none (.scanning 0) s) with hpass | ⟨i, arm, result, s', hfirst⟩
    · exact .inl hpass
    · exact .inr ⟨i, arm, result, s', FirstAt.lt hfirst, hfirst⟩
  case exhausted => exact fun s' hpass => states_exhausted h hpass
  case failed => exact fun i arm e s' hfirst => states_failed h hfirst
  case broken =>
    intro i arm bindings s' e after hfirst hact
    rw [states_found h hfirst, hact]
  case returned =>
    intro i arm bindings s' value after hfirst hact
    rw [states_found h hfirst, run_found h hfirst, hact]
    exact ⟨rfl, rfl⟩
  case transitions => exact hcourse.length_le
  case goesOn => exact hcourse.goesOn
  case statement =>
    rintro rfl
    exact hcourse.noMatchFailure_notMem
  case result => exact fun i => (hresult i).trans (hcourse.returned_iff i)
  case arms => exact fun i => hcourse.matched_lt

theorem proceeds_numbers :
    [Value.int 7].length = numbers.subjectCount ∧
    Proceeds (tallyHost fun n => pure n) .expression numbers [.int 7] Environment.initial 0 ∧
    numbers.states (tallyHost fun n => pure n) .expression [.int 7] Environment.initial 0 =
      [.scanning 0, .scanning 1, .matched 1, .done] :=
  ⟨rfl, proceeds _ _ rfl _ _, by with_unfolding_all rfl⟩

end Inspect

end TaggedMatch
