import TaggedMatch.Proofs.Inspect.FirstMatch
import TaggedMatch.Proofs.Pattern.Congruence

/-!
# The events of a run

What a run of an inspect does, in what order, is not part of its result. `InspectHost.recorded` is a
program that writes it down: the states that it is shown, the questions that matches ask it, and the
actions that it performs, each with the environment that it begins in. What an action does, other
inspects included, is its own affair.

Nothing else is different. A match on the recording program is the match on the program whose calls
are recorded: the two are asked the same questions in turn, and so they agree by `Node.run_agree`.
From there on the search for an arm is followed step by step.
-/

namespace TaggedMatch

variable {γ σ α β : Type}

/-- Something that happens in the run of an inspect. -/
inductive Event (γ α : Type) where
  /-- A state is entered. -/
  | entered (previous : Option MatchState) (state : MatchState)
  /-- The match of an arm asks a question. -/
  | called (call : Call γ)
  /-- An action begins in this environment. -/
  | performed (action : α) (env : Environment)

/-- The state that is entered, if one is. -/
def Event.state? : Event γ α → Option MatchState
  | .entered _ state => some state
  | .called _ | .performed .. => none

/-- The states that are entered, in order. -/
def Event.states (events : List (Event γ α)) : List MatchState := events.filterMap state?

@[simp] theorem Event.states_nil : states ([] : List (Event γ α)) = [] := rfl

@[simp] theorem Event.states_entered (previous : Option MatchState) (state : MatchState)
    (events : List (Event γ α)) :
    states (.entered previous state :: events) = state :: states events := rfl

@[simp] theorem Event.states_performed (action : α) (env : Environment)
    (events : List (Event γ α)) : states (.performed action env :: events) = states events := rfl

@[simp] theorem Event.states_append (events more : List (Event γ α)) :
    states (events ++ more) = states events ++ states more :=
  List.filterMap_append

@[simp] theorem Event.states_called (calls : List (Call γ)) :
    states (calls.map .called : List (Event γ α)) = [] := by
  rw [states, List.filterMap_map]
  exact List.filterMap_eq_nil_iff.mpr fun _ _ => rfl

/-- The same computation, which writes an event down. -/
def noting (m : StateM σ β) (event : β → Event γ α) : StateM (σ × List (Event γ α)) β := fun s =>
  ((m.run s.1).1, ((m.run s.1).2, s.2 ++ [event (m.run s.1).1]))

namespace InspectHost

/-- The same program, which writes every event down. -/
def recorded (host : InspectHost γ σ α β) : InspectHost γ (σ × List (Event γ α)) α β where
  test guard scope :=
    ExceptT.mk (noting (host.test guard scope).run fun answer => .called (.test guard scope answer))
  givesPieces object :=
    noting (host.givesPieces object) fun answer => .called (.givesPieces object answer)
  piece object index :=
    noting (host.piece object index) fun answer => .called (.piece object index answer)
  givesVariant object :=
    noting (host.givesVariant object) fun answer => .called (.givesVariant object answer)
  discriminator object :=
    noting (host.discriminator object) fun answer => .called (.discriminator object answer)
  alternative object active :=
    noting (host.alternative object active) fun answer =>
      .called (.alternative object active answer)
  act action := ExceptT.mk fun x =>
    let after := (host.act action).run (x.1, x.2.1)
    (after.1, (after.2.1, (after.2.2, x.2.2 ++ [.performed action x.1])))
  observe previous state := noting (host.observe previous state) fun _ => .entered previous state

/-! ## Matches are recorded -/

/-- The same state of the program, and after `earlier` the same calls. -/
def Follows (earlier : List (Event γ α)) (x : σ × List (Event γ α)) (y : σ × List (Call γ)) :
    Prop :=
  x.1 = y.1 ∧ x.2 = earlier ++ y.2.map .called

theorem parallel_noting {Q : β → β → Prop} (hQ : ∀ a, Q a a) (earlier : List (Event γ α))
    (m : StateM σ β) (call : β → Call γ) :
    Parallel (Follows earlier) Q (noting m fun answer => .called (call answer))
      (recording m call) := by
  intro ⟨s, events⟩ ⟨t, calls⟩ ⟨hstate, hevents⟩
  dsimp only at hstate hevents
  subst hstate hevents
  refine ⟨hQ _, rfl, ?_⟩
  show earlier ++ calls.map .called ++ [.called (call (m.run s).1)] =
    earlier ++ (calls ++ [call (m.run s).1]).map .called
  rw [List.map_append, List.append_assoc]
  rfl

theorem agrees_recorded (host : InspectHost γ σ α β) (earlier : List (Event γ α)) :
    Host.Agrees host.recorded.toHost host.toHost.recorded (Follows earlier) Eq Eq
      fun _ => True where
  alike heq := heq ▸ .refl fun _ _ => rfl
  bound heq := heq
  test _ scope scope' hscope := by
    obtain rfl : scope = scope' := funext fun name => optionRel_eq.mp (hscope name)
    exact fun _ _ h => parallel_noting (SameEnd.refl fun _ => rfl) earlier _ _ _ _ h
  givesPieces _ := parallel_noting (fun _ => rfl) earlier _ _
  piece _ _ := parallel_noting (fun _ => optionRel_eq.mpr rfl) earlier _ _
  givesVariant _ := parallel_noting (fun _ => rfl) earlier _ _
  discriminator _ := parallel_noting (fun _ => rfl) earlier _ _
  alternative _ _ _ _ _ _ _ _ hS :=
    parallel_noting (fun _ => optionRel_eq.mpr rfl) earlier _ _ _ _ hS

/-- A match does what it does unrecorded, and its calls are written down. -/
theorem run_recorded (host : InspectHost γ σ α β) (c : Compiled γ) (v : Value) (outer : Lookup)
    (s : σ) (earlier : List (Event γ α)) :
    (c.run host.recorded.toHost v outer).run (s, earlier) =
      (((c.run host.toHost v outer).run s).1, (((c.run host.toHost v outer).run s).2,
        earlier ++ (c.calls host.toHost v outer s).map .called)) := by
  have houter : outer.Related Eq outer := fun _ => optionRel_eq.mpr rfl
  have hagree : Agree.Matching (Follows earlier) Eq (c.run host.recorded.toHost v outer)
      (c.run host.toHost.recorded v outer) :=
    Node.run_agree (host.agrees_recorded earlier) houter c.root (fun _ _ => trivial) rfl .nil
  obtain ⟨hend, hstate, hevents⟩ := hagree (s, earlier) (s, []) ⟨rfl, by simp⟩
  rw [Compiled.run_recorded] at hend hstate hevents
  have hresult := hend.eq fun _ _ hfound =>
    optionRel_eq.mp (optionRel_imp hfound fun _ _ _ h => h.eq)
  exact Prod.ext hresult (Prod.ext hstate hevents)

/-! ## The search is recorded -/

variable {host : InspectHost γ σ α β} {outer : Lookup} {subject : Value} {arms : List (Arm γ α)}
variable {arm : Arm γ α} {s s' : σ} {env : Environment} {i : Nat}

theorem shown_recorded (previous : Option MatchState) (state : MatchState)
    (events : List (Event γ α)) :
    host.recorded.shown previous state (s, events) =
      (host.shown previous state s, events ++ [.entered previous state]) := rfl

/-- Each arm that passes lets the scan enter the state of the next one, and no other. -/
theorem Passes.recorded (h : host.Passes outer subject i arms s s') (earlier : List (Event γ α)) :
    ∃ events, host.recorded.Passes outer subject i arms (s, earlier) (s', events) ∧
      Event.states events =
        Event.states earlier ++ (List.range' (i + 1) arms.length).map .scanning := by
  induction h generalizing earlier with
  | nil => exact ⟨earlier, .nil, by simp⟩
  | @cons i arm rest s after s' missed _ ih =>
      have hmissed := host.run_recorded arm.pattern subject outer s earlier
      rw [missed] at hmissed
      obtain ⟨events, hpasses, hstates⟩ := ih (earlier ++
        (arm.pattern.calls host.toHost subject outer s).map .called ++
          [.entered (some (.scanning i)) (.scanning (i + 1))])
      refine ⟨events, .cons hmissed hpasses, ?_⟩
      rw [hstates, List.length_cons, List.range'_succ]
      simp

theorem Decides.recorded {result : Except EvalError (Option Bindings)}
    (h : host.Decides outer subject arms s i arm result s') (earlier : List (Event γ α)) :
    ∃ events, host.recorded.Decides outer subject arms (s, earlier) i arm result (s', events) ∧
      Event.states events = Event.states earlier ++ (List.range' 1 i).map .scanning := by
  obtain ⟨before, after, s₀, hsplit, rfl, hpasses, hrun, hresult⟩ := h
  obtain ⟨events, hpasses', hstates⟩ := hpasses.recorded earlier
  have hrun' := host.run_recorded arm.pattern subject outer s₀ events
  rw [hrun] at hrun'
  refine ⟨_, ⟨before, after, _, hsplit, rfl, hpasses', hrun', hresult⟩, ?_⟩
  simpa using hstates

theorem finished_recorded {ρ : Type} (i : Nat) (answer : β → ρ) (action : α)
    (events : List (Event γ α)) :
    host.recorded.finished i answer ((host.recorded.act action).run (env, (s, events))) =
      match (host.act action).run (env, s) with
      | (.ok value, env', s') => (.ok (answer value), (env'.pop,
          (host.shown (some (.matched i)) .done s',
            events ++ [.performed action env, .entered (some (.matched i)) .done])))
      | (.error e, env', s') =>
          (.error e, (env'.pop, (s', events ++ [.performed action env]))) := by
  have hact : (host.recorded.act action).run (env, (s, events)) =
      (((host.act action).run (env, s)).1, (((host.act action).run (env, s)).2.1,
        (((host.act action).run (env, s)).2.2, events ++ [.performed action env]))) := rfl
  rw [hact]
  rcases (host.act action).run (env, s) with ⟨_ | value, env', s'⟩
  · rfl
  · show (_, (_, host.recorded.shown _ _ _)) = _
    rw [shown_recorded, List.append_assoc]
    rfl

end InspectHost

namespace Inspect

variable {host : InspectHost γ σ α β} {inspect : Inspect γ α} {subjects : List Value}
variable {env : Environment} {s s' : σ} {i : Nat} {arm : Arm γ α}

/-- A search ends with no match, with an error, or with a match. -/
theorem search_ends (host : InspectHost γ σ α β) (inspect : Inspect γ α) (subjects : List Value)
    (env : Environment) (s : σ) :
    (∃ s', inspect.AllPass host subjects env s s') ∨
      (∃ i arm e s', inspect.FirstAt host subjects env s i arm (.error e) s') ∨
        ∃ i arm bindings s', inspect.FirstAt host subjects env s i arm (.ok (some bindings)) s' := by
  rcases InspectHost.passes_or_decides host env.lookup (Value.joint subjects) inspect.arms
    (host.shown none (.scanning 0) s) with hpass | ⟨i, arm, result, s', hfirst⟩
  · exact .inl hpass
  · match result with
    | .error e => exact .inr (.inl ⟨i, arm, e, s', hfirst⟩)
    | .ok (some bindings) => exact .inr (.inr ⟨i, arm, bindings, s', hfirst⟩)
    | .ok none => exact absurd rfl (FirstAt.ne_none hfirst)

/-- What happens in a run that begins in the state `s`. -/
def events (host : InspectHost γ σ α β) (form : Form) (inspect : Inspect γ α)
    (subjects : List Value) (env : Environment) (s : σ) : List (Event γ α) :=
  ((inspect.run host.recorded form subjects).run (env, (s, []))).2.2.2

/-- The states of a run that tries arms up to this one. -/
def scanned (last : Nat) : List MatchState := (List.range (last + 1)).map .scanning

theorem scanned_eq (last : Nat) :
    scanned last = .scanning 0 :: (List.range' 1 last).map .scanning := by
  rw [scanned, List.range_eq_range', List.range'_succ, List.map_cons]

theorem AllPass.recorded (passed : inspect.AllPass host subjects env s s') :
    ∃ events, inspect.AllPass host.recorded subjects env (s, []) (s', events) ∧
      Event.states events = scanned inspect.arms.length := by
  obtain ⟨events, hpasses, hstates⟩ := InspectHost.Passes.recorded passed
    [.entered none (.scanning 0)]
  exact ⟨events, hpasses, hstates.trans (scanned_eq _).symm⟩

theorem FirstAt.recorded {result : Except EvalError (Option Bindings)}
    (first : inspect.FirstAt host subjects env s i arm result s') :
    ∃ events, inspect.FirstAt host.recorded subjects env (s, []) i arm result (s', events) ∧
      Event.states events = scanned i := by
  obtain ⟨events, hdecides, hstates⟩ := InspectHost.Decides.recorded first
    [.entered none (.scanning 0)]
  exact ⟨events, hdecides, hstates.trans (scanned_eq _).symm⟩

/-- When no arm matches, only the last state that is entered depends on the form. -/
theorem run_recorded_exhausted (h : subjects.length = inspect.subjectCount)
    (passed : inspect.AllPass host subjects env s s') :
    ∃ events : List (Event γ α), Event.states events = scanned inspect.arms.length ∧
      ∀ form, (inspect.run host.recorded form subjects).run (env, (s, [])) =
        (inspect.unmatched form, (env,
          (host.shown (some (.scanning inspect.arms.length)) form.exhausted s',
            events ++ [.entered (some (.scanning inspect.arms.length)) form.exhausted]))) := by
  obtain ⟨events, hpassed, hstates⟩ := passed.recorded
  exact ⟨events, hstates, fun form => run_exhausted h hpassed⟩

theorem run_recorded_failed {e : EvalError} (h : subjects.length = inspect.subjectCount)
    (first : inspect.FirstAt host subjects env s i arm (.error e) s') :
    ∃ events : List (Event γ α), Event.states events = scanned i ∧
      ∀ form, (inspect.run host.recorded form subjects).run (env, (s, [])) =
        (.error e, (env, (s', events))) := by
  obtain ⟨events, hfirst, hstates⟩ := first.recorded
  exact ⟨events, hstates, fun form => run_failed h hfirst⟩

theorem run_recorded_found {bindings : Bindings} (h : subjects.length = inspect.subjectCount)
    (first : inspect.FirstAt host subjects env s i arm (.ok (some bindings)) s') :
    ∃ events : List (Event γ α), Event.states events = scanned i ∧
      ∀ form, (inspect.run host.recorded form subjects).run (env, (s, [])) =
        host.recorded.finished i (fun value => some (i, value)) ((host.recorded.act arm.action).run
          (env.within bindings, (host.shown (some (.scanning i)) (.matched i) s',
            events ++ [.entered (some (.scanning i)) (.matched i)]))) := by
  obtain ⟨events, hfirst, hstates⟩ := first.recorded
  exact ⟨events, hstates, fun form => run_found h hfirst⟩

/-- A run does what it does unrecorded, and its events are written down. -/
theorem run_recorded (host : InspectHost γ σ α β) (form : Form) (inspect : Inspect γ α)
    (subjects : List Value) (env : Environment) (s : σ) :
    (inspect.run host.recorded form subjects).run (env, (s, [])) =
      (((inspect.run host form subjects).run (env, s)).1,
        (((inspect.run host form subjects).run (env, s)).2.1,
          (((inspect.run host form subjects).run (env, s)).2.2,
            inspect.events host form subjects env s))) := by
  by_cases hlength : subjects.length = inspect.subjectCount
  · rcases inspect.search_ends host subjects env s with
      ⟨s', hpass⟩ | ⟨i, arm, e, s', hfirst⟩ | ⟨i, arm, bindings, s', hfirst⟩
    · obtain ⟨events, -, hrun⟩ := run_recorded_exhausted hlength hpass
      rw [Inspect.events, hrun form, run_exhausted hlength hpass]
    · obtain ⟨events, -, hrun⟩ := run_recorded_failed hlength hfirst
      rw [Inspect.events, hrun form, run_failed hlength hfirst]
    · obtain ⟨events, -, hrun⟩ := run_recorded_found hlength hfirst
      rw [Inspect.events, hrun form, run_found hlength hfirst, InspectHost.finished_recorded]
      rcases (host.act arm.action).run (env.within bindings,
        host.shown (some (.scanning i)) (.matched i) s') with ⟨_ | _, _, _⟩
      · rfl
      · rfl
  · rw [Inspect.events, run_miscounted hlength, run_miscounted hlength]

end Inspect

end TaggedMatch
