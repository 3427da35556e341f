import TaggedMatch.Proofs.Inspect.Building
import TaggedMatch.Proofs.Inspect.Search
import TaggedMatch.Proofs.Pattern.Binders

/-!
# The first match wins

What a call of an inspect does, in either form, from the number of its subjects and the first arm
that does not pass. The forms share everything up to the end of the search, so they are taken
together here: `FirstMatch` is about any call that gives some answer to the arm that matched and
another when there is none.

That the guards and objects may do as they like makes these equations say more than they seem to.
The state at the end is made up of what the arms up to the deciding one did in their turn, and the
one action after them. No call to the host is made besides; nor could it be one to a later arm,
since putting other arms in their place changes nothing.
-/

namespace TaggedMatch

variable {γ σ α β ρ ρ' : Type}

/-- What several subjects are matched as: the only one as it is, else the tuple of all. -/
def Value.joint : List Value → Value
  | [single] => single
  | several => .tuple several

namespace Inspect

/-- `inspect.AllPass host subjects env s s'`: no arm matches the subjects. -/
def AllPass (host : InspectHost γ σ α β) (inspect : Inspect γ α) (subjects : List Value)
    (env : Environment) (s s' : σ) : Prop :=
  host.Passes env.lookup (Value.joint subjects) 0 inspect.arms (host.shown none (.scanning 0) s) s'

/-- `inspect.FirstAt host subjects env s i arm result s'`: arm `i` is the first not to pass. -/
def FirstAt (host : InspectHost γ σ α β) (inspect : Inspect γ α) (subjects : List Value)
    (env : Environment) (s : σ) (i : Nat) (arm : Arm γ α)
    (result : Except EvalError (Option Bindings)) (s' : σ) : Prop :=
  host.Decides env.lookup (Value.joint subjects) inspect.arms (host.shown none (.scanning 0) s) i
    arm result s'

/-- What it is for a call of the inspect to go by the first arm that does not pass. With a match
`answer` is what the call gives, without one it ends as `unmatched`, in the state `terminal` of the
run. -/
structure FirstMatch (host : InspectHost γ σ α β)
    (call : Inspect γ α → List Value → Action σ ρ) (terminal : MatchState)
    (unmatched : Except EvalError ρ) (answer : Nat → β → ρ) (inspect : Inspect γ α) : Prop where
  miscounted : ∀ subjects env s, subjects.length ≠ inspect.subjectCount →
    (call inspect subjects).run (env, s) =
      (.error (.shapeMismatch s!"{inspect.subjectCount} subjects" (toString subjects.length)),
        (env, s))
  searched : ∀ subjects env s, (∃ s', inspect.AllPass host subjects env s s') ∨
    ∃ i arm result s', inspect.FirstAt host subjects env s i arm result s'
  exhausted : ∀ subjects env s s', subjects.length = inspect.subjectCount →
    inspect.AllPass host subjects env s s' →
    (call inspect subjects).run (env, s) =
      (unmatched, (env, host.shown (some (.scanning inspect.arms.length)) terminal s'))
  failed : ∀ subjects env s i arm e s', subjects.length = inspect.subjectCount →
    inspect.FirstAt host subjects env s i arm (.error e) s' →
    (call inspect subjects).run (env, s) = (.error e, (env, s'))
  found : ∀ subjects env s i arm bindings s', subjects.length = inspect.subjectCount →
    inspect.FirstAt host subjects env s i arm (.ok (some bindings)) s' →
    (call inspect subjects).run (env, s) = host.finished i (answer i) ((host.act arm.action).run
      (env.within bindings, host.shown (some (.scanning i)) (.matched i) s'))
  bound : ∀ subjects env s i arm bindings s',
    inspect.FirstAt host subjects env s i arm (.ok (some bindings)) s' →
    (bindings.map (·.1)).Perm arm.pattern.binders ∧
      (∀ name value, (name, value) ∈ bindings →
        (env.within bindings).lookup name = some value) ∧
      ∀ name ∉ arm.pattern.binders, (env.within bindings).lookup name = env.lookup name
  unread : ∀ subjects env s i arm result s', subjects.length = inspect.subjectCount →
    inspect.FirstAt host subjects env s i arm result s' → ∀ others,
    (call { inspect with arms := inspect.arms.take (i + 1) ++ others } subjects).run (env, s) =
      (call inspect subjects).run (env, s)

/-! ## Runs -/

variable {host : InspectHost γ σ α β} {form : Form} {inspect : Inspect γ α} {subjects : List Value}
variable {env : Environment} {s s' : σ} {i : Nat} {arm : Arm γ α}

theorem subjectValue_eq_ok (h : subjects.length = inspect.subjectCount) :
    inspect.subjectValue subjects = .ok (Value.joint subjects) := by
  unfold subjectValue
  rw [if_pos h]
  rcases subjects with _ | ⟨first, _ | ⟨second, rest⟩⟩
  · rfl
  · rfl
  · rfl

theorem run_miscounted (h : subjects.length ≠ inspect.subjectCount) :
    (inspect.run host form subjects).run (env, s) =
      (.error (.shapeMismatch s!"{inspect.subjectCount} subjects" (toString subjects.length)),
        (env, s)) := by
  unfold run subjectValue
  rw [if_neg h]
  rfl

/-- The error or the answer when no arm matched. -/
def unmatched (inspect : Inspect γ α) : Form → Except EvalError (Option (Nat × β))
  | .statement => .ok none
  | .expression => .error inspect.noMatch

/-- With the right number of subjects a run begins with the search. -/
theorem run_search (h : subjects.length = inspect.subjectCount) :
    (inspect.run host form subjects).run (env, s) =
      match (host.scan form (Value.joint subjects) 0 inspect.arms).run
        (env, host.shown none (.scanning 0) s) with
      | (.ok (some found), after) => (.ok (some found), after)
      | (.ok none, after) => (inspect.unmatched form, after)
      | (.error e, after) => (.error e, after) := by
  rw [run, subjectValue_eq_ok h]
  simp only [run_bind, InspectHost.run_enter]
  rcases (host.scan form (Value.joint subjects) 0 inspect.arms).run
      (env, host.shown none (.scanning 0) s) with ⟨e | found, after⟩
  · rfl
  · cases found with
    | none => cases form <;> rfl
    | some found => cases form <;> rfl

theorem run_exhausted (h : subjects.length = inspect.subjectCount)
    (passed : inspect.AllPass host subjects env s s') :
    (inspect.run host form subjects).run (env, s) =
      (inspect.unmatched form,
        (env, host.shown (some (.scanning inspect.arms.length)) form.exhausted s')) := by
  have hscan := InspectHost.scan_passes passed form []
  rw [List.append_nil, InspectHost.scan_nil, Nat.zero_add] at hscan
  rw [run_search h, hscan]

theorem run_failed {e : EvalError} (h : subjects.length = inspect.subjectCount)
    (first : inspect.FirstAt host subjects env s i arm (.error e) s') :
    (inspect.run host form subjects).run (env, s) = (.error e, (env, s')) := by
  obtain ⟨before, after, s₀, hsplit, -, hpasses, hrun, -⟩ := first
  rw [run_search h, hsplit, InspectHost.scan_passes hpasses, InspectHost.scan_failed hrun]

theorem run_found {bindings : Bindings} (h : subjects.length = inspect.subjectCount)
    (first : inspect.FirstAt host subjects env s i arm (.ok (some bindings)) s') :
    (inspect.run host form subjects).run (env, s) =
      host.finished i (fun value => some (i, value)) ((host.act arm.action).run
        (env.within bindings, host.shown (some (.scanning i)) (.matched i) s')) := by
  obtain ⟨before, after, s₀, hsplit, rfl, hpasses, hrun, -⟩ := first
  rw [run_search h, hsplit, InspectHost.scan_passes hpasses, Nat.zero_add,
    InspectHost.scan_found hrun]
  rcases (host.act arm.action).run (env.within bindings,
      host.shown (some (.scanning before.length)) (.matched before.length) s') with ⟨_ | _, _, _⟩
  · rfl
  · rfl

theorem FirstAt.ne_none {result : Except EvalError (Option Bindings)}
    (first : inspect.FirstAt host subjects env s i arm result s') : result ≠ .ok none := by
  obtain ⟨before, after, s₀, -, -, -, -, hresult⟩ := first
  exact hresult

/-- What ends the search decides over the run, whatever else there is in the inspect. -/
theorem run_congr {inspect' : Inspect γ α} {result : Except EvalError (Option Bindings)}
    (h : subjects.length = inspect.subjectCount) (h' : subjects.length = inspect'.subjectCount)
    (first : inspect.FirstAt host subjects env s i arm result s')
    (first' : inspect'.FirstAt host subjects env s i arm result s') :
    (inspect'.run host form subjects).run (env, s) =
      (inspect.run host form subjects).run (env, s) := by
  match result with
  | .error e => rw [run_failed h first, run_failed h' first']
  | .ok (some bindings) => rw [run_found h first, run_found h' first']
  | .ok none => exact absurd rfl first.ne_none

theorem FirstAt.of_take {result : Except EvalError (Option Bindings)}
    (first : inspect.FirstAt host subjects env s i arm result s') (others : List (Arm γ α)) :
    FirstAt host { inspect with arms := inspect.arms.take (i + 1) ++ others } subjects env s i arm
      result s' := by
  obtain ⟨before, after, s₀, hsplit, rfl, hpasses, hrun, hresult⟩ := first
  refine ⟨before, others, s₀, ?_, rfl, hpasses, hrun, hresult⟩
  dsimp only
  rw [hsplit, List.take_length_add_append, List.append_assoc]
  rfl

end Inspect

/-! ## The arms of a built inspect -/

namespace Inspect.Builder

theorem checked_of_build {r : Registry} {b : Builder γ α} {inspect : Inspect γ α}
    (built : (b.build r).1 = .ok inspect) {arm : Arm γ α} (h : arm ∈ inspect.arms) :
    ∃ (r' : Registry) (p : Pattern γ), p.check r' inspect.subject = .ok arm.pattern := by
  cases hsubject : subjectType r b.subjects with
  | none =>
      rw [build, hsubject] at built
      cases built
  | some found =>
      obtain ⟨-, hty, -, harms⟩ := (build_eq_ok_iff hsubject).mp built
      obtain ⟨pair, hcheck, -⟩ := exists_forall₂_iff.mp ⟨b.arms, harms.flip⟩ arm h
      exact ⟨found.2, pair.1, hty ▸ hcheck⟩

end Inspect.Builder

namespace Inspect

variable {host : InspectHost γ σ α β} {inspect : Inspect γ α} {subjects : List Value}
variable {env : Environment} {s s' : σ} {i : Nat} {arm : Arm γ α}

/-- The scope that an action of a built inspect runs in. -/
theorem bound_of_build {r : Registry} {b : Builder γ α} (built : (b.build r).1 = .ok inspect)
    {bindings : Bindings}
    (first : inspect.FirstAt host subjects env s i arm (.ok (some bindings)) s') :
    (bindings.map (·.1)).Perm arm.pattern.binders ∧
      (∀ name value, (name, value) ∈ bindings →
        (env.within bindings).lookup name = some value) ∧
      ∀ name ∉ arm.pattern.binders, (env.within bindings).lookup name = env.lookup name := by
  obtain ⟨before, after, s₀, hsplit, -, -, hrun, -⟩ := first
  have harm : arm ∈ inspect.arms := by simp [hsplit]
  obtain ⟨r', p, checked⟩ := Builder.checked_of_build built harm
  obtain ⟨hperm, hnodup⟩ := Compiled.perm_binders checked hrun
  rw [Environment.lookup_within]
  refine ⟨hperm, fun name value hmem => ?_, fun name hname => ?_⟩
  · exact Bindings.scope_of_mem (hperm.nodup_iff.mpr hnodup) hmem
  · exact Bindings.scope_of_notMem fun hmem => hname (hperm.mem_iff.mp hmem)

/-- A run goes by the first arm that does not pass. -/
theorem firstMatch_run {r : Registry} {b : Builder γ α} (built : (b.build r).1 = .ok inspect)
    (host : InspectHost γ σ α β) (form : Form) :
    FirstMatch host (fun inspect => inspect.run host form) form.exhausted (inspect.unmatched form)
      (fun i value => some (i, value)) inspect where
  miscounted _ _ _ := run_miscounted
  searched _ _ _ := InspectHost.passes_or_decides ..
  exhausted _ _ _ _ := run_exhausted
  failed _ _ _ _ _ _ _ := run_failed
  found _ _ _ _ _ _ _ := run_found
  bound _ _ _ _ _ _ _ := bound_of_build built
  unread _ _ _ _ _ _ _ h first others := run_congr h h first (first.of_take others)

/-- So does a call that only makes something else of what a run gives. -/
theorem FirstMatch.of_call {call : Inspect γ α → List Value → Action σ ρ}
    {call' : Inspect γ α → List Value → Action σ ρ'} {terminal : MatchState}
    {unmatched : Except EvalError ρ} {answer : Nat → β → ρ} {answer' : Nat → β → ρ'}
    (h : FirstMatch host call terminal unmatched answer inspect) (f : ρ → Except EvalError ρ')
    (hcall : ∀ inspect subjects x, (call' inspect subjects).run x =
      (((call inspect subjects).run x).1.bind f, ((call inspect subjects).run x).2))
    (hanswer : ∀ i value, f (answer i value) = .ok (answer' i value)) :
    FirstMatch host call' terminal (unmatched.bind f) answer' inspect where
  miscounted subjects env s hlength := by
    rw [hcall, h.miscounted subjects env s hlength]
    rfl
  searched := h.searched
  exhausted subjects env s s' hlength hpass := by
    rw [hcall, h.exhausted subjects env s s' hlength hpass]
  failed subjects env s i arm e s' hlength hfirst := by
    rw [hcall, h.failed subjects env s i arm e s' hlength hfirst]
    rfl
  found subjects env s i arm bindings s' hlength hfirst := by
    rw [hcall, h.found subjects env s i arm bindings s' hlength hfirst]
    rcases (host.act arm.action).run
        (env.within bindings, host.shown (some (.scanning i)) (.matched i) s')
      with ⟨e | value, env', s''⟩
    · rfl
    · simp only [InspectHost.finished, Except.bind, hanswer]
  bound := h.bound
  unread subjects env s i arm result s' hlength hfirst others := by
    rw [hcall, hcall, h.unread subjects env s i arm result s' hlength hfirst others]

/-- The end of an expression, from that of its run. -/
def valueOf : Option (Nat × β) → Except EvalError β
  | some (_, value) => .ok value
  | none => .error (.of .noMatch)

/-- The end of a statement, from that of its run. -/
def outcomeOf : Option (Nat × Unit) → Except EvalError StatementOutcome
  | some (arm, _) => .ok (.matched arm)
  | none => .ok .fellThrough

theorem run_evaluate (host : InspectHost γ σ α β) (inspect : Inspect γ α) (subjects : List Value)
    (x : Environment × σ) :
    (inspect.evaluate host subjects).run x =
      (((inspect.run host .expression subjects).run x).1.bind valueOf,
        ((inspect.run host .expression subjects).run x).2) := by
  rw [evaluate, run_bind]
  rcases (inspect.run host .expression subjects).run x with ⟨e | _ | found, after⟩
  · rfl
  · rfl
  · rfl

theorem run_execute (host : InspectHost γ σ α Unit) (inspect : Inspect γ α) (subjects : List Value)
    (x : Environment × σ) :
    (inspect.execute host subjects).run x =
      (((inspect.run host .statement subjects).run x).1.bind outcomeOf,
        ((inspect.run host .statement subjects).run x).2) := by
  rw [execute, run_bind]
  rcases (inspect.run host .statement subjects).run x with ⟨e | _ | found, after⟩
  · rfl
  · rfl
  · rfl

/-- In a built inspect the first match wins, in either form. -/
theorem Builder.firstMatch {b : Builder γ α} {r : Registry} {inspect : Inspect γ α}
    (built : (b.build r).1 = .ok inspect) (host : InspectHost γ σ α β)
    (unitHost : InspectHost γ σ α Unit) :
    FirstMatch host (evaluate host) .noMatchFailure
        (.error ⟨.noMatch, some (Span.mergeAll (inspect.arms.map (·.pattern.span)))⟩)
        (fun _ value => value) inspect ∧
      FirstMatch unitHost (execute unitHost) .done (.ok .fellThrough) (fun i _ => .matched i)
        inspect := by
  constructor
  · exact (firstMatch_run built host .expression).of_call valueOf (run_evaluate host)
      fun _ _ => rfl
  · exact (firstMatch_run built unitHost .statement).of_call outcomeOf (run_execute unitHost)
      fun _ _ => rfl

/-- Arms over a number: a literal, a binding under a guard, and one for all else. -/
def numberArms : Builder Unit Nat :=
  (((Builder.ofSubjects [TypeId.int]).arm (.literal Span.dummy (.int 1)) 10).arm
    (.guarded Span.dummy (.bind Span.dummy ⟨1⟩) ()) 20).arm (.wildcard Span.dummy) 30

def numbers : Inspect Unit Nat where
  subject := TypeId.int
  subjectCount := 1
  arms := [⟨⟨.literal (.int 1), TypeId.int, [], Span.dummy⟩, 10⟩,
    ⟨⟨.guarded (.binding ⟨1⟩ .wildcard) (), TypeId.int, [⟨1⟩], Span.dummy⟩, 20⟩,
    ⟨⟨.wildcard, TypeId.int, [], Span.dummy⟩, 30⟩]

/-- A program that counts the guards it is asked for; they hold of everything. -/
def tallyHost {β : Type} (act : Nat → Action Nat β) : InspectHost Unit Nat Nat β where
  test _ _ := ExceptT.mk fun n => (.ok true, n + 1)
  givesPieces _ := pure false
  piece _ _ := pure none
  givesVariant _ := pure false
  discriminator _ := pure 0
  alternative _ _ := pure none
  act := act
  observe _ _ := pure ()

theorem firstMatch_numbers :
    (numberArms.build (Registry.initial Interner.initial)).1 = .ok numbers ∧
    FirstMatch (tallyHost pure) (evaluate (tallyHost pure)) .noMatchFailure
      (.error ⟨.noMatch, some (Span.mergeAll (numbers.arms.map (·.pattern.span)))⟩)
      (fun _ value => value) numbers ∧
    FirstMatch (tallyHost fun _ => pure ()) (execute (tallyHost fun _ => pure ())) .done
      (.ok .fellThrough) (fun i _ => .matched i) numbers := by
  have built : (numberArms.build (Registry.initial Interner.initial)).1 = .ok numbers := by
    with_unfolding_all rfl
  exact ⟨built, Builder.firstMatch built _ _⟩

end Inspect

end TaggedMatch
