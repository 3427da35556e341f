import TaggedMatch.Environment
import TaggedMatch.Inspect.Build
import TaggedMatch.Pattern.Match

/-!
# Running an inspect

The arms are tried from the top. The first whose pattern matches has its action run, in a scope of
its own that holds the bindings, and no later arm is looked at. When no arm matches, the statement
form falls through and the expression form fails; that is all the two forms differ in.

A run passes through the states `scanning 0`, `scanning 1`, … up to the arm that matches, then
`matched`, then `done`; without a match it ends in `done` as a statement and in `noMatchFailure` as
an expression. Whoever watches the run is shown each state as it is entered, with the one before.
-/

namespace TaggedMatch

/-- How far a run has come. -/
inductive MatchState where
  /-- Trying an arm. -/
  | scanning (arm : Nat)
  /-- Running the action of an arm. -/
  | matched (arm : Nat)
  | done
  /-- The end of an expression without a match. -/
  | noMatchFailure
deriving DecidableEq, Repr

namespace MatchState

/-- Whether a run ends in this state. -/
def isTerminal : MatchState → Bool
  | .done | .noMatchFailure => true
  | .scanning _ | .matched _ => false

/-- The text of a state in traces. -/
def text : MatchState → String
  | .scanning arm => s!"Scanning({arm})"
  | .matched arm => s!"Matched({arm})"
  | .done => "Done"
  | .noMatchFailure => "NoMatchFailure"

end MatchState

/-- Whether an inspect has to give a value. -/
inductive Form where
  | statement
  | expression
deriving DecidableEq, Repr

/-- The state that a form ends in when no arm matched. -/
def Form.exhausted : Form → MatchState
  | .statement => .done
  | .expression => .noMatchFailure

/-- How a statement ended. -/
inductive StatementOutcome where
  | matched (arm : Nat)
  | fellThrough
deriving DecidableEq, Repr

/-- A computation on the environment and the state of the surrounding program. What it did to
either stays done if it fails. -/
abbrev Action (σ β : Type) := ExceptT EvalError (StateM (Environment × σ)) β

variable {γ σ α β : Type}

/-- A computation of the surrounding program leaves the environment alone. -/
def Action.ofHost (c : HostM σ β) : Action σ β := ExceptT.mk fun (env, s) =>
  let (result, s) := c.run s
  (result, (env, s))

/-- The surrounding program of an inspect: with guards and objects, its actions and whoever watches
the run. -/
structure InspectHost (γ σ α β : Type) extends Host γ σ where
  act : α → Action σ β
  /-- Is shown the state before, except at the start, and the state that is entered. -/
  observe : Option MatchState → MatchState → StateM σ Unit

namespace InspectHost

/-- Enters a state. -/
def enter (host : InspectHost γ σ α β) (previous : Option MatchState) (state : MatchState) :
    Action σ Unit :=
  .ofHost (host.observe previous state : StateM σ Unit)

/-- Runs an action in a scope of its own with these bindings. The scope on top is popped at the
end, however the action ended. -/
def perform (host : InspectHost γ σ α β) (action : α) (bindings : Bindings) : Action σ β :=
  ExceptT.mk fun (env, s) =>
    let inner := bindings.foldl
      (fun env (name, value) => env.define name value .isImmutable) env.push
    let (result, env, s) := (host.act action).run (inner, s)
    (result, (env.pop, s))

/-- Matches the pattern of an arm in the environment as it is. -/
def tryArm (host : InspectHost γ σ α β) (arm : Arm γ α) (subject : Value) :
    Action σ (Option Bindings) := do
  let (env, _) ← get
  .ofHost (arm.pattern.run host.toHost subject env.lookup)

/-- Tries arms in order, the first of which is arm `i`. -/
def scan (host : InspectHost γ σ α β) (form : Form) (subject : Value) :
    Nat → List (Arm γ α) → Action σ (Option (Nat × β))
  | i, [] => do
      host.enter (some (.scanning i)) form.exhausted
      pure none
  | i, arm :: rest => do
      match ← host.tryArm arm subject with
      | some bindings =>
          host.enter (some (.scanning i)) (.matched i)
          let value ← host.perform arm.action bindings
          host.enter (some (.matched i)) .done
          pure (some (i, value))
      | none =>
          host.enter (some (.scanning i)) (.scanning (i + 1))
          host.scan form subject (i + 1) rest

end InspectHost

namespace Inspect

/-- The value that the arms are matched against: the only subject, or the tuple of all. -/
def subjectValue (inspect : Inspect γ α) (subjects : List Value) : Except EvalError Value :=
  if subjects.length = inspect.subjectCount then
    match subjects with
    | [single] => .ok single
    | several => .ok (.tuple several)
  else
    .error (.shapeMismatch s!"{inspect.subjectCount} subjects" (toString subjects.length))

/-- The place of an inspect: the least span that covers all arms. -/
def span (inspect : Inspect γ α) : Span :=
  Span.mergeAll (inspect.arms.map (·.pattern.span))

/-- The error of an expression in which no arm matched. -/
def noMatch (inspect : Inspect γ α) : EvalError := (EvalError.of .noMatch).withSpan inspect.span

/-- Runs an inspect: the arm that matched and what its action gave, or nothing. -/
def run (host : InspectHost γ σ α β) (form : Form) (inspect : Inspect γ α)
    (subjects : List Value) : Action σ (Option (Nat × β)) := do
  match inspect.subjectValue subjects with
  | .error e => throw e
  | .ok subject =>
      host.enter none (.scanning 0)
      match ← host.scan form subject 0 inspect.arms, form with
      | none, .expression => throw inspect.noMatch
      | result, _ => pure result

/-- Runs an inspect for what its actions do. -/
def execute (host : InspectHost γ σ α Unit) (inspect : Inspect γ α) (subjects : List Value) :
    Action σ StatementOutcome := do
  match ← inspect.run host .statement subjects with
  | some (arm, _) => pure (.matched arm)
  | none => pure .fellThrough

/-- Runs an inspect for a value. -/
def evaluate (host : InspectHost γ σ α β) (inspect : Inspect γ α) (subjects : List Value) :
    Action σ β := do
  match ← inspect.run host .expression subjects with
  | some (_, value) => pure value
  | none => throw (.of .noMatch)

end Inspect

end TaggedMatch
