import TaggedMatch.Pattern.Check

/-!
# Building an inspect

An inspect is a list of arms over one or several subjects, each a checked pattern and an action;
`α` is whatever the surrounding program writes actions in. The arms are collected first and all
checked at the end, so that every mistake is reported. Several subjects are matched as one tuple,
whose type the building issues if it is new.
-/

namespace TaggedMatch

/-- A checked pattern and what to do when it is the first to match. -/
structure Arm (γ α : Type) where
  pattern : Compiled γ
  action : α

/-- Arms that all passed the check against one subject type. -/
structure Inspect (γ α : Type) where
  /-- The type the arms were checked against, a tuple for several subjects. -/
  subject : TypeId
  subjectCount : Nat
  arms : List (Arm γ α)

/-- Arms that are not checked yet, and the mistakes made in adding them. -/
structure Inspect.Builder (γ α : Type) where
  subjects : List TypeId
  arms : List (Pattern γ × α)
  mistakes : List Mistake

namespace Inspect.Builder

variable {γ α : Type}

/-- No arms yet, over these subjects. -/
def ofSubjects (subjects : List TypeId) : Builder γ α := ⟨subjects, [], []⟩

/-- Adds an arm whose pattern is for the whole subject. -/
def arm (b : Builder γ α) (pattern : Pattern γ) (action : α) : Builder γ α :=
  { b with arms := b.arms ++ [(pattern, action)] }

/-- The pattern for a tuple of subjects, or for the only one. -/
def joint : List (Pattern γ) → Pattern γ
  | [single] => single
  | patterns => .sequence (Span.mergeAll (patterns.map (·.span))) patterns

/-- Adds an arm with one pattern for each subject. With another number of patterns nothing is added
and the mistake is kept. -/
def armEach (b : Builder γ α) (patterns : List (Pattern γ)) (action : α) : Builder γ α :=
  if patterns.length = b.subjects.length then b.arm (joint patterns) action
  else
    let span := Span.mergeAll (patterns.map (·.span))
    { b with
      mistakes := b.mistakes ++ [.subjectCount patterns.length b.subjects.length span] }

/-- Checks arms against a type: the mistakes of all, and the arms without any. -/
def checkArms (r : Registry) (ty : TypeId) :
    List (Pattern γ × α) → List Mistake × List (Arm γ α)
  | [] => ([], [])
  | (pattern, action) :: rest =>
      let (mistakes, arms) := checkArms r ty rest
      match pattern.check r ty with
      | .ok compiled => (mistakes, ⟨compiled, action⟩ :: arms)
      | .error here => (here ++ mistakes, arms)

/-- The type of the subjects taken together, and the registry that has it. -/
def subjectType (r : Registry) : List TypeId → Option (TypeId × Registry)
  | [] => none
  | [single] => some (single, r)
  | several => some (r.tuple several)

/-- The inspect, or all mistakes: first those made in adding arms, then those of the arms in
order. -/
def build (r : Registry) (b : Builder γ α) : Except (List Mistake) (Inspect γ α) × Registry :=
  match subjectType r b.subjects with
  | none => (.error (b.mistakes ++ [.noSubjects]), r)
  | some (ty, r) =>
      let (mistakes, arms) := checkArms r ty b.arms
      match b.mistakes ++ mistakes with
      | [] => (.ok ⟨ty, b.subjects.length, arms⟩, r)
      | mistakes => (.error mistakes, r)

end Inspect.Builder

end TaggedMatch
