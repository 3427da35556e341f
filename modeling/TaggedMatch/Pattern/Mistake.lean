import TaggedMatch.Pattern.Basic
import TaggedMatch.Registry.Faults

/-!
# What a pattern can get wrong

Each mistake holds what it is about and where it was made; `Mistake.diagnostic` words it, with the
names and types as the registry writes them. The word for a mistake may also say what would have
been right: the constants of the enum, the alternatives of the union, the types that literals are
for.

Where something is refused, the diagnostics of all mistakes are the answer (`Registry.answer`). As
with validation, there is no answer if a type that is written in them has no text.
-/

namespace TaggedMatch

/-- What makes a pattern illegal for a type, or an arm for an inspect. -/
inductive Mistake where
  /-- The subject's type was never issued. -/
  | unknownType (ty : TypeId) (span : Span)
  | unknownAlternative (selector : Name) (ty : TypeId) (span : Span)
  /-- The subject's type gives the selector several discriminators. -/
  | ambiguousSelector (selector owner : Name) (discriminators : List Int64) (span : Span)
  | unknownField (field : Name) (ty : TypeId) (span : Span)
  | arityMismatch (expected found : Nat) (ty : TypeId) (span : Span)
  | literalMismatch (literal : Literal) (ty : TypeId) (span : Span)
  | unknownConstant (constant : Name) (ty : TypeId) (span : Span)
  /-- A pattern for pointers, here `form`, on a type that is none. -/
  | notAPointer (form : String) (ty : TypeId) (span : Span)
  | withoutAlternatives (selector : Name) (ty : TypeId) (span : Span)
  | notAnAggregate (ty : TypeId) (span : Span)
  /-- A product pattern on an aggregate that has a field which is not public. -/
  | encapsulated (ty : TypeId) (span : Span)
  | boundTwice (name : Name) (again first : Span)
  | listedTwice (field : Name) (again first : Span)
  /-- An arm with one pattern for each subject has too few or too many. -/
  | subjectCount (patterns subjects : Nat) (span : Span)
  | noSubjects
deriving DecidableEq, Repr

/-- The ending of a noun that is counted. -/
def plural (n : Nat) : String := if n == 1 then "" else "s"

/-- Names in backquotes, separated by commas. -/
def Registry.quotedNames (r : Registry) (names : List Name) : String :=
  ", ".intercalate (names.map fun n => s!"`{r.text n}`")

/-- Whether there are literals for values of this kind. -/
def TypeKind.hasLiterals : TypeKind → Bool
  | .int | .bool | .char | .enumeration _ => true
  | _ => false

/-- A literal in a message. -/
def Literal.inMessage (r : Registry) : Literal → String
  | .constant name => r.text name
  | literal => literal.text

/-- The diagnostic of a mistake. -/
def Mistake.diagnostic (r : Registry) : Mistake → Diagnostic
  | .unknownType ty span =>
      (Diagnostic.error .unknownType s!"pattern checked against unknown type {ty.tag}")
        |>.withLabel span "in this pattern"
  | .unknownAlternative selector ty span =>
      let d := (Diagnostic.error .unknownAlternative
        s!"`{r.display ty}` has no alternative `{r.text selector}`")
        |>.withLabel span "unknown alternative"
      match r.union? ty with
      | some u =>
          d.withNote s!"declared alternatives: {r.quotedNames (u.alternatives.map (·.name))}"
      | none => d
  | .ambiguousSelector selector owner discriminators span =>
      r.ambiguousSelector selector owner discriminators span
  | .unknownField field ty span =>
      (Diagnostic.error .unknownField s!"`{r.display ty}` has no field `{r.text field}`")
        |>.withLabel span "unknown field"
  | .arityMismatch expected found ty span =>
      (Diagnostic.error .arityMismatch
        (s!"sequence pattern has {found} element{plural found} but `{r.display ty}` "
          ++ s!"has {expected}"))
        |>.withLabel span s!"expected {expected}"
  | .literalMismatch literal ty span =>
      let d := (Diagnostic.error .literalMismatch
        (s!"literal `{literal.inMessage r}` cannot match a value of type "
          ++ s!"`{r.display ty}`"))
        |>.withLabel span "literal of the wrong type"
      if ((r.kind? ty).map TypeKind.hasLiterals).getD false then d
      else d.withNote "literal patterns apply to int, bool, char and enum types"
  | .unknownConstant constant ty span =>
      let declared := ((r.enum? ty).map (·.constants)).getD []
      (Diagnostic.error .unknownConstant
        s!"enum `{r.display ty}` has no constant `{r.text constant}`")
        |>.withLabel span "unknown constant"
        |>.withNote s!"declared constants: {r.quotedNames declared}"
  | .notAPointer form ty span =>
      (Diagnostic.error .notAPointer
        s!"{form} pattern requires a pointer, found `{r.display ty}`")
        |>.withLabel span s!"subject has type `{r.display ty}`"
  | .withoutAlternatives selector ty span =>
      (Diagnostic.error .withoutAlternatives
        (s!"alternative pattern `{r.text selector}` requires a union or a type with a variant "
          ++ s!"shape, found `{r.display ty}`"))
        |>.withLabel span s!"subject is a {r.describeKind ty}"
  | .notAnAggregate ty span =>
      (Diagnostic.error .notAnAggregate
        ("aggregate pattern requires a tuple, an aggregate or a type with an aggregate shape, "
          ++ s!"found `{r.display ty}`"))
        |>.withLabel span s!"subject is a {r.describeKind ty}"
  | .encapsulated ty span =>
      (Diagnostic.error .encapsulated
        s!"aggregate pattern on `{r.display ty}`, which has non-public fields")
        |>.withLabel span "fields are not all public"
        |>.withSuggestion "declare an aggregate extraction shape for this type"
  | .boundTwice name again first =>
      (Diagnostic.error .boundTwice
        s!"identifier `{r.text name}` is bound more than once in the same pattern")
        |>.withLabel again "bound again here"
        |>.withSecondaryLabel first "first bound here"
  | .listedTwice field again first =>
      (Diagnostic.error .listedTwice
        s!"field `{r.text field}` is listed more than once in the pattern")
        |>.withLabel again "listed again here"
        |>.withSecondaryLabel first "first listed here"
  | .subjectCount patterns subjects span =>
      (Diagnostic.error .subjectCount
        (s!"arm has {patterns} pattern{plural patterns} but inspect has "
          ++ s!"{subjects} subject{plural subjects}"))
        |>.withLabel span "in this arm"
  | .noSubjects => Diagnostic.error .subjectCount "inspect needs at least one subject"

/-- The types that are written in the diagnostic of a mistake. -/
def Mistake.written : Mistake → List TypeId
  | .unknownAlternative _ ty _ | .unknownField _ ty _ | .arityMismatch _ _ ty _
  | .literalMismatch _ ty _ | .unknownConstant _ ty _ | .notAPointer _ ty _
  | .withoutAlternatives _ ty _ | .notAnAggregate ty _ | .encapsulated ty _ => [ty]
  | .unknownType .. | .ambiguousSelector .. | .boundTwice .. | .listedTwice .. | .subjectCount ..
  | .noSubjects => []

/-- The diagnostic of a mistake, if the writing of it ends. -/
def Mistake.diagnostic? (r : Registry) (mistake : Mistake) : Option Diagnostic :=
  (r.displayAll? mistake.written).map fun _ => mistake.diagnostic r

/-- What is answered with a result: what was accepted, or the diagnostics of what was refused. There
is no answer if the writing of a diagnostic does not end. -/
def Registry.answer {α : Type} (r : Registry) :
    Except (List Mistake) α → Option (Except (List Diagnostic) α)
  | .ok a => some (.ok a)
  | .error mistakes => (mistakes.mapM (Mistake.diagnostic? r)).map .error

end TaggedMatch
