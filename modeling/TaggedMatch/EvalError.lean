import TaggedMatch.Span

/-!
# What can go wrong with values

The errors met once types are declared and patterns checked: a value that does not fit, an
alternative that is not there, a match that found nothing. An error is its cause and, where known,
the place it is blamed on; the wording is a function of the cause alone.
-/

namespace TaggedMatch

/-- The cause of an error. The texts are those of names and types at the time. -/
inductive EvalError.Cause where
  /-- No arm of an inspect expression matched. -/
  | noMatch
  /-- The cell of a union was asked for a value it lost in a failed assignment. -/
  | valueless (union : String)
  /-- A declared alternative was asked for while another is active. -/
  | wrongAlternative (expected active : String)
  | unknownAlternative (union alternative : String)
  | payloadTypeMismatch (alternative expected got : String)
  | notAUnion (type : String)
  | unknownConstant (enumeration constant : String)
  | notDefaultConstructible (type : String)
  /-- A cell was asked to follow a policy that the union does not declare. -/
  | policyMismatch (union declared requested : String)
  /-- A host object lacks what its type's shape promises. -/
  | missingCapability (type capability : String)
  /-- A value is not of the form that is needed. -/
  | shapeMismatch (expected got : String)
  /-- An error raised by the surrounding program. -/
  | custom (message : String)
deriving DecidableEq, Repr

/-- A cause and, where known, the place it is blamed on. -/
structure EvalError where
  cause : EvalError.Cause
  span : Option Span
deriving DecidableEq, Repr

namespace EvalError

/-- The wording of a cause. -/
def Cause.message : Cause → String
  | .noMatch => "no inspect arm matched the subject"
  | .valueless union => s!"union `{union}` is valueless after a failed assignment"
  | .wrongAlternative expected active =>
      s!"alternative `{expected}` requested but `{active}` is active"
  | .unknownAlternative union alternative => s!"union `{union}` has no alternative `{alternative}`"
  | .payloadTypeMismatch alternative expected got =>
      s!"alternative `{alternative}` expects a payload of type `{expected}`, got {got}"
  | .notAUnion type => s!"`{type}` is not a union type"
  | .unknownConstant enumeration constant => s!"enum `{enumeration}` has no constant `{constant}`"
  | .notDefaultConstructible type => s!"`{type}` has no default value"
  | .policyMismatch union declared requested =>
      s!"union `{union}` declares the {declared} assignment policy, not {requested}"
  | .missingCapability type capability =>
      s!"`{type}` declares a {capability} shape but its value does not provide it"
  | .shapeMismatch expected got => s!"pattern expects {expected}, got {got}"
  | .custom message => message

/-- An error that is blamed on no place. -/
def of (cause : Cause) : EvalError := ⟨cause, none⟩

/-- An error of the surrounding program. -/
def custom (message : String) : EvalError := of (.custom message)

/-- The error of a value that is not of the needed form. -/
def shapeMismatch (expected got : String) : EvalError := of (.shapeMismatch expected got)

/-- Blames an error on a place. -/
def withSpan (e : EvalError) (span : Span) : EvalError := { e with span := some span }

/-- The wording of an error; its place is not part of it. -/
def message (e : EvalError) : String := e.cause.message

/-- Whether this is the error of an inspect expression that ran out of arms. -/
def isNoMatch (e : EvalError) : Bool := e.cause == .noMatch

end EvalError

end TaggedMatch
