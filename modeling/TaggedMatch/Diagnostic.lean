import TaggedMatch.Span

/-!
# Diagnostics

What a declaration or a pattern is refused with: a code that names the kind of mistake, a message,
labelled places, notes and suggestions. A diagnostic is data until `Diagnostic.text` writes it out,
one line for the message and one for each of the rest.
-/

namespace TaggedMatch

/-- The kinds of mistakes, in the order of their codes. -/
inductive ErrorCode where
  | duplicateAlternative
  | duplicateField
  | duplicateConstant
  | emptyUnion
  | undeclaredFallback
  | fallbackWithoutDefault
  | ambiguousSelector
  | undefinedType
  | duplicateType
  | duplicateLabel
  | sharedDiscriminator
  | unknownAlternative
  | unknownField
  | arityMismatch
  | literalMismatch
  | notAPointer
  | withoutAlternatives
  | notAnAggregate
  | encapsulated
  | boundTwice
  | listedTwice
  | unknownConstant
  | subjectCount
  | unknownType
deriving DecidableEq, Repr

/-- The part of the work that a mistake belongs to. -/
inductive ErrorCode.Phase where
  | declaration
  | pattern
  | internal
deriving DecidableEq, Repr

namespace ErrorCode

/-- Every code, in order. -/
def all : List ErrorCode :=
  [.duplicateAlternative, .duplicateField, .duplicateConstant, .emptyUnion, .undeclaredFallback,
    .fallbackWithoutDefault, .ambiguousSelector, .undefinedType, .duplicateType, .duplicateLabel,
    .sharedDiscriminator, .unknownAlternative, .unknownField, .arityMismatch, .literalMismatch,
    .notAPointer, .withoutAlternatives, .notAnAggregate, .encapsulated, .boundTwice, .listedTwice,
    .unknownConstant, .subjectCount, .unknownType]

/-- The searchable form of a code. -/
def text : ErrorCode → String
  | .duplicateAlternative => "E2001"
  | .duplicateField => "E2002"
  | .duplicateConstant => "E2003"
  | .emptyUnion => "E2004"
  | .undeclaredFallback => "E2005"
  | .fallbackWithoutDefault => "E2006"
  | .ambiguousSelector => "E2007"
  | .undefinedType => "E2008"
  | .duplicateType => "E2009"
  | .duplicateLabel => "E2010"
  | .sharedDiscriminator => "E2011"
  | .unknownAlternative => "E3001"
  | .unknownField => "E3002"
  | .arityMismatch => "E3003"
  | .literalMismatch => "E3004"
  | .notAPointer => "E3005"
  | .withoutAlternatives => "E3006"
  | .notAnAggregate => "E3007"
  | .encapsulated => "E3008"
  | .boundTwice => "E3009"
  | .listedTwice => "E3010"
  | .unknownConstant => "E3011"
  | .subjectCount => "E3012"
  | .unknownType => "E9001"

/-- The code that is written so. -/
def ofText? (s : String) : Option ErrorCode := all.find? (·.text == s)

/-- The phase that a code is numbered under. -/
def phase : ErrorCode → Phase
  | .duplicateAlternative | .duplicateField | .duplicateConstant | .emptyUnion
  | .undeclaredFallback | .fallbackWithoutDefault | .ambiguousSelector | .undefinedType
  | .duplicateType | .duplicateLabel | .sharedDiscriminator => .declaration
  | .unknownAlternative | .unknownField | .arityMismatch | .literalMismatch | .notAPointer
  | .withoutAlternatives | .notAnAggregate | .encapsulated | .boundTwice | .listedTwice
  | .unknownConstant | .subjectCount => .pattern
  | .unknownType => .internal

/-- The codes of declarations begin with `E2`. -/
def isDeclarationError (c : ErrorCode) : Bool := c.phase == .declaration

/-- The codes of patterns begin with `E3`. -/
def isPatternError (c : ErrorCode) : Bool := c.phase == .pattern

end ErrorCode

/-- A place with a remark; the primary label is where the mistake is, others give context. -/
structure Label where
  span : Span
  message : String
  primary : Bool
deriving DecidableEq, Repr

/-- One mistake, as it is reported. -/
structure Diagnostic where
  code : ErrorCode
  message : String
  labels : List Label
  notes : List String
  suggestions : List String
deriving DecidableEq, Repr

namespace Diagnostic

/-- A diagnostic with a message and nothing else yet. -/
def error (code : ErrorCode) (message : String) : Diagnostic := ⟨code, message, [], [], []⟩

/-- Replaces the message; everything else is only ever added to. -/
def withMessage (d : Diagnostic) (message : String) : Diagnostic := { d with message }

/-- Points at the mistake. -/
def withLabel (d : Diagnostic) (span : Span) (message : String) : Diagnostic :=
  { d with labels := d.labels ++ [⟨span, message, true⟩] }

/-- Points at something the mistake is to be read together with. -/
def withSecondaryLabel (d : Diagnostic) (span : Span) (message : String) : Diagnostic :=
  { d with labels := d.labels ++ [⟨span, message, false⟩] }

/-- Adds a note, which explains. -/
def withNote (d : Diagnostic) (note : String) : Diagnostic :=
  { d with notes := d.notes ++ [note] }

/-- Adds a suggestion, which says what to do. -/
def withSuggestion (d : Diagnostic) (suggestion : String) : Diagnostic :=
  { d with suggestions := d.suggestions ++ [suggestion] }

/-- The place of the first primary label. -/
def primarySpan? (d : Diagnostic) : Option Span :=
  (d.labels.find? (·.primary)).map (·.span)

/-- The lines of a diagnostic: message, labels, notes, suggestions. -/
def lines (d : Diagnostic) : List String :=
  s!"error [{d.code.text}]: {d.message}"
    :: d.labels.map (fun l =>
      "  " ++ (if l.primary then "-->" else "   ") ++ " " ++ l.span.text ++ ": " ++ l.message)
    ++ d.notes.map ("  = note: " ++ ·)
    ++ d.suggestions.map ("  = help: " ++ ·)

/-- The lines joined; the last one is not ended. -/
def text (d : Diagnostic) : String := "\n".intercalate d.lines

end Diagnostic

end TaggedMatch
