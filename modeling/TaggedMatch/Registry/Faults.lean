import TaggedMatch.Registry.Default
import TaggedMatch.Registry.Display
import TaggedMatch.Diagnostic

/-!
# What is wrong with the declarations

`Registry.faults` lists everything that must not be so before values are built and patterns checked
against a registry: first what was recorded while declaring, then entry by entry what each
declaration gets wrong by itself. `Fault.diagnostic` words a fault. The registry is valid when the
list is empty.

`Registry.validate` answers with the diagnostics of the faults. So it answers only if all types that
are written in them have a text.
-/

namespace TaggedMatch

/-- The names that occur more than once, each listed where it occurs for the second time; `seen`
are the ones that came before. -/
def duplicatesAfter (seen : List Name) : List Name → List Name
  | [] => []
  | n :: rest =>
      if seen.count n = 1 then n :: duplicatesAfter (n :: seen) rest
      else duplicatesAfter (n :: seen) rest

/-- The names that occur more than once, in the order of their second occurrences. -/
def duplicates (names : List Name) : List Name := duplicatesAfter [] names

namespace Registry

/-- The mentions among `types` of ids that were never issued. -/
def unknownAmong (r : Registry) (types : List TypeId) (span : Span) : List Fault :=
  (types.filter (!r.knows ·)).map (.mentionsUnknown · span)

/-- A constant may be listed once. -/
def enumFaults (d : EnumDef) (span : Span) : List Fault :=
  (duplicates d.constants).map (.constantTwice · d.name span)

/-- A fallback policy has to name a declared alternative whose payload has a default. -/
def policyFaults (r : Registry) (d : UnionDef) (span : Span) : List Fault :=
  match d.policy with
  | .propagate | .abort => []
  | .fallbackToEmpty empty =>
      match d.alternatives.find? (·.name == empty) with
      | none => [.fallbackUndeclared empty d.name span]
      | some alternative =>
          if r.isDefaultConstructible alternative.payload then []
          else [.fallbackWithoutDefault empty alternative.payload alternative.span]

/-- A union has alternatives, each name once and each payload of a known type. -/
def unionFaults (r : Registry) (d : UnionDef) (span : Span) : List Fault :=
  (if d.alternatives.isEmpty then [.noAlternatives d.name span] else [])
    ++ (duplicates (d.alternatives.map (·.name))).map (.alternativeTwice · d.name span)
    ++ d.alternatives.flatMap (fun alternative =>
      r.unknownAmong [alternative.payload] alternative.span)
    ++ r.policyFaults d span

/-- A field may be listed once and is of a known type. -/
def aggregateFaults (r : Registry) (d : AggregateDef) (span : Span) : List Fault :=
  (duplicates (d.fields.map (·.name))).map (.fieldTwice · d.name span)
    ++ d.fields.flatMap (fun field => r.unknownAmong [field.ty] field.span)

/-- A label may be given once; any number of pieces may go without. -/
def aggregateShapeFaults (r : Registry) (owner : Name) (shape : AggregateShape) (span : Span) :
    List Fault :=
  (duplicates (shape.pieces.filterMap (·.label))).map (.labelTwice · owner span)
    ++ r.unknownAmong (shape.pieces.map (·.ty)) span

/-- A selector may have one discriminator. -/
def selectorFaults (owner : Name) (shape : VariantShape) (span : Span) (selector : Name) :
    List Fault :=
  let discriminators := shape.discriminatorsFor selector
  if discriminators.length > 1 then [.selectorAmbiguous selector owner discriminators span] else []

/-- A selector with several discriminators is a fault of its first alternative; a discriminator
under two selectors is one of every alternative whose selector is not the first to claim it. -/
def variantAlternativeFaults (r : Registry) (owner : Name) (shape : VariantShape) (span : Span)
    (earlier : List VariantAlternativeDef) (alternative : VariantAlternativeDef) : List Fault :=
  r.unknownAmong [alternative.payload] span
    ++ (if earlier.all (·.selector != alternative.selector) then
        selectorFaults owner shape span alternative.selector
      else [])
    ++ match earlier.find? (·.discriminator == alternative.discriminator) with
      | some claimant =>
          if claimant.selector == alternative.selector then []
          else [.discriminatorShared alternative.discriminator owner claimant.selector
            alternative.selector span]
      | none => []

def variantShapeFaults (r : Registry) (owner : Name) (shape : VariantShape) (span : Span) :
    List Fault :=
  shape.alternatives.zipIdx.flatMap fun (alternative, i) =>
    r.variantAlternativeFaults owner shape span (shape.alternatives.take i) alternative

def extensionFaults (r : Registry) (d : ExtensionDef) (span : Span) : List Fault :=
  (d.aggregate.toList.flatMap fun shape => r.aggregateShapeFaults d.name shape span)
    ++ d.variant.toList.flatMap fun shape => r.variantShapeFaults d.name shape span

/-- What one entry gets wrong. -/
def entryFaults (r : Registry) (entry : TypeEntry) : List Fault :=
  match entry.kind with
  | .int | .bool | .char | .str | .unit => []
  | .declared => [.neverDefined entry.name entry.span]
  | .enumeration d => enumFaults d entry.span
  | .union d => r.unionFaults d entry.span
  | .aggregate d => r.aggregateFaults d entry.span
  | .tuple elements => r.unknownAmong elements entry.span
  | .pointer pointee => r.unknownAmong [pointee] entry.span
  | .extension d => r.extensionFaults d entry.span

/-- Everything that is wrong with the declarations so far. -/
def faults (r : Registry) : List Fault :=
  r.recorded ++ r.entries.toList.flatMap r.entryFaults

/-- Whether values may be built and patterns checked against the registry. -/
def isValid (r : Registry) : Bool := r.faults.isEmpty

end Registry

/-! ## Wording -/

/-- The diagnostic of a selector with several discriminators. A pattern that uses the selector is
refused with the same words as the declaration. -/
def Registry.ambiguousSelector (r : Registry) (selector owner : Name) (discriminators : List Int64)
    (span : Span) : Diagnostic :=
  let list := ", ".intercalate (discriminators.map toString)
  (Diagnostic.error .ambiguousSelector
    (s!"selector `{r.text selector}` of `{r.text owner}` is bound to several discriminators "
      ++ s!"({list})"))
    |>.withLabel span "ambiguous selector"

/-- The diagnostic of a fault. -/
def Fault.diagnostic (r : Registry) : Fault → Diagnostic
  | .declaredTwice name again first =>
      (Diagnostic.error .duplicateType s!"type `{r.text name}` is declared twice")
        |>.withLabel again "declared again here"
        |>.withSecondaryLabel first "first declared here"
  | .definedTwice name span =>
      (Diagnostic.error .duplicateType s!"type `{r.text name}` is defined twice")
        |>.withLabel span "already defined"
  | .definesUnknown ty => Diagnostic.error .unknownType s!"cannot define unknown type {ty.tag}"
  | .neverDefined name span =>
      (Diagnostic.error .undefinedType s!"type `{r.text name}` is declared but never defined")
        |>.withLabel span "declared here"
  | .constantTwice constant owner span =>
      (Diagnostic.error .duplicateConstant
        s!"constant `{r.text constant}` is declared twice in enum `{r.text owner}`")
        |>.withLabel span "in this enum"
  | .noAlternatives owner span =>
      (Diagnostic.error .emptyUnion s!"union `{r.text owner}` has no alternatives")
        |>.withLabel span "declared here"
        |>.withNote "a union value always holds exactly one alternative"
  | .alternativeTwice alternative owner span =>
      (Diagnostic.error .duplicateAlternative
        s!"alternative `{r.text alternative}` is declared twice in union `{r.text owner}`")
        |>.withLabel span "in this union"
  | .fallbackUndeclared alternative owner span =>
      (Diagnostic.error .undeclaredFallback
        s!"fallback alternative `{r.text alternative}` is not declared in union `{r.text owner}`")
        |>.withLabel span "in this union"
        |>.withSuggestion s!"add a marker alternative: `{r.text alternative}: ()`"
  | .fallbackWithoutDefault alternative payload span =>
      (Diagnostic.error .fallbackWithoutDefault
        (s!"fallback alternative `{r.text alternative}` has payload "
          ++ s!"`{r.display payload}` with no default value"))
        |>.withLabel span "declared here"
  | .fieldTwice field owner span =>
      (Diagnostic.error .duplicateField
        s!"field `{r.text field}` is declared twice in `{r.text owner}`")
        |>.withLabel span "in this aggregate"
  | .labelTwice label owner span =>
      (Diagnostic.error .duplicateLabel
        (s!"piece label `{r.text label}` is declared twice in the extraction shape of "
          ++ s!"`{r.text owner}`"))
        |>.withLabel span "in this declaration"
  | .selectorAmbiguous selector owner discriminators span =>
      r.ambiguousSelector selector owner discriminators span
  | .discriminatorShared discriminator owner first second span =>
      (Diagnostic.error .sharedDiscriminator
        (s!"discriminator {discriminator} of `{r.text owner}` is claimed by both "
          ++ s!"`{r.text first}` and `{r.text second}`"))
        |>.withLabel span "in this declaration"
  | .mentionsUnknown ty span =>
      (Diagnostic.error .unknownType s!"reference to unknown type {ty.tag}")
        |>.withLabel span "in this declaration"

/-- The types that are written in the diagnostic of a fault. -/
def Fault.written : Fault → List TypeId
  | .fallbackWithoutDefault _ payload _ => [payload]
  | .declaredTwice .. | .definedTwice .. | .definesUnknown _ | .neverDefined .. | .constantTwice ..
  | .noAlternatives .. | .alternativeTwice .. | .fallbackUndeclared .. | .fieldTwice ..
  | .labelTwice .. | .selectorAmbiguous .. | .discriminatorShared .. | .mentionsUnknown .. => []

/-- The diagnostic of a fault, if the writing of it ends. -/
def Fault.diagnostic? (r : Registry) (fault : Fault) : Option Diagnostic :=
  (r.displayAll? fault.written).map fun _ => fault.diagnostic r

/-- What validation answers, that all is well or what is wrong. It gives no answer if the writing of
a diagnostic does not end. -/
def Registry.validate (r : Registry) : Option (Except (List Diagnostic) Unit) :=
  if r.isValid then some (.ok ())
  else (r.faults.mapM (Fault.diagnostic? r)).map .error

end TaggedMatch
