import TaggedMatch.Pattern.Mistake

/-!
# Checking a pattern against a type

Checking resolves a pattern against the subject's type: selectors become discriminators, constants
and fields become positions, and the entries of a field pattern are put in the order of
declaration. What is left, a tree of `Node`s, can be run on values without a registry.

A check does not stop at the first mistake. Each node yields its resolved form and its *findings*
in written order, the mistakes and the identifiers it binds; a mistaken node stands as a wildcard,
and what is below it is not looked at. The findings of a pattern are those of its parts one after
the other. So the only thing that has to be seen across parts, an identifier bound twice, is read
off the findings at the end.
-/

namespace TaggedMatch

/-! ## Resolved patterns -/

/-- A literal as it is compared with values. -/
inductive LiteralTest where
  | int (n : Int64)
  | bool (b : Bool)
  | char (c : Char)
  /-- The constant at `index` of the enum `ty`, whose name is `typeName`. -/
  | constant (ty : TypeId) (typeName : String) (index : Nat)
deriving DecidableEq, Repr

/-- A resolved pattern. The products keep their parts with their positions, in ascending order. -/
inductive Node (γ : Type) where
  | wildcard
  | literal (test : LiteralTest)
  | binding (name : Name) (sub : Node γ)
  | null
  | deref (pointee : Node γ)
  | unionAlternative (ty : TypeId) (typeName : String) (discriminator : Nat) (payload : Node γ)
  | variantAlternative (ty : TypeId) (typeName : String) (discriminator : Int64) (payload : Node γ)
  | tuple (items : List (Node γ))
  | fields (ty : TypeId) (typeName : String) (slots : List (Nat × Node γ))
  | pieces (ty : TypeId) (typeName : String) (slots : List (Nat × Node γ))
  | guarded (sub : Node γ) (guard : γ)
deriving Repr

/-- A pattern that passed the check against `ty`. -/
structure Compiled (γ : Type) where
  root : Node γ
  ty : TypeId
  /-- The identifiers that a match binds, in written order. -/
  binders : List Name
  span : Span
deriving Repr

/-! ## Looking into a type -/

/-- What kind of product a type shows to patterns. -/
inductive Product where
  | tuple
  | aggregate (ty : TypeId) (typeName : String)
  | extension (ty : TypeId) (typeName : String)
deriving DecidableEq, Repr

/-- The parts of a product; those of a tuple have no labels. -/
structure Layout where
  product : Product
  parts : List PieceDef
deriving DecidableEq, Repr

namespace Layout

/-- The position and type of the first part with this label. -/
def find? (layout : Layout) (label : Name) : Option (Nat × TypeId) :=
  (layout.parts.findIdx? (·.label == some label)).bind fun index =>
    layout.parts[index]?.map fun part => (index, part.ty)

variable {γ : Type}

/-- The node that tests every part. -/
def ofItems (layout : Layout) (items : List (Node γ)) : Node γ :=
  let slots := items.zipIdx.map fun (node, index) => (index, node)
  match layout.product with
  | .tuple => .tuple items
  | .aggregate ty typeName => .fields ty typeName slots
  | .extension ty typeName => .pieces ty typeName slots

/-- The node that tests some parts, whatever the order they are given in. A tuple has no labels, so
the only field pattern that fits one asks for none of its parts. -/
def ofSlots (layout : Layout) (slots : List (Nat × Node γ)) : Node γ :=
  let sorted := slots.mergeSort fun a b => a.1 ≤ b.1
  match layout.product with
  | .tuple => .tuple (List.replicate layout.parts.length .wildcard)
  | .aggregate ty typeName => .fields ty typeName sorted
  | .extension ty typeName => .pieces ty typeName sorted

end Layout

/-- The parts that a type shows to product patterns. -/
def Registry.layout (r : Registry) (kind : TypeKind) (ty : TypeId) (span : Span) :
    Except Mistake Layout :=
  match kind with
  | .tuple elements => .ok ⟨.tuple, elements.map (⟨none, ·⟩)⟩
  | .aggregate d =>
      if d.allPublic then
        .ok ⟨.aggregate ty (r.text d.name), d.fields.map fun f => ⟨some f.name, f.ty⟩⟩
      else .error (.encapsulated ty span)
  | .extension d =>
      match d.aggregate with
      | some shape => .ok ⟨.extension ty (r.text d.name), shape.pieces⟩
      | none => .error (.notAnAggregate ty span)
  | _ => .error (.notAnAggregate ty span)

/-- What an alternative pattern tests. -/
inductive AlternativeTest where
  | union (ty : TypeId) (typeName : String) (discriminator : Nat)
  | variant (ty : TypeId) (typeName : String) (discriminator : Int64)
deriving DecidableEq, Repr

/-- The node that makes the test and then looks at the payload. -/
def AlternativeTest.node {γ : Type} (test : AlternativeTest) (payload : Node γ) : Node γ :=
  match test with
  | .union ty typeName discriminator => .unionAlternative ty typeName discriminator payload
  | .variant ty typeName discriminator => .variantAlternative ty typeName discriminator payload

/-- The test for an alternative of a type, and the type of the alternative's payload. -/
def Registry.alternativeTest (r : Registry) (selector : Name) (kind : TypeKind) (ty : TypeId)
    (span : Span) : Except Mistake (AlternativeTest × TypeId) :=
  match kind with
  | .union d =>
      match d.alternativeIndex? selector with
      | some discriminator =>
          .ok (.union ty (r.text d.name) discriminator, d.payloadType discriminator)
      | none => .error (.unknownAlternative selector ty span)
  | .extension d =>
      match d.variant with
      | some shape =>
          match shape.discriminatorsFor selector with
          | [] => .error (.unknownAlternative selector ty span)
          | [discriminator] =>
              .ok (.variant ty (r.text d.name) discriminator, shape.payloadType selector)
          | discriminators => .error (.ambiguousSelector selector d.name discriminators span)
      | none => .error (.withoutAlternatives selector ty span)
  | _ => .error (.withoutAlternatives selector ty span)

/-- The test for a literal of a type. -/
def Registry.literalTest (r : Registry) (literal : Literal) (kind : TypeKind) (ty : TypeId)
    (span : Span) : Except Mistake LiteralTest :=
  match literal, kind with
  | .int n, .int => .ok (.int n)
  | .bool b, .bool => .ok (.bool b)
  | .char c, .char => .ok (.char c)
  | .constant name, .enumeration d =>
      match d.constantIndex? name with
      | some index => .ok (.constant ty (r.text d.name) index)
      | none => .error (.unknownConstant name ty span)
  | _, _ => .error (.literalMismatch literal ty span)

/-! ## The check -/

/-- Something met on the way through a pattern. -/
inductive Finding where
  | mistake (m : Mistake)
  /-- A binding, at its place. -/
  | binder (name : Name) (span : Span)
deriving DecidableEq, Repr

/-- The resolved form of a pattern and what was found in it. -/
structure Draft (γ : Type) where
  node : Node γ
  findings : List Finding
deriving Repr

/-- The draft of a node that cannot be resolved. -/
def Draft.mistaken {γ : Type} (m : Mistake) : Draft γ := ⟨.wildcard, [.mistake m]⟩

namespace Pattern

variable {γ : Type}

mutual

/-- Resolves a pattern against a type. -/
def draft (r : Registry) (p : Pattern γ) (ty : TypeId) : Draft γ :=
  match r.kind? ty with
  | none => .mistaken (.unknownType ty p.span)
  | some kind =>
      match p with
      | .wildcard _ => ⟨.wildcard, []⟩
      | .literal span value =>
          match r.literalTest value kind ty span with
          | .ok test => ⟨.literal test, []⟩
          | .error m => .mistaken m
      | .binding span name sub =>
          let inner := sub.draft r ty
          ⟨.binding name inner.node, .binder name span :: inner.findings⟩
      | .null span =>
          match kind with
          | .pointer _ => ⟨.null, []⟩
          | _ => .mistaken (.notAPointer "null" ty span)
      | .deref span sub =>
          match kind with
          | .pointer pointee =>
              let inner := sub.draft r pointee
              ⟨.deref inner.node, inner.findings⟩
          | _ => .mistaken (.notAPointer "dereference" ty span)
      | .alternative span selector payload =>
          match r.alternativeTest selector kind ty span with
          | .ok (test, payloadTy) =>
              let inner := payload.draft r payloadTy
              ⟨test.node inner.node, inner.findings⟩
          | .error m => .mistaken m
      | .sequence span items =>
          match r.layout kind ty span with
          | .ok layout =>
              if layout.parts.length = items.length then
                let (nodes, findings) := draftItems r items (layout.parts.map (·.ty))
                ⟨layout.ofItems nodes, findings⟩
              else .mistaken (.arityMismatch layout.parts.length items.length ty span)
          | .error m => .mistaken m
      | .fields span entries =>
          match r.layout kind ty span with
          | .ok layout =>
              let (slots, findings) := draftEntries r layout ty [] entries
              ⟨layout.ofSlots slots, findings⟩
          | .error m => .mistaken m
      | .guarded _ sub guard =>
          let inner := sub.draft r ty
          ⟨.guarded inner.node guard, inner.findings⟩

/-- Resolves patterns against as many types. -/
def draftItems (r : Registry) : List (Pattern γ) → List TypeId → List (Node γ) × List Finding
  | p :: ps, ty :: tys =>
      let first := p.draft r ty
      let (nodes, findings) := draftItems r ps tys
      (first.node :: nodes, first.findings ++ findings)
  | _, _ => ([], [])

/-- Resolves the entries of a field pattern. An entry whose label was `seen` before counts as a
mistake and nothing else. -/
def draftEntries (r : Registry) (layout : Layout) (ty : TypeId) (seen : List (Name × Span)) :
    List (FieldEntry (Pattern γ)) → List (Nat × Node γ) × List Finding
  | [] => ([], [])
  | ⟨name, p, span⟩ :: rest =>
      match seen.lookup name with
      | some first =>
          let (slots, findings) := draftEntries r layout ty seen rest
          (slots, .mistake (.listedTwice name span first) :: findings)
      | none =>
          let (slots, findings) := draftEntries r layout ty ((name, span) :: seen) rest
          match layout.find? name with
          | some (index, partTy) =>
              let here := p.draft r partTy
              ((index, here.node) :: slots, here.findings ++ findings)
          | none => (slots, .mistake (.unknownField name ty span) :: findings)

end

variable {r : Registry} {ty : TypeId} {kind : TypeKind} {span : Span}

/-- Against a type that is not known every pattern is one mistake. -/
theorem draft_unknown {p : Pattern γ} (hkind : r.kind? ty = none) :
    p.draft r ty = .mistaken (.unknownType ty p.span) := by
  unfold draft
  rw [hkind]

theorem draft_wildcard (hkind : r.kind? ty = some kind) :
    (wildcard span : Pattern γ).draft r ty = ⟨.wildcard, []⟩ := by
  rw [draft, hkind]

end Pattern

namespace Finding

/-- The mistakes among findings, where `bound` was bound before: those that were met, and every
binding of an identifier after its first. -/
def mistakesAfter (bound : List (Name × Span)) : List Finding → List Mistake
  | [] => []
  | .mistake m :: rest => m :: mistakesAfter bound rest
  | .binder name span :: rest =>
      match bound.lookup name with
      | some first => .boundTwice name span first :: mistakesAfter bound rest
      | none => mistakesAfter ((name, span) :: bound) rest

/-- The mistakes among the findings of a whole pattern. -/
def mistakes (findings : List Finding) : List Mistake := mistakesAfter [] findings

/-- The identifiers bound, in written order. -/
def binders (findings : List Finding) : List Name :=
  findings.filterMap fun
    | .binder name _ => some name
    | .mistake _ => none

end Finding

/-- Checks a pattern against a type: the resolved pattern, or all mistakes in written order. -/
def Pattern.check {γ : Type} (r : Registry) (p : Pattern γ) (ty : TypeId) :
    Except (List Mistake) (Compiled γ) :=
  let draft := p.draft r ty
  match Finding.mistakes draft.findings with
  | [] => .ok ⟨draft.node, ty, Finding.binders draft.findings, p.span⟩
  | mistakes => .error mistakes

end TaggedMatch
