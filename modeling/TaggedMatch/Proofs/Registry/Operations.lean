import Mathlib.Data.List.Induction
import TaggedMatch.Proofs.Registry.Names

/-!
# What an operation does

Fifteen operations come to six effects. Some only intern texts. Some declare a type; four of these
give it its body in the same breath, and come to the same as declaring and defining one after the
other (`run_steps`). Some are aimed at a type that was declared before and offer it a body, and what
becomes of that depends on the type. The last two make a tuple or a pointer type. `apply_effect` says
which operation has which effect, and nothing below looks at an operation again.

A history declares an id when one of its operations, done at the time, does. `declaredUnder_iff`
reads this off the registry that the history leads to: the ids that were declared are those of the
nominal entries, and each has the name of the text it was declared under.
-/

namespace TaggedMatch

namespace Operation

/-- The text that a type is declared under. -/
def declares? : Operation → Option String
  | .declareAt name _ | .enumeration name _ | .union name _ _ | .aggregate name _
  | .extension name _ _ => some name
  | .intern _ | .byName _ | .fallbackTo _ | .defineEnum .. | .defineUnion .. | .defineUnionWith ..
  | .defineAggregate .. | .defineExtension .. | .tuple _ | .pointer _ => none

/-- The type that a body is offered to. Declaring a type with its body is not aimed at any type: the
id is only being issued. -/
def target? : Operation → Option TypeId
  | .defineEnum ty _ | .defineUnion ty _ _ | .defineUnionWith ty _ _ | .defineAggregate ty _
  | .defineExtension ty _ _ => some ty
  | .intern _ | .byName _ | .fallbackTo _ | .declareAt .. | .enumeration .. | .union ..
  | .aggregate .. | .extension .. | .tuple _ | .pointer _ => none

/-- The body that is offered: the target's id and name, and what the caller gave, texts by their
names. -/
def body? (r : Registry) : Operation → Option TypeKind
  | .defineEnum ty constants =>
      some (.enumeration ⟨r.nameOf ty, ty, (r.internAll constants).1⟩)
  | .defineUnion ty alternatives policy =>
      let names := (r.internAll (alternatives.map (·.1))).1
      let bodies := (names.zip (alternatives.map (·.2))).map fun (n, payload) =>
        ⟨n, payload, Span.dummy⟩
      some (.union ⟨r.nameOf ty, ty, bodies, policy⟩)
  | .defineUnionWith ty alternatives policy =>
      some (.union ⟨r.nameOf ty, ty, alternatives, policy⟩)
  | .defineAggregate ty fields => some (.aggregate ⟨r.nameOf ty, ty, fields⟩)
  | .defineExtension ty pieces alternatives =>
      some (.extension ⟨r.nameOf ty, ty, pieces, alternatives⟩)
  | .intern _ | .byName _ | .fallbackTo _ | .declareAt .. | .enumeration .. | .union ..
  | .aggregate .. | .extension .. | .tuple _ | .pointer _ => none

/-- Declaring a type with its body in single steps, where the registry stands; any other operation
is a step by itself. -/
def steps (r : Registry) : Operation → List Operation
  | .enumeration name constants => [.declareAt name Span.dummy, .defineEnum ⟨r.size⟩ constants]
  | .union name alternatives policy =>
      [.declareAt name Span.dummy, .defineUnion ⟨r.size⟩ alternatives policy]
  | .aggregate name fields =>
      let names := ((r.declare name).2.internAll (fields.map (·.1))).1
      let bodies := (names.zip (fields.map (·.2))).map fun (n, fieldTy) =>
        ⟨n, fieldTy, .isPublic, Span.dummy⟩
      .declareAt name Span.dummy :: (fields.map (.intern ·.1)) ++
        [.defineAggregate ⟨r.size⟩ bodies]
  | .extension name pieces alternatives =>
      [.declareAt name Span.dummy, .defineExtension ⟨r.size⟩ pieces alternatives]
  | operation => [operation]

end Operation

namespace Registry

variable {r r' : Registry} {ty : TypeId}

/-! ## Single steps -/

theorem declareAt_fst (r : Registry) (name : String) (span : Span) :
    (r.declareAt name span).1 = ⟨r.size⟩ := by
  simp only [declareAt, intern, push]
  split <;> rfl

theorem run_append (r : Registry) (operations more : List Operation) :
    r.run (operations ++ more) = (r.run operations).run more :=
  List.foldl_append

theorem run_intern (r : Registry) (texts : List String) :
    r.run (texts.map .intern) = (r.internAll texts).2 := by
  induction texts generalizing r with
  | nil => rfl
  | cons s rest ih => exact ih (r.intern s).2

/-- Single steps lead to the same registry. -/
theorem run_steps (r : Registry) (operation : Operation) :
    r.run (operation.steps r) = r.apply operation := by
  cases operation with
  | enumeration | union | extension =>
      simp only [Operation.steps, run, List.foldl_cons, List.foldl_nil, apply, enumeration, union,
        extension, declare, declareAt_fst]
  | aggregate name fields =>
      have hintern : fields.map (Operation.intern ·.1) = (fields.map (·.1)).map .intern := by simp
      have hrun := run_intern (r.declare name).2 (fields.map (·.1))
      rw [run, declare] at hrun
      simp only [Operation.steps, hintern, run, List.foldl_append, List.foldl_cons, List.foldl_nil,
        apply, aggregate, declare, declareAt_fst, hrun]
  | intern | byName | fallbackTo | declareAt | defineEnum | defineUnion | defineUnionWith
  | defineAggregate | defineExtension | tuple | pointer => rfl

/-! ## Effects -/

/-- The registry over another table of texts. -/
def withTexts (r : Registry) (t : Interner) : Registry := { r with interner := t }

/-- What operations do to a registry, up to how far the table of texts grows. -/
inductive Effect (r : Registry) : Operation → Registry → Prop
  | interned {operation} (t : Interner) (grown : r.interner.strings <+: t.strings)
      (undeclared : operation.declares? = none) (untargeted : operation.target? = none) :
      Effect r operation (r.withTexts t)
  | declared {operation} (name : String) (span : Span) (declares : operation.declares? = some name)
      (untargeted : operation.target? = none) : Effect r operation (r.declareAt name span).2
  /-- A type was declared and got its body at once. -/
  | introduced {operation} (name : String) (t : Interner) (body : TypeKind)
      (grown : (r.intern name).2.interner.strings <+: t.strings)
      (declares : operation.declares? = some name) (untargeted : operation.target? = none)
      (owner : body.owner? = some (⟨r.size⟩, (r.intern name).1)) :
      Effect r operation (((r.declareAt name Span.dummy).2.withTexts t).define ⟨r.size⟩ body)
  /-- A body was offered, to be taken or not. -/
  | offered {operation} (t : Interner) (target : TypeId) (body : TypeKind)
      (grown : r.interner.strings <+: t.strings) (undeclared : operation.declares? = none)
      (aimed : operation.target? = some target) (offers : operation.body? r = some body)
      (owner : body.owner? = some (target, r.nameOf target)) :
      Effect r operation ((r.withTexts t).define target body)
  | tuple (elements : List TypeId) : Effect r (.tuple elements) (r.tuple elements).2
  | pointer (pointee : TypeId) : Effect r (.pointer pointee) (r.pointer pointee).2

theorem internAll_interner (r : Registry) (texts : List String) :
    ∃ t : Interner, r.interner.strings <+: t.strings ∧
      (r.internAll texts).2 = r.withTexts t := by
  induction texts generalizing r with
  | nil => exact ⟨r.interner, List.prefix_rfl, rfl⟩
  | cons s rest ih =>
      obtain ⟨t, hgrown, heq⟩ := ih (r.intern s).2
      exact ⟨t, (r.interner.strings_intern s).trans hgrown, heq⟩

theorem nameOf_declareAt (r : Registry) (name : String) (span : Span) :
    (r.declareAt name span).2.nameOf ⟨r.size⟩ = (r.intern name).1 :=
  nameOf_of_find? ((find?_declareAt r name span ⟨r.size⟩).trans (if_pos rfl))

theorem defineEnum_effect (r : Registry) (ty : TypeId) (constants : List String) :
    Effect r (.defineEnum ty constants) (r.defineEnum ty constants) := by
  obtain ⟨t, hgrown, heq⟩ := r.internAll_interner constants
  have hdefine : r.defineEnum ty constants =
      (r.withTexts t).define ty (.enumeration ⟨r.nameOf ty, ty, (r.internAll constants).1⟩) := by
    simp only [defineEnum, heq]
    rfl
  rw [hdefine]
  exact .offered t ty _ hgrown rfl rfl rfl rfl

theorem defineUnion_effect (r : Registry) (ty : TypeId) (alternatives : List (String × TypeId))
    (policy : AssignPolicy) :
    Effect r (.defineUnion ty alternatives policy) (r.defineUnion ty alternatives policy) := by
  obtain ⟨t, hgrown, heq⟩ := r.internAll_interner (alternatives.map (·.1))
  have hoffer : r.Effect (.defineUnion ty alternatives policy) ((r.withTexts t).define ty _) :=
    .offered t ty _ hgrown rfl rfl rfl rfl
  simp only [defineUnion, defineUnionWith, heq]
  exact hoffer

/-- Offering a body to the id just declared is one effect with declaring it. -/
theorem Effect.introduce {operation : Operation} (offer : Operation) {name : String} (t : Interner)
    (h : Effect ((r.declare name).2.withTexts t) offer r')
    (grown : (r.declare name).2.interner.strings <+: t.strings)
    (aimed : offer.target? = some ⟨r.size⟩) (declares : operation.declares? = some name)
    (untargeted : operation.target? = none) : Effect r operation r' := by
  rw [declare, interner_declareAt] at grown
  cases h with
  | offered t' target body more _ target_eq _ owner =>
      cases aimed.symm.trans target_eq
      have howner : body.owner? = some (⟨r.size⟩, (r.intern name).1) :=
        owner.trans (by rw [← nameOf_declareAt r name Span.dummy]; rfl)
      exact .introduced name t' body (grown.trans more) declares untargeted howner
  | interned _ _ _ nowhere | declared _ _ _ nowhere | introduced _ _ _ _ _ nowhere =>
      cases aimed.symm.trans nowhere
  | tuple | pointer => cases aimed

/-- Every operation has one of the effects. -/
theorem apply_effect (r : Registry) (operation : Operation) :
    Effect r operation (r.apply operation) := by
  have interned (s : String) (hd : operation.declares? = none) (ht : operation.target? = none) :
      Effect r operation (r.intern s).2 :=
    .interned _ (r.interner.strings_intern s) hd ht
  cases operation with
  | intern s | byName s | fallbackTo s => exact interned s rfl rfl
  | declareAt name span => exact .declared name span rfl rfl
  | defineEnum ty constants => exact r.defineEnum_effect ty constants
  | defineUnion ty alternatives policy => exact r.defineUnion_effect ty alternatives policy
  | defineUnionWith | defineAggregate | defineExtension =>
      exact .offered r.interner _ _ List.prefix_rfl rfl rfl rfl rfl
  | enumeration name constants =>
      have hoffer := (r.declare name).2.defineEnum_effect ⟨r.size⟩ constants
      simp only [apply, enumeration, declare, declareAt_fst]
      exact hoffer.introduce _ _ List.prefix_rfl rfl rfl rfl
  | union name alternatives policy =>
      have hoffer := (r.declare name).2.defineUnion_effect ⟨r.size⟩ alternatives policy
      simp only [apply, union, declare, declareAt_fst]
      exact hoffer.introduce _ _ List.prefix_rfl rfl rfl rfl
  | aggregate name fields =>
      obtain ⟨t, hgrown, heq⟩ := (r.declare name).2.internAll_interner (fields.map (·.1))
      simp only [apply, aggregate, declare, declareAt_fst] at heq ⊢
      rw [heq]
      exact Effect.introduce (.defineAggregate ⟨r.size⟩ _) t
        (.offered t _ _ List.prefix_rfl rfl rfl rfl rfl) hgrown rfl rfl rfl
  | extension name aggregate variant =>
      simp only [apply, extension, declare, declareAt_fst]
      exact Effect.introduce (.defineExtension ⟨r.size⟩ aggregate variant) _
        (.offered _ _ _ List.prefix_rfl rfl rfl rfl rfl) List.prefix_rfl rfl rfl rfl
  | tuple elements => exact .tuple elements
  | pointer pointee => exact .pointer pointee

/-! ## Offers

A type that waits for its body takes the first that it is offered. Any other type refuses, which is
one fault and nothing else. -/

/-- The fault of offering a body to a type that takes none. -/
def refusal (r : Registry) (ty : TypeId) : Fault :=
  match r.find? ty with
  | some entry => .definedTwice entry.name entry.span
  | none => .definesUnknown ty

theorem kind?_eq_some_iff {kind : TypeKind} :
    r.kind? ty = some kind ↔ ∃ entry, r.find? ty = some entry ∧ entry.kind = kind :=
  Option.map_eq_some_iff

theorem define_refused (h : r.kind? ty ≠ some .declared) (body : TypeKind) :
    r.define ty body = r.record (r.refusal ty) := by
  cases hentry : r.find? ty with
  | none => rw [define, refusal, hentry]
  | some entry =>
      have hkind : entry.kind ≠ .declared := fun hkind =>
        h (kind?_eq_some_iff.mpr ⟨entry, hentry, hkind⟩)
      rw [define, refusal, hentry]
      simp only []

theorem define_taken (h : r.kind? ty = some .declared) (body : TypeKind) :
    ∃ entries, r.define ty body = { r with entries := entries } := by
  obtain ⟨entry, hentry, hkind⟩ := kind?_eq_some_iff.mp h
  exact ⟨r.entries.setIfInBounds ty.index { entry with kind := body },
    by simp only [define, hentry, hkind]⟩

theorem kind?_define (h : r.kind? ty = some .declared) (body : TypeKind) (other : TypeId) :
    (r.define ty body).kind? other = if other = ty then some body else r.kind? other := by
  obtain ⟨entry, hentry, hkind⟩ := kind?_eq_some_iff.mp h
  rw [kind?, define_of_declared body hentry hkind, kind?]
  split <;> rfl

/-! ## The names of declared types -/

/-- The kinds of types that are declared, as opposed to those that are there from the start or are
made of other types. -/
def IsNominal : TypeKind → Prop
  | .declared | .enumeration _ | .union _ | .aggregate _ | .extension _ => True
  | .int | .bool | .char | .str | .unit | .tuple _ | .pointer _ => False

theorem isNominal_of_owner {kind : TypeKind} {owner : TypeId × Name}
    (h : kind.owner? = some owner) : IsNominal kind := by
  cases kind <;> trivial

/-- `r.Named ty n`: the type was declared, and its name is `n`. -/
def Named (r : Registry) (ty : TypeId) (n : Name) : Prop :=
  ∃ entry, r.find? ty = some entry ∧ IsNominal entry.kind ∧ entry.name = n

theorem named_declareAt {name : String} {span : Span} {n : Name} :
    (r.declareAt name span).2.Named ty n ↔
      (ty = ⟨r.size⟩ ∧ n = (r.intern name).1) ∨ r.Named ty n := by
  simp only [Named, find?_declareAt]
  by_cases hty : ty = ⟨r.size⟩
  · subst hty
    simp [find?_size, IsNominal, eq_comm]
  · simp [hty]

theorem named_define {target : TypeId} {body : TypeKind} (hbody : IsNominal body) {n : Name} :
    (r.define target body).Named ty n ↔ r.Named ty n := by
  by_cases h : r.kind? target = some .declared
  · obtain ⟨entry, hentry, hkind⟩ := kind?_eq_some_iff.mp h
    have hentryNominal : IsNominal entry.kind := by rw [hkind]; trivial
    simp only [Named, define_of_declared body hentry hkind]
    by_cases hty : ty = target
    · subst hty
      simp [hentry, hentryNominal, hbody]
    · simp [hty]
  · rw [define_refused h]
    rfl

theorem named_push (entry : TypeEntry) (h : ¬ IsNominal entry.kind) {n : Name} :
    (r.push entry).2.Named ty n ↔ r.Named ty n := by
  simp only [Named, find?_push]
  by_cases hty : ty = (r.push entry).1
  · subst hty
    simp [h, find?_size, push]
  · simp [hty]

theorem named_tuple {elements : List TypeId} {n : Name} :
    (r.tuple elements).2.Named ty n ↔ r.Named ty n := by
  rw [tuple]
  split
  · rfl
  · exact named_push ⟨Name.empty, .tuple elements, Span.dummy⟩ id

theorem named_pointer {pointee : TypeId} {n : Name} :
    (r.pointer pointee).2.Named ty n ↔ r.Named ty n := by
  rw [pointer]
  split
  · rfl
  · exact named_push ⟨Name.empty, .pointer pointee, Span.dummy⟩ id

/-- The ids that an operation declares are named, and nothing else changes about names. -/
theorem Effect.named_iff {operation : Operation} (h : Effect r operation r') {n : Name} :
    r'.Named ty n ↔ (∃ name, operation.declares? = some name ∧ ty = ⟨r.size⟩ ∧
      n = (r.intern name).1) ∨ r.Named ty n := by
  have undeclared (hd : operation.declares? = none) :
      r.Named ty n ↔ (∃ name, operation.declares? = some name ∧ ty = ⟨r.size⟩ ∧
        n = (r.intern name).1) ∨ r.Named ty n := by
    simp [hd]
  cases h with
  | interned t _ hd => exact undeclared hd
  | declared name span hd => simp [hd, named_declareAt]
  | introduced name t body _ hd _ owner =>
      have hbody := isNominal_of_owner owner
      have htexts : ((r.declareAt name Span.dummy).2.withTexts t).Named ty n ↔
          (r.declareAt name Span.dummy).2.Named ty n := Iff.rfl
      rw [named_define hbody, htexts, named_declareAt]
      simp [hd]
  | offered t target body _ hd _ _ owner =>
      rw [named_define (isNominal_of_owner owner)]
      exact undeclared hd
  | tuple => exact named_tuple.trans (undeclared rfl)
  | pointer => exact named_pointer.trans (undeclared rfl)

/-- The name of an id that was declared has the text that it was declared under. -/
theorem Effect.text_declared {operation : Operation} (h : Effect r operation r') {name : String}
    (hd : operation.declares? = some name) : r'.text (r.intern name).1 = name := by
  refine Interner.lookup_of_intern ?_
  cases h with
  | interned _ _ hnone | offered _ _ _ _ hnone => cases hd.symm.trans hnone
  | declared name' span hd' =>
      cases hd.symm.trans hd'
      exact interner_declareAt r name span ▸ List.prefix_rfl
  | introduced name' t body grown hd' =>
      cases hd.symm.trans hd'
      rw [interner_define]
      exact grown
  | tuple | pointer => cases hd

/-! ## What is recorded

An operation is at fault if it declares a name that is taken or offers a body to a type that takes
none. It cannot do both, and a type that is declared with its body always takes it. -/

theorem declareAt_new {name : String} (h : r.nominal.lookup (r.intern name).1 = none)
    (span : Span) :
    (r.declareAt name span).2 =
      { ((r.intern name).2.push ⟨(r.intern name).1, .declared, span⟩).2 with
        nominal := r.nominal ++ [((r.intern name).1, ⟨r.size⟩)] } := by
  simp only [intern] at h
  simp only [declareAt, intern, push, h]
  rfl

theorem declareAt_taken {name : String} {first : TypeId}
    (h : r.nominal.lookup (r.intern name).1 = some first) (span : Span) :
    ∃ fault, (r.declareAt name span).2 =
      ((r.intern name).2.push ⟨(r.intern name).1, .declared, span⟩).2.record fault := by
  simp only [intern] at h
  simp only [declareAt, intern, push, h]
  exact ⟨_, rfl⟩

/-- Nothing is at fault with the operation where the registry stands. -/
def Accepts (r : Registry) (operation : Operation) : Prop :=
  (∀ name, operation.declares? = some name → r.nominal.lookup (r.intern name).1 = none) ∧
    ∀ ty, operation.target? = some ty → r.kind? ty = some .declared

theorem recorded_declareAt (r : Registry) (name : String) (span : Span) :
    ∃ faults, (r.declareAt name span).2.recorded = r.recorded ++ faults ∧
      (faults = [] ↔ r.nominal.lookup (r.intern name).1 = none) := by
  cases h : r.nominal.lookup (r.intern name).1 with
  | none => exact ⟨[], by rw [declareAt_new h, List.append_nil]; rfl, by simp⟩
  | some first =>
      obtain ⟨fault, heq⟩ := declareAt_taken h span
      exact ⟨[fault], by rw [heq]; rfl, by simp⟩

theorem recorded_define (r : Registry) (target : TypeId) (body : TypeKind) :
    ∃ faults, (r.define target body).recorded = r.recorded ++ faults ∧
      (faults = [] ↔ r.kind? target = some .declared) := by
  by_cases h : r.kind? target = some .declared
  · obtain ⟨entries, heq⟩ := define_taken h body
    exact ⟨[], by rw [heq, List.append_nil], by simp [h]⟩
  · exact ⟨[r.refusal target], by rw [define_refused h]; rfl, by simp [h]⟩

/-- Faults are only added, and none just if the operation is accepted. -/
theorem Effect.recorded {operation : Operation} (h : Effect r operation r') :
    ∃ faults, r'.recorded = r.recorded ++ faults ∧ (faults = [] ↔ r.Accepts operation) := by
  cases h with
  | interned t _ hd ht => exact ⟨[], (List.append_nil _).symm, by simp [Accepts, hd, ht]⟩
  | declared name span hd ht =>
      obtain ⟨faults, heq, hnone⟩ := r.recorded_declareAt name span
      exact ⟨faults, heq, by simp [hnone, Accepts, hd, ht]⟩
  | introduced name t body _ hd ht _ =>
      obtain ⟨faults, heq, hnone⟩ := r.recorded_declareAt name Span.dummy
      have hkind : ((r.declareAt name Span.dummy).2.withTexts t).kind? ⟨r.size⟩ =
          some .declared :=
        kind?_eq_some_iff.mpr ⟨_, (find?_declareAt r name Span.dummy _).trans (if_pos rfl), rfl⟩
      obtain ⟨entries, htaken⟩ := define_taken hkind body
      exact ⟨faults, by rw [htaken]; exact heq, by simp [hnone, Accepts, hd, ht]⟩
  | offered t target body _ hd ht _ _ =>
      obtain ⟨faults, heq, hnone⟩ := (r.withTexts t).recorded_define target body
      have hkind : (r.withTexts t).kind? target = r.kind? target := rfl
      exact ⟨faults, heq, by simp [hnone, hkind, Accepts, hd, ht]⟩
  | tuple elements =>
      refine ⟨[], ?_, by simp [Accepts, Operation.declares?, Operation.target?]⟩
      rw [Registry.tuple, List.append_nil]
      split <;> rfl
  | pointer pointee =>
      refine ⟨[], ?_, by simp [Accepts, Operation.declares?, Operation.target?]⟩
      rw [Registry.pointer, List.append_nil]
      split <;> rfl

/-! ## Histories -/

/-- In the course of the history the operation is applied to the registry `r`. -/
def Happens (history : List Operation) (operation : Operation) (r : Registry) : Prop :=
  ∃ before after, history = before ++ operation :: after ∧ fresh.run before = r

/-- In the course of the history the id was declared under this text. -/
def DeclaredUnder (history : List Operation) (ty : TypeId) (s : String) : Prop :=
  ∃ operation r, Happens history operation r ∧ operation.declares? = some s ∧ ty = ⟨r.size⟩

theorem happens_concat {history : List Operation} {last operation : Operation} :
    Happens (history ++ [last]) operation r ↔
      Happens history operation r ∨ operation = last ∧ fresh.run history = r := by
  constructor
  · rintro ⟨before, after, hsplit, hr⟩
    rcases List.eq_nil_or_concat after with rfl | ⟨after, final, rfl⟩
    · obtain ⟨rfl, hlast⟩ := List.append_inj' hsplit rfl
      exact .inr ⟨(List.head_eq_of_cons_eq hlast).symm, hr⟩
    · have hsplit : history ++ [last] = (before ++ operation :: after) ++ [final] := by
        simpa using hsplit
      obtain ⟨rfl, -⟩ := List.append_inj' hsplit rfl
      exact .inl ⟨before, after, rfl, hr⟩
  · rintro (⟨before, after, rfl, hr⟩ | ⟨rfl, hr⟩)
    · exact ⟨before, after ++ [last], by simp, hr⟩
    · exact ⟨history, [], rfl, hr⟩

theorem declaredUnder_concat {history : List Operation} {last : Operation} {s : String} :
    DeclaredUnder (history ++ [last]) ty s ↔
      DeclaredUnder history ty s ∨ last.declares? = some s ∧ ty = ⟨(fresh.run history).size⟩ := by
  simp only [DeclaredUnder, happens_concat]
  constructor
  · rintro ⟨operation, r, h | ⟨rfl, rfl⟩, hs, hty⟩
    · exact .inl ⟨operation, r, h, hs, hty⟩
    · exact .inr ⟨hs, hty⟩
  · rintro (⟨operation, r, h, hs, hty⟩ | ⟨hs, hty⟩)
    · exact ⟨operation, r, .inl h, hs, hty⟩
    · exact ⟨last, _, .inr ⟨rfl, rfl⟩, hs, hty⟩

/-- A name that was issued reads the same after an operation. -/
theorem Reachable.text_apply (h : r.Reachable) (operation : Operation) {n : Name}
    (hn : r.Named ty n) : (r.apply operation).text n = r.text n := by
  obtain ⟨entry, hentry, -, rfl⟩ := hn
  exact Interner.lookup_of_strings (r.run_strings [operation]) (h.namesIssued.entry hentry)

/-- The ids that a history declared are those of nominal entries, under the texts of their names. -/
theorem declaredUnder_iff {history : List Operation} {s : String} :
    DeclaredUnder history ty s ↔
      ∃ n, (fresh.run history).Named ty n ∧ (fresh.run history).text n = s := by
  induction history using List.reverseRecOn with
  | nil =>
      constructor
      · rintro ⟨operation, r, ⟨before, after, hsplit, -⟩, -⟩
        cases (List.append_eq_nil_iff.mp hsplit.symm).2
      · rintro ⟨n, ⟨entry, hentry, hnominal, -⟩, -⟩
        have hmem : entry ∈ fresh.entries := Array.mem_of_getElem? hentry
        have hprimitive : ∀ entry ∈ fresh.entries, ¬ IsNominal entry.kind := by
          simp [fresh, initial, IsNominal]
        exact absurd hnominal (hprimitive entry hmem)
  | append_singleton history last ih =>
      have reachable : (fresh.run history).Reachable := ⟨history, rfl⟩
      have heffect := (fresh.run history).apply_effect last
      have hlast : fresh.run (history ++ [last]) = (fresh.run history).apply last :=
        run_append fresh history [last]
      rw [declaredUnder_concat, ih, hlast]
      simp only [heffect.named_iff]
      constructor
      · rintro (⟨n, hn, hs⟩ | ⟨hs, hty⟩)
        · exact ⟨n, .inr hn, (reachable.text_apply last hn).trans hs⟩
        · exact ⟨_, .inl ⟨s, hs, hty, rfl⟩, heffect.text_declared hs⟩
      · rintro ⟨n, ⟨name, hname, hty, rfl⟩ | hn, hs⟩
        · rw [heffect.text_declared hname] at hs
          exact .inr ⟨hname.trans (congrArg some hs), hty⟩
        · exact .inl ⟨n, hn, (reachable.text_apply last hn).symm.trans hs⟩

end Registry

end TaggedMatch
