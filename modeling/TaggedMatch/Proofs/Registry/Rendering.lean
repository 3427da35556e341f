import Mathlib.Logic.Relation
import TaggedMatch.Proofs.Registry.Indexes
import TaggedMatch.Proofs.Traversal
import TaggedMatch.Registry.Default
import TaggedMatch.Registry.Faults

/-!
# Types that can be written down

A tuple is written by writing its elements, a pointer by writing its pointee, and nothing is kept of
the types on the way. `Registry.Renders` has a rule for each kind of type, and what a derivation comes
to is just what `Registry.display?` gives (`display?_eq_some_iff`). So writing a type ends just if no
tuple or pointer on the way is made from itself (`exists_renders_iff`).

What keeps types from being made from themselves is not in the registry. A tuple or a pointer may be
made from any id, and one that was not issued yet may turn out to be its own. Where programs make
them from ids that were issued before, every structural type is issued after what it is made from
(`Founded`), and all types can be written (`renders_run`). Validation is no substitute: it asks
whether an id is known now, and the pointer to itself is (`pointer_to_itself`). It is not even sure to
answer. The diagnostics of the faults are its answer, and the types in them have to be written
(`validate_eq_some_iff`).
-/

namespace TaggedMatch

open Relation

/-- The types that a structural type is made from. -/
def TypeKind.constituents : TypeKind → List TypeId
  | .tuple elements => elements
  | .pointer pointee => [pointee]
  | .int | .bool | .char | .str | .unit | .declared | .enumeration _ | .union _ | .aggregate _
  | .extension _ => []

/-- The types that an operation makes a structural type from. -/
def Operation.constituents : Operation → List TypeId
  | .tuple elements => elements
  | .pointer pointee => [pointee]
  | .intern _ | .byName _ | .fallbackTo _ | .declareAt .. | .defineEnum .. | .defineUnion ..
  | .defineUnionWith .. | .defineAggregate .. | .defineExtension .. | .enumeration .. | .union ..
  | .aggregate .. | .extension .. => []

namespace Registry

variable {r r' : Registry} {ty part : TypeId} {text : String}

/-- The type is a tuple or a pointer, and `part` is one of its elements or its pointee. -/
def Consists (r : Registry) (ty part : TypeId) : Prop :=
  ∃ kind, r.kind? ty = some kind ∧ part ∈ kind.constituents

/-- One type leads to another through elements of tuples and pointees alone. -/
def Reaches (r : Registry) : TypeId → TypeId → Prop := TransGen r.Consists

theorem index_lt_of_kind? {kind : TypeKind} (h : r.kind? ty = some kind) : ty.index < r.size := by
  obtain ⟨entry, hentry, -⟩ := kind?_eq_some_iff.mp h
  exact (Array.getElem?_eq_some_iff.mp hentry).1

theorem Consists.index_lt (h : r.Consists ty part) : ty.index < r.size := by
  obtain ⟨kind, hkind, -⟩ := h
  exact index_lt_of_kind? hkind

theorem not_isNominal_of_constituent {kind : TypeKind} (h : part ∈ kind.constituents) :
    ¬ IsNominal kind := by
  cases kind with
  | tuple | pointer => exact id
  | int | bool | char | str | unit | declared | enumeration | union | aggregate | extension =>
      cases h

/-! ## Writing a type -/

/-- `r.Renders ty text`: writing the type ends, with this text. -/
inductive Renders (r : Registry) : TypeId → String → Prop
  | unknown {ty : TypeId} (absent : r.kind? ty = none) : Renders r ty "<unknown>"
  | int {ty : TypeId} (kind : r.kind? ty = some .int) : Renders r ty "int"
  | bool {ty : TypeId} (kind : r.kind? ty = some .bool) : Renders r ty "bool"
  | char {ty : TypeId} (kind : r.kind? ty = some .char) : Renders r ty "char"
  | str {ty : TypeId} (kind : r.kind? ty = some .str) : Renders r ty "str"
  | unit {ty : TypeId} (kind : r.kind? ty = some .unit) : Renders r ty "()"
  | tuple {ty : TypeId} {elements : List TypeId} {texts : List String}
      (kind : r.kind? ty = some (.tuple elements)) (length : elements.length = texts.length)
      (each : ∀ element text, (element, text) ∈ elements.zip texts → Renders r element text) :
      Renders r ty ("(" ++ ", ".intercalate texts ++ ")")
  | pointer {ty pointee : TypeId} {text : String} (kind : r.kind? ty = some (.pointer pointee))
      (inner : Renders r pointee text) : Renders r ty ("*" ++ text)
  | nominal {ty : TypeId} {body : TypeKind} (kind : r.kind? ty = some body)
      (nominal : IsNominal body) : Renders r ty (r.text (r.nameOf ty))

/-- How a type is written, by its kind. -/
theorem display?_eq (r : Registry) (ty : TypeId) :
    r.display? ty =
      match r.kind? ty with
      | none => some "<unknown>"
      | some .int => some "int"
      | some .bool => some "bool"
      | some .char => some "char"
      | some .str => some "str"
      | some .unit => some "()"
      | some (.tuple elements) =>
          (elements.mapM r.display?).map fun texts => "(" ++ ", ".intercalate texts ++ ")"
      | some (.pointer pointee) => (r.display? pointee).map ("*" ++ ·)
      | some .declared | some (.enumeration _) | some (.union _) | some (.aggregate _)
      | some (.extension _) => some (r.text (r.nameOf ty)) := by
  rw [display?]
  cases hentry : r.find? ty with
  | none => rw [kind?, hentry]; rfl
  | some entry =>
      rw [kind?, hentry, nameOf_of_find? hentry]
      obtain ⟨name, kind, span⟩ := entry
      cases kind with
      | tuple elements => exact bind_pure_comp _ _
      | pointer pointee => exact bind_pure_comp _ _
      | int | bool | char | str | unit | declared | enumeration | union | aggregate | extension => rfl

/-- Whatever text there is for a type, the rules come to it. There is nothing about the type to do
induction on, since it may lead back to itself; the induction is on how far the writing went. -/
theorem renders_of_display? (h : r.display? ty = some text) : r.Renders ty text := by
  refine display?.partial_correctness r r.Renders (fun write ih ty text h => ?_) ty text h
  split at h
  · next hentry =>
      cases h
      exact .unknown (by rw [kind?, hentry]; rfl)
  · next entry hentry =>
      have hname := nameOf_of_find? hentry
      have hkind : r.kind? ty = some entry.kind := by rw [kind?, hentry]; rfl
      obtain ⟨name, kind, span⟩ := entry
      cases kind with
      | int => cases h; exact .int hkind
      | bool => cases h; exact .bool hkind
      | char => cases h; exact .char hkind
      | str => cases h; exact .str hkind
      | unit => cases h; exact .unit hkind
      | tuple elements =>
          obtain ⟨texts, htexts, heq⟩ := Option.bind_eq_some_iff.mp h
          cases heq
          obtain ⟨hlength, heach⟩ := List.forall₂_iff_zip.mp (mapM_eq_some_iff.mp htexts)
          exact .tuple hkind hlength fun element text hzip => ih element text (heach hzip)
      | pointer pointee =>
          obtain ⟨inner, hinner, heq⟩ := Option.bind_eq_some_iff.mp h
          cases heq
          exact .pointer hkind (ih pointee inner hinner)
      | declared | enumeration | union | aggregate | extension =>
          cases h
          rw [← hname]
          exact .nominal hkind trivial

theorem Renders.display?_eq (h : r.Renders ty text) : r.display? ty = some text := by
  induction h with
  | unknown absent => rw [Registry.display?_eq, absent]
  | int kind | bool kind | char kind | str kind | unit kind => rw [Registry.display?_eq, kind]
  | @tuple _ elements texts kind length each ih =>
      have htexts : elements.mapM r.display? = some texts :=
        mapM_eq_some_iff.mpr (List.forall₂_iff_zip.mpr ⟨length, fun hzip => ih _ _ hzip⟩)
      rw [Registry.display?_eq, kind]
      simp only [htexts, Option.map_some]
  | pointer kind inner ih =>
      rw [Registry.display?_eq, kind]
      simp only [ih, Option.map_some]
  | @nominal _ body kind nominal =>
      rw [Registry.display?_eq, kind]
      cases body with
      | declared | enumeration | union | aggregate | extension => rfl
      | int | bool | char | str | unit | tuple | pointer => cases nominal

/-- The text of a type is the one that the rules come to. -/
theorem display?_eq_some_iff : r.display? ty = some text ↔ r.Renders ty text :=
  ⟨renders_of_display?, Renders.display?_eq⟩

theorem Renders.eq_display (h : r.Renders ty text) : text = r.display ty := by
  rw [display, h.display?_eq, Option.getD_some]

theorem renders_display (h : ∃ text, r.Renders ty text) : r.Renders ty (r.display ty) := by
  obtain ⟨text, hrenders⟩ := h
  rw [← hrenders.eq_display]
  exact hrenders

/-- What is shown of a type from what it is made from is shown of all types that can be written. -/
theorem Renders.induct {motive : TypeId → Prop} (h : r.Renders ty text)
    (step : ∀ ty text, r.Renders ty text → (∀ part, r.Consists ty part → motive part) →
      motive ty) : motive ty := by
  have hself := h
  induction h with
  | unknown absent =>
      refine step _ _ hself fun part hpart => ?_
      obtain ⟨kind, hkind, -⟩ := hpart
      cases absent.symm.trans hkind
  | int kind | bool kind | char kind | str kind | unit kind =>
      refine step _ _ hself fun part hpart => ?_
      obtain ⟨kind', hkind, hmem⟩ := hpart
      cases kind.symm.trans hkind
      cases hmem
  | @tuple _ elements texts kind length each ih =>
      refine step _ _ hself fun part hpart => ?_
      obtain ⟨kind', hkind, hmem⟩ := hpart
      cases kind.symm.trans hkind
      have hfirst : part ∈ (elements.zip texts).map Prod.fst := by
        rw [List.map_fst_zip (Nat.le_of_eq length)]
        exact hmem
      obtain ⟨⟨element, text⟩, hzip, rfl⟩ := List.mem_map.mp hfirst
      exact ih element text hzip (each element text hzip)
  | pointer kind inner ih =>
      refine step _ _ hself fun part hpart => ?_
      obtain ⟨kind', hkind, hmem⟩ := hpart
      cases kind.symm.trans hkind
      rw [List.mem_singleton.mp hmem]
      exact ih inner
  | nominal kind nominal =>
      refine step _ _ hself fun part hpart => ?_
      obtain ⟨kind', hkind, hmem⟩ := hpart
      cases kind.symm.trans hkind
      exact absurd nominal (not_isNominal_of_constituent hmem)

theorem Renders.reached {other : TypeId} (h : r.Renders ty text)
    (hother : ReflTransGen r.Consists ty other) : ∃ text, r.Renders other text := by
  refine h.induct (motive := fun ty => ReflTransGen r.Consists ty other → _)
    (fun ty text hself ih hother => ?_) hother
  rcases hother.cases_head with rfl | ⟨part, hpart, hrest⟩
  · exact ⟨text, hself⟩
  · exact ih part hpart hrest

/-- If writing a type ends, it does not come back to the type. -/
theorem Renders.acyclic (h : r.Renders ty text) : ¬ r.Reaches ty ty := by
  refine h.induct (motive := fun ty => ¬ r.Reaches ty ty) fun ty text _ ih hcircle => ?_
  -- The next type around the circle is on it as well.
  obtain ⟨part, hpart, hback⟩ := TransGen.head'_iff.mp hcircle
  exact ih part hpart (TransGen.tail' hback hpart)

/-! ## How deep writing goes

Without circles, the types that are still to come on the way down become fewer with each step. -/

/-- The types that a type leads to are among these, itself included; unknown ids do not count. -/
def Within (r : Registry) (ty : TypeId) (types : List TypeId) : Prop :=
  ∀ other, ReflTransGen r.Consists ty other → other.index < r.size → other ∈ types

theorem within_ids (r : Registry) (ty : TypeId) : r.Within ty r.ids := by
  intro other _ hother
  exact List.mem_map.mpr ⟨other.index, List.mem_range.mpr hother, rfl⟩

theorem Within.constituent {types : List TypeId} (h : r.Within ty types)
    (hacyclic : ¬ r.Reaches ty ty) (hpart : r.Consists ty part) :
    r.Within part (types.erase ty) := by
  intro other hother hknown
  have hne : other ≠ ty := by
    intro heq
    subst heq
    exact hacyclic (TransGen.head' hpart hother)
  exact (List.mem_erase_of_ne hne).mpr (h other (hother.head hpart) hknown)

theorem Within.length_erase_lt {types : List TypeId} (h : r.Within ty types) {kind : TypeKind}
    (hkind : r.kind? ty = some kind) : (types.erase ty).length < types.length := by
  have hmem : ty ∈ types := h ty .refl (index_lt_of_kind? hkind)
  rw [List.length_erase_of_mem hmem]
  exact Nat.sub_one_lt_of_lt (List.length_pos_of_mem hmem)

/-- Writing a type ends if nothing it leads to is made from itself. -/
theorem exists_renders {types : List TypeId} (hwithin : r.Within ty types)
    (hacyclic : ∀ other, ReflTransGen r.Consists ty other → ¬ r.Reaches other other) :
    ∃ text, r.Renders ty text := by
  induction hlength : types.length using Nat.strongRecOn generalizing ty types with
  | _ n ih =>
      cases hkind : r.kind? ty with
      | none => exact ⟨_, .unknown hkind⟩
      | some kind =>
          have inner {part : TypeId} (hpart : part ∈ kind.constituents) :
              r.Renders part (r.display part) := by
            have hconsists : r.Consists ty part := ⟨kind, hkind, hpart⟩
            have hfewer : (types.erase ty).length < n :=
              hlength ▸ hwithin.length_erase_lt hkind
            exact renders_display (ih _ hfewer (hwithin.constituent (hacyclic ty .refl) hconsists)
              (fun other hother => hacyclic other (hother.head hconsists)) rfl)
          cases kind with
          | int => exact ⟨_, .int hkind⟩
          | bool => exact ⟨_, .bool hkind⟩
          | char => exact ⟨_, .char hkind⟩
          | str => exact ⟨_, .str hkind⟩
          | unit => exact ⟨_, .unit hkind⟩
          | tuple elements =>
              refine ⟨_, .tuple hkind (List.length_map r.display).symm fun element text hzip => ?_⟩
              rw [← List.map_prod_left_eq_zip] at hzip
              obtain ⟨element, hmem, heq⟩ := List.mem_map.mp hzip
              cases heq
              exact inner hmem
          | pointer pointee => exact ⟨_, .pointer hkind (inner (List.mem_singleton.mpr rfl))⟩
          | declared | enumeration | union | aggregate | extension =>
              exact ⟨_, .nominal hkind trivial⟩

/-- Writing a type ends just if no type it leads to is made from itself. -/
theorem exists_renders_iff :
    (∃ text, r.Renders ty text) ↔
      ∀ other, ReflTransGen r.Consists ty other → ¬ r.Reaches other other := by
  constructor
  · intro ⟨text, h⟩ other hother
    obtain ⟨text', hrenders⟩ := h.reached hother
    exact hrenders.acyclic
  · exact exists_renders (r.within_ids ty)

/-! ## Answers that types are written in -/

/-- All of the types can be written. -/
def RendersAll (r : Registry) (types : List TypeId) : Prop := ∀ ty ∈ types, ∃ text, r.Renders ty text

/-- What is worded with the texts of types is there if all of them can be written. -/
theorem map_displayAll?_eq_some_iff {α : Type} {types : List TypeId} {a b : α} :
    ((r.displayAll? types).map fun _ => a) = some b ↔ r.RendersAll types ∧ b = a := by
  have hall : (r.displayAll? types).isSome = true ↔ r.RendersAll types := by
    simp only [displayAll?, isSome_mapM, List.all_eq_true, Option.isSome_iff_exists,
      display?_eq_some_iff, RendersAll]
  rw [Option.map_eq_some_iff, ← hall, Option.isSome_iff_exists, exists_and_right, eq_comm (a := a)]

/-- The types that are written in the diagnostics of the faults can be written. -/
def Reportable (r : Registry) : Prop := ∀ fault ∈ r.faults, r.RendersAll fault.written

/-- A valid registry is accepted. Of any other the diagnostics of the faults are the only answer that
validation can give. -/
theorem validate_eq_some_iff {answer : Except (List Diagnostic) Unit} :
    r.validate = some answer ↔
      if r.isValid then answer = .ok ()
      else r.Reportable ∧ answer = .error (r.faults.map (Fault.diagnostic r)) := by
  rw [validate]
  split
  · rw [Option.some_inj, eq_comm]
  · exact map_mapM_eq_some_iff fun _ _ => map_displayAll?_eq_some_iff

/-! ## What keeps types from being made from themselves -/

/-- Structural types are issued after what they are made from. -/
def Founded (r : Registry) : Prop := ∀ ty part, r.Consists ty part → part.index < ty.index

/-- Types of a rank that falls from each to what it is made from do not lead back to themselves. -/
theorem not_reaches_of_rank (rank : TypeId → Nat)
    (h : ∀ ty part, r.Consists ty part → rank part < rank ty) (ty : TypeId) : ¬ r.Reaches ty ty := by
  have hless {ty other : TypeId} (hreaches : r.Reaches ty other) : rank other < rank ty := by
    induction hreaches with
    | single hpart => exact h _ _ hpart
    | tail _ hpart ih => exact Nat.lt_trans (h _ _ hpart) ih
  exact fun hcircle => Nat.lt_irrefl _ (hless hcircle)

theorem exists_renders_of_rank (rank : TypeId → Nat)
    (h : ∀ ty part, r.Consists ty part → rank part < rank ty) (ty : TypeId) :
    ∃ text, r.Renders ty text :=
  exists_renders_iff.mpr fun other _ => not_reaches_of_rank rank h other

/-- In a registry that is founded all types can be written. -/
theorem Founded.renders (h : r.Founded) (ty : TypeId) : r.Renders ty (r.display ty) :=
  renders_display (exists_renders_of_rank TypeId.index h ty)

theorem Founded.reportable (h : r.Founded) : r.Reportable :=
  fun _ _ ty _ => ⟨r.display ty, h.renders ty⟩

theorem founded_fresh : fresh.Founded := by
  intro ty part hpart
  obtain ⟨kind, hkind, hmem⟩ := hpart
  obtain ⟨entry, hentry, rfl⟩ := kind?_eq_some_iff.mp hkind
  have hprimitive : ∀ entry ∈ fresh.entries, entry.kind.constituents = [] := by
    simp [fresh, initial, TypeKind.constituents]
  rw [hprimitive entry (Array.mem_of_getElem? hentry)] at hmem
  cases hmem

theorem consists_push {entry : TypeEntry} (h : (r.push entry).2.Consists ty part) :
    r.Consists ty part ∨ ty = ⟨r.size⟩ ∧ part ∈ entry.kind.constituents := by
  obtain ⟨kind, hkind, hmem⟩ := h
  rw [kind?_push] at hkind
  split at hkind
  · next hty =>
      cases hkind
      exact .inr ⟨hty, hmem⟩
  · exact .inl ⟨kind, hkind, hmem⟩

/-- What an operation makes a structural type from is what the type consists of; nothing else
changes about what types consist of. -/
theorem Effect.consists {operation : Operation} (h : Effect r operation r')
    (hpart : r'.Consists ty part) :
    r.Consists ty part ∨ ty = ⟨r.size⟩ ∧ part ∈ operation.constituents := by
  have hnominal {kind : TypeKind} (hmem : part ∈ kind.constituents) : ¬ IsNominal kind :=
    not_isNominal_of_constituent hmem
  cases h with
  | interned => exact .inl hpart
  | declared =>
      obtain ⟨kind, hkind, hmem⟩ := hpart
      exact .inl ⟨kind, (kind?_declareAt_structural (hnominal hmem)).mp hkind, hmem⟩
  | introduced name t body _ _ _ owner =>
      obtain ⟨kind, hkind, hmem⟩ := hpart
      have hdeclared :=
        (kind?_define_structural (isNominal_of_owner owner) (hnominal hmem)).mp hkind
      exact .inl ⟨kind, (kind?_declareAt_structural (hnominal hmem)).mp hdeclared, hmem⟩
  | offered t target body _ _ _ _ owner =>
      obtain ⟨kind, hkind, hmem⟩ := hpart
      have hkept : (r.withTexts t).kind? ty = some kind :=
        (kind?_define_structural (isNominal_of_owner owner) (hnominal hmem)).mp hkind
      exact .inl ⟨kind, hkept, hmem⟩
  | tuple elements =>
      rw [Registry.tuple] at hpart
      split at hpart
      · exact .inl hpart
      · exact consists_push hpart
  | pointer pointee =>
      rw [Registry.pointer] at hpart
      split at hpart
      · exact .inl hpart
      · exact consists_push hpart

/-- On the way through the operations, tuples and pointers are only made from ids that are issued by
then. -/
def Grounded (r : Registry) : List Operation → Prop
  | [] => True
  | operation :: rest =>
      (∀ ty ∈ operation.constituents, r.knows ty = true) ∧ (r.apply operation).Grounded rest

instance decidableGrounded (r : Registry) : (operations : List Operation) →
    Decidable (r.Grounded operations)
  | [] => inferInstanceAs (Decidable True)
  | operation :: rest =>
      have := decidableGrounded (r.apply operation) rest
      inferInstanceAs (Decidable (_ ∧ _))

theorem Founded.apply (hr : r.Founded) {operation : Operation}
    (hknown : ∀ ty ∈ operation.constituents, r.knows ty = true) : (r.apply operation).Founded := by
  intro ty part hpart
  rcases (r.apply_effect operation).consists hpart with hold | ⟨rfl, hnew⟩
  · exact hr ty part hold
  · exact of_decide_eq_true (hknown part hnew)

theorem Founded.run {operations : List Operation} (hr : r.Founded)
    (h : r.Grounded operations) : (r.run operations).Founded := by
  induction operations generalizing r with
  | nil => exact hr
  | cons operation rest ih => exact ih (hr.apply h.1) h.2

/-- After a history in which tuples and pointers were made from issued ids only, no type is made from
itself, and writing any type ends with the text that `display` gives. -/
theorem renders_run {history : List Operation} (grounded : fresh.Grounded history) (ty : TypeId) :
    ¬ (fresh.run history).Reaches ty ty ∧
      (fresh.run history).Renders ty ((fresh.run history).display ty) := by
  have hfounded : (fresh.run history).Founded := founded_fresh.run grounded
  exact ⟨not_reaches_of_rank TypeId.index hfounded ty, hfounded.renders ty⟩

/-- Lists that lead back to themselves through a pointer are made from issued ids. -/
theorem renders_list :
    let history := [.declareAt "List" Span.dummy, .pointer ⟨5⟩, .tuple [TypeId.int, ⟨6⟩],
      .defineUnion ⟨5⟩ [("Link", ⟨7⟩)] .propagate]
    fresh.Grounded history ∧ (fresh.run history).Renders ⟨7⟩ "(int, *List)" := by
  intro history
  have hgrounded : fresh.Grounded history := by decide +kernel
  have hint : (fresh.run history).Renders TypeId.int "int" := .int (by decide +kernel)
  have hlist : (fresh.run history).Renders ⟨5⟩ "List" := by
    have hunion : (fresh.run history).kind? ⟨5⟩ =
        some (.union ⟨⟨1⟩, ⟨5⟩, [⟨⟨2⟩, ⟨7⟩, Span.dummy⟩], .propagate⟩) := by decide +kernel
    have hname : (fresh.run history).text ((fresh.run history).nameOf ⟨5⟩) = "List" := by
      decide +kernel
    rw [← hname]
    exact .nominal hunion trivial
  have hpointer : (fresh.run history).Renders ⟨6⟩ "*List" := .pointer (by decide +kernel) hlist
  have hdisplay : (fresh.run history).display ⟨7⟩ = "(int, *List)" := by
    have htuple : (fresh.run history).kind? ⟨7⟩ = some (.tuple [TypeId.int, ⟨6⟩]) := by
      decide +kernel
    rw [display, display?_eq, htuple]
    simp only [List.mapM_cons, List.mapM_nil, hint.display?_eq, hpointer.display?_eq]
    rfl
  have hrenders := (renders_run hgrounded ⟨7⟩).2
  rw [hdisplay] at hrenders
  exact ⟨hgrounded, hrenders⟩

/-- The first pointer type of a program may be one to the id that it is given itself. Validation finds
nothing wrong with it, and it cannot be written. -/
theorem pointer_to_itself :
    let r := fresh.run [.pointer ⟨5⟩]
    r.isValid = true ∧ r.Reaches ⟨5⟩ ⟨5⟩ ∧ ∀ text, ¬ r.Renders ⟨5⟩ text := by
  intro r
  have hcircle : r.Reaches ⟨5⟩ ⟨5⟩ :=
    .single ⟨.pointer ⟨5⟩, by decide +kernel, List.mem_singleton.mpr rfl⟩
  exact ⟨by decide +kernel, hcircle, fun text h => h.acyclic hcircle⟩

end Registry

end TaggedMatch
