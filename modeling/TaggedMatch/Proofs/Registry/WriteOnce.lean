import TaggedMatch.Proofs.Registry.Rendering

/-!
# A type is defined once

An id that was issued keeps its name and its place for good. Its kind changes at most once, and only
if the type was waiting: the first body that is aimed at it from then on is the one it has ever
after. Until then no operation touches the entry (`Effect.find?_untargeted`), and afterwards no
operation can. An offer that comes too late, or is aimed at what cannot take one, leaves every entry
alone and is recorded, and what was recorded is never forgotten, so the registry is not valid again.

From then on validation can only refuse, and it refuses if it answers. The fallback of a union may be
a type that cannot be written, though, and then the answer is not given (`recorded_unreported`). Where
tuples and pointers were made from issued ids only, there is no such type.
-/

namespace TaggedMatch.Registry

variable {r r' : Registry} {ty : TypeId}

/-- Whatever is not aimed at a type leaves its entry as it is. -/
theorem Effect.find?_untargeted {operation : Operation} (h : Effect r operation r')
    {entry : TypeEntry} (hentry : r.find? ty = some entry)
    (huntargeted : operation.target? ≠ some ty) : r'.find? ty = some entry := by
  have hne : ty ≠ ⟨r.size⟩ := by
    rintro rfl
    rw [find?_size] at hentry
    cases hentry
  cases h with
  | interned => exact hentry
  | declared name span => rw [find?_declareAt, if_neg hne, hentry]
  | introduced name t body =>
      have hissued : ((r.declareAt name Span.dummy).2.withTexts t).find? ⟨r.size⟩ = some _ :=
        (find?_declareAt r name Span.dummy ⟨r.size⟩).trans (if_pos rfl)
      have hsame : ((r.declareAt name Span.dummy).2.withTexts t).find? ty = r.find? ty :=
        (find?_declareAt r name Span.dummy ty).trans (if_neg hne)
      rw [define_of_declared body hissued rfl, if_neg hne, hsame, hentry]
  | offered t target body _ _ ht =>
      have hother : ty ≠ target := fun heq => huntargeted (heq ▸ ht)
      by_cases hkind : (r.withTexts t).kind? target = some .declared
      · obtain ⟨waiting, hwaiting, hdeclared⟩ := kind?_eq_some_iff.mp hkind
        rw [define_of_declared body hwaiting hdeclared, if_neg hother]
        exact hentry
      · rw [define_refused hkind]
        exact hentry
  | tuple elements =>
      rw [Registry.tuple]
      split
      · exact hentry
      · exact (find?_push r _ ty).trans ((if_neg hne).trans hentry)
  | pointer pointee =>
      rw [Registry.pointer]
      split
      · exact hentry
      · exact (find?_push r _ ty).trans ((if_neg hne).trans hentry)

theorem run_untargeted {operations : List Operation} {entry : TypeEntry}
    (hentry : r.find? ty = some entry)
    (huntargeted : ∀ operation ∈ operations, operation.target? ≠ some ty) :
    (r.run operations).find? ty = some entry := by
  induction operations generalizing r with
  | nil => exact hentry
  | cons operation rest ih =>
      rw [List.forall_mem_cons] at huntargeted
      exact ih ((r.apply_effect operation).find?_untargeted hentry huntargeted.1) huntargeted.2

theorem kind?_run_untargeted {operations : List Operation} {kind : TypeKind}
    (hkind : r.kind? ty = some kind)
    (huntargeted : ∀ operation ∈ operations, operation.target? ≠ some ty) :
    (r.run operations).kind? ty = some kind := by
  obtain ⟨entry, hentry, hsame⟩ := kind?_eq_some_iff.mp hkind
  exact kind?_eq_some_iff.mpr ⟨entry, run_untargeted hentry huntargeted, hsame⟩

/-- A type that waits takes the body that is aimed at it. -/
theorem kind?_apply_target {operation : Operation} (hkind : r.kind? ty = some .declared)
    (htarget : operation.target? = some ty) :
    ∃ body, operation.body? r = some body ∧ body ≠ .declared ∧
      (r.apply operation).kind? ty = some body := by
  have heffect := r.apply_effect operation
  generalize r.apply operation = r' at heffect
  cases heffect with
  | offered t target body _ _ ht offers owner =>
      cases htarget.symm.trans ht
      have hwaiting : (r.withTexts t).kind? ty = some .declared := hkind
      refine ⟨body, offers, ?_, (kind?_define hwaiting body ty).trans (if_pos rfl)⟩
      rintro rfl
      cases owner
  | interned _ _ _ nowhere | declared _ _ _ nowhere | introduced _ _ _ _ _ nowhere =>
      cases htarget.symm.trans nowhere
  | tuple | pointer => cases htarget

/-- The first body that is aimed at a waiting type is taken, and is never given up. -/
theorem kind?_run_first {before after : List Operation} {operation : Operation}
    (hkind : r.kind? ty = some .declared)
    (huntargeted : ∀ earlier ∈ before, earlier.target? ≠ some ty)
    (htarget : operation.target? = some ty) :
    ∃ body, operation.body? (r.run before) = some body ∧
      (r.run (before ++ operation :: after)).kind? ty = some body := by
  obtain ⟨body, hbody, hdefined, hkind'⟩ :=
    kind?_apply_target (kind?_run_untargeted hkind huntargeted) htarget
  refine ⟨body, hbody, ?_⟩
  rw [run_append]
  exact (run_extends _ after).kind? hkind' hdefined

/-- An offer that is refused changes no entry and is recorded as one fault. -/
theorem apply_refused {operation : Operation} (htarget : operation.target? = some ty)
    (hkind : r.kind? ty ≠ some .declared) :
    (r.apply operation).entries = r.entries ∧
      (r.apply operation).recorded = r.recorded ++ [r.refusal ty] := by
  have heffect := r.apply_effect operation
  generalize r.apply operation = r' at heffect
  cases heffect with
  | offered t target body _ _ ht offers owner =>
      cases htarget.symm.trans ht
      have hrefused : (r.withTexts t).kind? ty ≠ some .declared := hkind
      rw [define_refused hrefused]
      exact ⟨rfl, rfl⟩
  | interned _ _ _ nowhere | declared _ _ _ nowhere | introduced _ _ _ _ _ nowhere =>
      cases htarget.symm.trans nowhere
  | tuple | pointer => cases htarget

theorem recorded_run (r : Registry) (operations : List Operation) :
    r.recorded <+: (r.run operations).recorded := by
  induction operations generalizing r with
  | nil => exact List.prefix_rfl
  | cons operation rest ih =>
      obtain ⟨faults, heq, -⟩ := (r.apply_effect operation).recorded
      exact (heq ▸ List.prefix_append _ _).trans (ih (r.apply operation))

theorem isValid_of_recorded (h : r.recorded ≠ []) : r.isValid = false := by
  rw [isValid, faults, List.isEmpty_eq_false_iff]
  exact fun hnone => h (List.append_eq_nil_iff.mp hnone).1

theorem isValid_run_of_recorded (h : r.recorded ≠ []) (operations : List Operation) :
    (r.run operations).isValid = false := by
  obtain ⟨more, hmore⟩ := recorded_run r operations
  refine isValid_of_recorded ?_
  rw [← hmore]
  exact fun hnone => h (List.append_eq_nil_iff.mp hnone).1

/-- `WriteOnce history later`: what the types of the registry that `history` leads to are when it
has gone on by `later`. -/
structure WriteOnce (history later : List Operation) : Prop where
  kept : ∀ ty entry, (fresh.run history).find? ty = some entry →
    ∃ entry', (fresh.run (history ++ later)).find? ty = some entry' ∧
      entry'.name = entry.name ∧ entry'.span = entry.span
  settled : ∀ ty kind, (fresh.run history).kind? ty = some kind → kind ≠ .declared →
    (fresh.run (history ++ later)).kind? ty = some kind
  waiting : ∀ ty, (fresh.run history).kind? ty = some .declared →
    (∀ operation ∈ later, operation.target? ≠ some ty) →
      (fresh.run (history ++ later)).kind? ty = some .declared
  /-- The first body that is aimed at a waiting type is the one it has from then on. -/
  first : ∀ ty before operation after, (fresh.run history).kind? ty = some .declared →
    later = before ++ operation :: after →
      (∀ earlier ∈ before, earlier.target? ≠ some ty) → operation.target? = some ty →
        ∃ body, operation.body? (fresh.run (history ++ before)) = some body ∧
          (fresh.run (history ++ later)).kind? ty = some body
  /-- Declaring a type with its body comes to declaring it and then aiming the body at it. -/
  steps : ∀ operation, fresh.run (history ++ operation.steps (fresh.run history)) =
    fresh.run (history ++ [operation])
  /-- A body names the id it stands at, and the name that the id was declared with. -/
  owner : ∀ ty kind owner name, (fresh.run history).kind? ty = some kind →
    kind.owner? = some (owner, name) →
      owner = ty ∧ name = (fresh.run history).nameOf ty ∧
        DeclaredUnder history ty ((fresh.run history).text name)
  refused : ∀ ty operation, operation.target? = some ty →
    (fresh.run history).kind? ty ≠ some .declared →
      (fresh.run (history ++ [operation])).entries = (fresh.run history).entries ∧
        ∃ fault, (fresh.run (history ++ [operation])).recorded =
          (fresh.run history).recorded ++ [fault]
  /-- What was recorded once is a fault from then on, so validation never accepts again. -/
  invalid : (fresh.run history).recorded ≠ [] → (fresh.run (history ++ later)).isValid = false
  /-- Validation can give one answer only, and gives it if the types in it can be written. -/
  answers : (fresh.run history).recorded ≠ [] → ∀ answer,
    (fresh.run (history ++ later)).validate = some answer ↔
      (fresh.run (history ++ later)).Reportable ∧
        answer = .error ((fresh.run (history ++ later)).faults.map
          (Fault.diagnostic (fresh.run (history ++ later))))
  writable : fresh.Grounded (history ++ later) → (fresh.run (history ++ later)).Reportable

theorem run_writeOnce (history later : List Operation) : WriteOnce history later := by
  have reachable : (fresh.run history).Reachable := ⟨history, rfl⟩
  have hextends := run_extends (fresh.run history) later
  have hinvalid (hfault : (fresh.run history).recorded ≠ []) :
      (fresh.run (history ++ later)).isValid = false := by
    rw [run_append]
    exact isValid_run_of_recorded hfault later
  constructor
  case kept =>
    intro ty entry hentry
    obtain ⟨entry', hentry', hname, hspan, -⟩ := hextends ty entry hentry
    exact ⟨entry', by rw [run_append, hentry'], hname, hspan⟩
  case settled =>
    intro ty kind hkind hdefined
    rw [run_append]
    exact hextends.kind? hkind hdefined
  case waiting =>
    intro ty hkind huntargeted
    rw [run_append]
    exact kind?_run_untargeted hkind huntargeted
  case first =>
    rintro ty before operation after hkind rfl huntargeted htarget
    rw [run_append, run_append]
    exact kind?_run_first hkind huntargeted htarget
  case steps =>
    intro operation
    rw [run_append, run_append, run_steps]
    rfl
  case owner =>
    intro ty kind owner name hkind howner
    obtain ⟨entry, hentry, rfl⟩ := kind?_eq_some_iff.mp hkind
    cases reachable.consistent ty entry (owner, name) hentry howner
    have hnamed : (fresh.run history).Named ty entry.name :=
      ⟨entry, hentry, isNominal_of_owner howner, rfl⟩
    exact ⟨rfl, (nameOf_of_find? hentry).symm, declaredUnder_iff.mpr ⟨entry.name, hnamed, rfl⟩⟩
  case refused =>
    intro ty operation htarget hkind
    obtain ⟨hentries, hrecorded⟩ := apply_refused htarget hkind
    rw [run_append]
    exact ⟨hentries, _, hrecorded⟩
  case invalid => exact hinvalid
  case answers =>
    intro hfault answer
    rw [validate_eq_some_iff, if_neg (Bool.eq_false_iff.mp (hinvalid hfault))]
  case writable => exact fun grounded => (founded_fresh.run grounded).reportable

/-- An enum that is declared, defined and then defined again has its first constants, and the
registry is refused for it. -/
theorem writeOnce_color :
    let history : List Operation := [.declareAt "Color" Span.dummy]
    let later : List Operation := [.defineEnum ⟨5⟩ ["Red"], .defineEnum ⟨5⟩ ["Blue"]]
    (fresh.run (history ++ later)).kind? ⟨5⟩ = some (.enumeration ⟨⟨1⟩, ⟨5⟩, [⟨2⟩]⟩) ∧
      (fresh.run (history ++ later)).isValid = false ∧
      ∃ diagnostics, (fresh.run (history ++ later)).validate = some (.error diagnostics) := by
  intro history later
  have hdeclared : (fresh.run history).kind? ⟨5⟩ = some .declared := by with_unfolding_all rfl
  obtain ⟨body, hbody, hkind⟩ := (run_writeOnce history later).first ⟨5⟩ [] _ _ hdeclared rfl
    nofun rfl
  have hred : (Operation.defineEnum ⟨5⟩ ["Red"]).body? (fresh.run (history ++ [])) =
      some (.enumeration ⟨⟨1⟩, ⟨5⟩, [⟨2⟩]⟩) := by with_unfolding_all rfl
  have hrecorded : (fresh.run (history ++ later)).recorded ≠ [] := by
    have htwice : (fresh.run (history ++ later)).recorded = [.definedTwice ⟨1⟩ Span.dummy] := by
      with_unfolding_all rfl
    simp [htwice]
  have hgrounded : fresh.Grounded (history ++ later) := by decide +kernel
  have hinvalid := (run_writeOnce (history ++ later) []).invalid hrecorded
  have hanswers := (run_writeOnce (history ++ later) []).answers hrecorded
  rw [List.append_nil] at hinvalid hanswers
  exact ⟨hkind.trans (hbody.symm.trans hred), hinvalid, _,
    (hanswers _).mpr ⟨(run_writeOnce history later).writable hgrounded, rfl⟩⟩

/-- A tuple of itself is the fallback of a union, and then a primitive type is defined, which is
recorded. The tuple has no default, and to say so of the fallback it would have to be written. So
validation gives no answer. -/
theorem recorded_unreported :
    let r := fresh.run [.tuple [⟨5⟩], .fallbackTo "A",
      .union "U" [("A", ⟨5⟩)] (.fallbackToEmpty ⟨1⟩), .defineEnum TypeId.int []]
    r.recorded = [.definedTwice Name.empty Span.dummy] ∧ r.Reaches ⟨5⟩ ⟨5⟩ ∧ r.validate = none := by
  intro r
  have hcircle : r.Reaches ⟨5⟩ ⟨5⟩ :=
    .single ⟨.tuple [⟨5⟩], by decide +kernel, List.mem_singleton.mpr rfl⟩
  have hfaults : r.faults = [.definedTwice Name.empty Span.dummy,
      .fallbackWithoutDefault ⟨1⟩ ⟨5⟩ Span.dummy] := by decide +kernel
  have hinvalid : r.isValid = false := by rw [isValid, hfaults]; rfl
  refine ⟨by with_unfolding_all rfl, hcircle, Option.eq_none_iff_forall_ne_some.mpr ?_⟩
  intro answer hanswer
  rw [validate_eq_some_iff, if_neg (Bool.eq_false_iff.mp hinvalid)] at hanswer
  have hreportable := hanswer.1
  rw [Reportable, hfaults] at hreportable
  obtain ⟨text, hrenders⟩ := hreportable (.fallbackWithoutDefault ⟨1⟩ ⟨5⟩ Span.dummy) (by simp) ⟨5⟩
    (List.mem_singleton.mpr rfl)
  exact hrenders.acyclic hcircle

end TaggedMatch.Registry
