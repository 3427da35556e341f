import TaggedMatch.Proofs.Inspect.Reports
import TaggedMatch.Proofs.Pattern.Mistakes
import TaggedMatch.Proofs.Registry.Rendering
import TaggedMatch.Proofs.Value.Default

/-!
# Subjects of a type that was never issued

A pattern for a type that the registry does not know is a mistake, and a subject may be given with any
id. Several subjects are matched as a tuple, though, and the building issues the type of the tuple
before it checks the patterns. So they are checked in a registry that may know one id more than the one
the subjects were given in: the id that was the next to be issued (`knows_subjectType_iff`). A subject
that was given with this id has become the tuple of the subjects, and is one of them.

Over a subject of any other unknown type an inspect is never built, and whatever is answered refuses
every row for it. No answer is given if a type that is written in it has no text, and a tuple of
subjects that has become one of them has none (`subject_within_its_tuple`). Where types were issued
after what they are made from, and no subject is the next to be issued, the answer is given
(`unknown_subject_reported_iff`).
-/

namespace TaggedMatch

variable {γ α : Type} {r r' : Registry} {ty : TypeId} {tys : List TypeId}

namespace Registry

theorem knows_eq_false_iff : r.knows ty = false ↔ r.kind? ty = none := by
  rw [← Bool.not_eq_true, knows_iff, Option.eq_none_iff_forall_not_mem, not_exists]
  rfl

/-- A tuple type that there was not is the next to be issued, and no other type becomes known. -/
theorem knows_tuple_iff (reachable : r.Reachable) :
    (r.tuple tys).2.knows ty = true ↔
      r.knows ty = true ∨ ty = ⟨r.size⟩ ∧ ∀ id, r.kind? id ≠ some (.tuple tys) := by
  have hlists := reachable.indexed.tuples tys
  rw [tuple]
  split
  · next listed hlisted =>
      have hkind := (hlists listed).mp hlisted
      exact ⟨.inl, fun h => h.resolve_right fun ⟨_, hnone⟩ => hnone listed hkind⟩
  · next hnone =>
      have hnew (id : TypeId) : r.kind? id ≠ some (.tuple tys) := by
        intro hkind
        cases hnone.symm.trans ((hlists id).mpr hkind)
      have hty : ty = ⟨r.size⟩ ↔ ty.index = r.size := by
        obtain ⟨index⟩ := ty
        simp
      have hknows (r : Registry) : r.knows ty = true ↔ ty.index < r.entries.size :=
        decide_eq_true_iff
      rw [and_iff_left hnew, hty, hknows, hknows, push, Array.size_push]
      exact Nat.lt_succ_iff_lt_or_eq

theorem alternativeTest_ne_unknownType {selector : Name} {kind : TypeKind} {span place : Span}
    {other : TypeId} :
    r.alternativeTest selector kind ty span ≠ .error (.unknownType other place) := by
  unfold alternativeTest
  split
  · split
    · nofun
    · nofun
  · split
    · split
      · nofun
      · nofun
      · nofun
    · nofun
  · nofun

/-- What was accepted is answered as it is. What was refused is answered with the diagnostics, if the
types in them can be written. -/
theorem answer_eq_some_iff {result : Except (List Mistake) α} {answer : Except (List Diagnostic) α} :
    r.answer result = some answer ↔
      r.RendersAll ((Mistake.reasons result).flatMap Mistake.written) ∧
        answer = result.mapError (List.map (Mistake.diagnostic r)) := by
  cases result with
  | ok a => simp [Registry.answer, Mistake.reasons, RendersAll, Except.mapError, eq_comm]
  | error mistakes =>
      have hall : r.RendersAll (mistakes.flatMap Mistake.written) ↔
          ∀ m ∈ mistakes, r.RendersAll m.written := by
        simp only [RendersAll, List.forall_mem_flatMap]
      rw [Mistake.reasons, hall]
      exact map_mapM_eq_some_iff fun _ _ => map_displayAll?_eq_some_iff

end Registry

/-- A type is found unknown only if it is. -/
theorem Pattern.Finds.kind?_eq_none {p : Pattern γ} {f : Finding} (h : Finds r p ty f)
    {other : TypeId} {span : Span} (hf : f = .mistake (.unknownType other span)) :
    r.kind? other = none := by
  induction h with
  | unknown hunknown =>
      cases hf
      exact hunknown
  | literal _ refused =>
      cases hf
      rcases Registry.literalTest_error refused with h | ⟨name, h⟩
      · cases h
      · cases h
  | selector _ refused =>
      cases hf
      exact absurd refused Registry.alternativeTest_ne_unknownType
  | sequence _ refused | fields _ refused =>
      cases hf
      rcases Registry.layout_error refused with h | h
      · cases h
      · cases h
  | binding _ _ ih | pointee _ _ ih | payload _ _ _ ih | item _ _ _ ih | entry _ _ _ _ ih
  | guarded _ ih => exact ih hf
  | binder | null | dereference | arity | listedTwice | unknownField => cases hf

namespace Inspect.Builder

variable {patterns : List (Pattern γ)}

/-- What is found in a row is found in its patterns, each checked against its subject's type. -/
theorem findings_joint (matched : MatchedAs r tys ty) (arity : patterns.length = tys.length) :
    ((joint patterns).draft r ty).findings =
      (patterns.zip tys).flatMap fun x => (x.1.draft r x.2).findings := by
  by_cases several : tys.length = 1
  · obtain ⟨single, rfl⟩ := List.length_eq_one_iff.mp several
    obtain ⟨p, rfl⟩ := List.length_eq_one_iff.mp arity
    have hty : ty = single := matched
    rw [hty]
    simp [joint]
  · have hkind : r.kind? ty = some (.tuple tys) := by
      rcases tys with _ | ⟨first, _ | ⟨second, rest⟩⟩
      · exact matched
      · exact absurd rfl several
      · exact matched
    have hsplits : (Pattern.sequence (Span.mergeAll (patterns.map (·.span))) patterns).Splits r ty
        (patterns.zip ((tys.map (PieceDef.mk none)).map (·.ty))) :=
      .sequence (.tuple hkind) (by simpa using arity)
    rw [joint_of_several (arity ▸ several), hsplits.findings, List.map_map]
    simp [Function.comp_def]

/-- An id that was not known may be known to the registry that the rows are checked in, if it is that
of the tuple of several subjects. -/
theorem knows_subjectType_iff (reachable : r.Reachable) {subject : TypeId}
    (hsubject : subjectType r tys = some (subject, r')) (unknown : r.knows ty = false) :
    r'.knows ty = true ↔
      ty = ⟨r.size⟩ ∧ tys.length ≠ 1 ∧ ∀ id, r.kind? id ≠ some (.tuple tys) := by
  rcases tys with _ | ⟨first, _ | ⟨second, rest⟩⟩
  · cases hsubject
  · cases hsubject
    simp [unknown]
  · have htuple : (r.tuple (first :: second :: rest)).2 = r' :=
      congrArg Prod.snd (Option.some.inj hsubject)
    rw [← htuple, Registry.knows_tuple_iff reachable]
    simp [unknown]

/-- Where types are issued after what they are made from, the subjects' tuple is made from types that
are older or not known at all, unless it is made from itself. -/
theorem exists_renders_subjectType (hr : r.Founded) (hnext : ⟨r.size⟩ ∉ tys) {subject : TypeId}
    (hsubject : subjectType r tys = some (subject, r')) (ty : TypeId) :
    ∃ text, r'.Renders ty text := by
  have hconsists {ty part : TypeId} (hpart : r'.Consists ty part) :
      r.Consists ty part ∨ ty = ⟨r.size⟩ ∧ part ∈ tys := by
    rcases tys with _ | ⟨first, _ | ⟨second, rest⟩⟩
    · cases hsubject
    · cases hsubject
      exact .inl hpart
    · have htuple : (r.tuple (first :: second :: rest)).2 = r' :=
        congrArg Prod.snd (Option.some.inj hsubject)
      exact (Registry.Effect.tuple _).consists (htuple ▸ hpart)
  -- An id that is not known ranks below all others, since the tuple may be made from it.
  let rank (ty : TypeId) : Nat := if ty.index ≤ r.size then ty.index + 1 else 0
  refine Registry.exists_renders_of_rank rank (fun ty part hpart => ?_) ty
  rcases hconsists hpart with hold | ⟨rfl, hmem⟩
  · have hless : part.index < ty.index := hr ty part hold
    have hknown : ty.index < r.size := hold.index_lt
    grind
  · have hother : part.index ≠ r.size := fun heq => hnext (heq ▸ hmem)
    grind

/-- An answer that refuses every row for its pattern of the subject of unknown type. -/
def Refuses (built : Except (List Mistake) (Inspect γ α) × Registry) (tys : List TypeId) (ty : TypeId)
    (rows : List (List (Pattern γ) × α)) (answer : Except (List Diagnostic) (Inspect γ α)) : Prop :=
  ∃ mistakes, built.1 = .error mistakes ∧
    answer = .error (mistakes.map (Mistake.diagnostic built.2)) ∧
    ∀ row ∈ rows, ∀ p, (p, ty) ∈ row.1.zip tys → .unknownType ty p.span ∈ mistakes

/-- What comes of building with rows over subjects, one of them of the type `ty` that was not known. -/
structure Reported (r : Registry) (tys : List TypeId) (ty : TypeId)
    (rows : List (List (Pattern γ) × α))
    (built : Except (List Mistake) (Inspect γ α) × Registry) : Prop where
  /-- Whatever is answered refuses the rows for the subject, unless the subjects' tuple has got the
  id of its type. -/
  refused : ∀ answer, built.2.answer built.1 = some answer →
    (Refuses built tys ty rows answer ↔
      (ty = ⟨r.size⟩ → tys.length = 1 ∨ ∃ id, r.kind? id = some (.tuple tys)))
  answered : (∃ answer, built.2.answer built.1 = some answer) ↔
    built.2.RendersAll ((Mistake.reasons built.1).flatMap Mistake.written)
  founded : r.Founded → ⟨r.size⟩ ∉ tys → ∃ answer, built.2.answer built.1 = some answer

theorem mem_reasons_row {patterns : List (Pattern γ)} {subject : TypeId}
    (matched : MatchedAs r tys subject) (arity : patterns.length = tys.length) {p : Pattern γ}
    (hp : (p, ty) ∈ patterns.zip tys) (unknown : r.kind? ty = none) :
    .unknownType ty p.span ∈ Mistake.reasons ((joint patterns).check r subject) := by
  rw [Pattern.reasons_check, findings_joint matched arity]
  refine Finding.mem_mistakesAfter_of_mem [] (List.mem_flatMap.mpr ⟨(p, ty), hp, ?_⟩)
  rw [Pattern.draft_unknown unknown]
  exact List.mem_singleton.mpr rfl

theorem kind?_of_reason {p : Pattern γ} {subject : TypeId} {span : Span}
    (h : .unknownType ty span ∈ Mistake.reasons (p.check r subject)) : r.kind? ty = none := by
  rw [Pattern.reasons_check] at h
  rcases Finding.mem_mistakesAfter h with hmet | ⟨name, again, first, _, _, heq, -⟩
  · exact (Pattern.finds_of_mem_draft hmet).kind?_eq_none rfl
  · cases heq

/-- Rows that fit are refused for the reasons for which each would be. -/
theorem exists_mem_reasons_iff (reachable : r.Reachable) (hne : tys ≠ [])
    {rows : List (List (Pattern γ) × α)} (arity : ∀ row ∈ rows, row.1.length = tys.length) :
    let built := ((ofSubjects tys).withRows rows).build r
    ∃ subject, subjectType r tys = some (subject, built.2) ∧ MatchedAs built.2 tys subject ∧
      ∀ m, m ∈ Mistake.reasons built.1 ↔
        ∃ row ∈ rows, m ∈ Mistake.reasons ((joint row.1).check built.2 subject) := by
  have hbuilder : (ofSubjects tys).withRows rows =
      ⟨tys, rows.map fun row => (joint row.1, row.2), []⟩ := by
    rw [withRows_eq arity, withArms_eq]
    rfl
  rw [hbuilder]
  obtain ⟨subject, hsubject, matched⟩ := exists_matchedAs (b := ⟨tys, _, _⟩) reachable hne
  refine ⟨subject, hsubject, matched, fun m => ?_⟩
  rw [reasons_build hsubject, List.nil_append, List.flatMap_map, List.mem_flatMap]

/-- Rows over a subject of a type that was not known are refused for it, each of them, unless the
subjects' tuple gets this very id when the inspect is built; and the refusal is given if the types in
it can be written. -/
theorem unknown_subject_reported_iff (reachable : r.Reachable)
    {rows : List (List (Pattern γ) × α)} (nonempty : rows ≠ [])
    (arity : ∀ row ∈ rows, row.1.length = tys.length) (mem : ty ∈ tys)
    (unknown : r.knows ty = false) :
    Reported r tys ty rows (((ofSubjects tys).withRows rows).build r) := by
  obtain ⟨subject, hsubject, matched, hmem⟩ :=
    exists_mem_reasons_iff reachable (List.ne_nil_of_mem mem) arity
  generalize ((ofSubjects tys).withRows rows).build r = built at hsubject matched hmem ⊢
  obtain ⟨result, r'⟩ := built
  dsimp only at hsubject matched hmem
  have hanswered : (∃ answer, r'.answer result = some answer) ↔
      r'.RendersAll ((Mistake.reasons result).flatMap Mistake.written) := by
    simp only [Registry.answer_eq_some_iff, exists_and_left, exists_eq, and_true]
  refine ⟨fun answer hanswer => ?_, hanswered, fun hr hnext => hanswered.mpr fun other _ =>
    exists_renders_subjectType hr hnext hsubject other⟩
  have hstill : (ty = ⟨r.size⟩ → tys.length = 1 ∨ ∃ id, r.kind? id = some (.tuple tys)) ↔
      r'.kind? ty = none := by
    rw [← Registry.knows_eq_false_iff, ← Bool.not_eq_true,
      knows_subjectType_iff reachable hsubject unknown]
    simp only [or_iff_not_imp_left, not_and, not_forall, ne_eq, not_not]
  rw [hstill]
  obtain ⟨row, hrow⟩ := List.exists_mem_of_ne_nil rows nonempty
  obtain ⟨p, hp⟩ := Value.exists_mem_zip (arity row hrow) mem
  constructor
  · rintro ⟨mistakes, rfl, -, hall⟩
    obtain ⟨_, -, hreason⟩ := (hmem _).mp (hall row hrow p hp)
    exact kind?_of_reason hreason
  · intro hnone
    have hreported : ∀ row ∈ rows, ∀ p, (p, ty) ∈ row.1.zip tys →
        .unknownType ty p.span ∈ Mistake.reasons result := fun row hrow p hp =>
      (hmem _).mpr ⟨row, hrow, mem_reasons_row matched (arity row hrow) hp hnone⟩
    cases result with
    | ok inspect => cases hreported row hrow p hp
    | error mistakes =>
        exact ⟨mistakes, rfl, (Registry.answer_eq_some_iff.mp hanswer).2, hreported⟩

/-- A subject of type `9` where there are five types. -/
theorem unknown_subject_reported_nine :
    let rows : List (List (Pattern Unit) × Nat) :=
      [([.wildcard Span.dummy, .bind Span.dummy ⟨1⟩], 10), ([.wildcard ⟨3, 4⟩, .wildcard ⟨5, 6⟩], 20)]
    let tys := [TypeId.int, ⟨9⟩]
    let built := ((ofSubjects tys).withRows rows).build Registry.fresh
    Registry.fresh.Reachable ∧ (∀ row ∈ rows, row.1.length = tys.length) ∧
      Registry.fresh.knows ⟨9⟩ = false ∧ Registry.fresh.size = 5 ∧
      ∃ answer, built.2.answer built.1 = some answer ∧ Refuses built tys ⟨9⟩ rows answer := by
  intro rows tys built
  have arity : ∀ row ∈ rows, row.1.length = tys.length := by decide +kernel
  have unknown : Registry.fresh.knows ⟨9⟩ = false := by decide +kernel
  have hsize : Registry.fresh.size = 5 := by decide +kernel
  have hreported : Reported Registry.fresh tys ⟨9⟩ rows built :=
    unknown_subject_reported_iff Registry.reachable_fresh (List.cons_ne_nil _ _) arity (by decide) unknown
  have hnext : ⟨Registry.fresh.size⟩ ∉ tys := by decide +kernel
  obtain ⟨answer, hanswer⟩ := hreported.founded Registry.founded_fresh hnext
  refine ⟨Registry.reachable_fresh, arity, unknown, hsize, answer, hanswer,
    (hreported.refused answer hanswer).mpr fun hsame => ?_⟩
  rw [hsize] at hsame
  cases hsame

/-- The sixth type is not known, and two subjects, one of that type, become it. A row that takes
anything is then accepted, and of one that has another mistake only that is reported. -/
theorem subject_becomes_its_tuple :
    let tys := [⟨5⟩, TypeId.int]
    let any : Pattern Unit := .wildcard Span.dummy
    let truth : Pattern Unit := .literal Span.dummy (.bool true)
    let build (row : List (Pattern Unit)) := ((ofSubjects tys).withRows [(row, 10)]).build Registry.fresh
    Registry.fresh.Reachable ∧ Registry.fresh.knows ⟨5⟩ = false ∧
      (∃ inspect, (build [any, any]).1 = .ok inspect) ∧
      (build [any, truth]).1 = .error [.literalMismatch (.bool true) TypeId.int Span.dummy] ∧
      (build [any, truth]).2.kind? ⟨5⟩ = some (.tuple tys) := by
  intro tys any truth build
  exact ⟨Registry.reachable_fresh, by decide +kernel,
    ⟨⟨⟨5⟩, 2, [⟨⟨.tuple [.wildcard, .wildcard], ⟨5⟩, [], Span.dummy⟩, 10⟩]⟩,
      by with_unfolding_all rfl⟩, by with_unfolding_all rfl, by with_unfolding_all rfl⟩

/-- Of two subjects one has the type that their tuple becomes, and the other stays unknown. To say that
the literal does not fit the tuple, the tuple would have to be written, so there is no answer. -/
theorem subject_within_its_tuple :
    let tys := [⟨6⟩, ⟨5⟩]
    let row : List (Pattern Unit) := [.wildcard Span.dummy, .literal Span.dummy (.bool true)]
    let built := ((ofSubjects tys).withRows [(row, 10)]).build Registry.fresh
    built.1 = .error [.unknownType ⟨6⟩ Span.dummy, .literalMismatch (.bool true) ⟨5⟩ Span.dummy] ∧
      built.2.Reaches ⟨5⟩ ⟨5⟩ ∧ built.2.answer built.1 = none := by
  intro tys row built
  have hmistakes : built.1 = .error [.unknownType ⟨6⟩ Span.dummy,
      .literalMismatch (.bool true) ⟨5⟩ Span.dummy] := by with_unfolding_all rfl
  have hcircle : built.2.Reaches ⟨5⟩ ⟨5⟩ :=
    .single ⟨.tuple tys, by with_unfolding_all rfl, List.mem_cons_of_mem _ (List.mem_singleton.mpr rfl)⟩
  refine ⟨hmistakes, hcircle, Option.eq_none_iff_forall_ne_some.mpr fun answer hanswer => ?_⟩
  have hwritten := (Registry.answer_eq_some_iff.mp hanswer).1
  rw [hmistakes] at hwritten
  obtain ⟨text, hrenders⟩ := hwritten ⟨5⟩ (List.mem_singleton.mpr rfl)
  exact hrenders.acyclic hcircle

end Inspect.Builder

end TaggedMatch
