import TaggedMatch.Proofs.Pattern.Binders
import TaggedMatch.Proofs.Pattern.Composition
import TaggedMatch.Proofs.Pattern.Mistakes

/-!
# Where the mistakes in a pattern are pointed at

The places that a diagnostic points at come to the check in different ways. Most are handed down to
the node that is mistaken. For what stands twice there is also the place where it stood first, which
the check has kept: the place of a binding until the end of the pattern, that of an entry until the
end of its field pattern. Whatever the way, a check points at nothing but what is written in the
pattern.

That a place is one of the pattern's is an induction over where a finding comes from
(`Finds.marks`), and so is that an entry listed twice has both places from one field pattern
(`Finds.listed`). The order of two bindings is not to be had from there, since they may be found in
different parts. It comes from the findings as a list, of which the bindings are some of those that
are written, in the order in which they are written (`bindings_draft_sublist`).
-/

namespace TaggedMatch

open scoped List

variable {γ : Type}

/-! ## Places in a pattern -/

namespace Pattern

/-- `p.Marks place`: a node of the pattern, or an entry of a field pattern in it, stands at the
place. A wildcard below a binding does not count, since a node that only binds is written as one
with a wildcard. -/
inductive Marks : Pattern γ → Span → Prop
  | node (p : Pattern γ) : Marks p p.span
  | binding {span place : Span} {name : Name} {sub : Pattern γ} (asks : ∀ s, sub ≠ .wildcard s)
      (inner : Marks sub place) : Marks (.binding span name sub) place
  | deref {span place : Span} {sub : Pattern γ} (inner : Marks sub place) :
      Marks (.deref span sub) place
  | alternative {span place : Span} {selector : Name} {payload : Pattern γ}
      (inner : Marks payload place) : Marks (.alternative span selector payload) place
  | item {span place : Span} {items : List (Pattern γ)} {item : Pattern γ} (mem : item ∈ items)
      (inner : Marks item place) : Marks (.sequence span items) place
  | entry {span : Span} {entries : List (FieldEntry (Pattern γ))} {e : FieldEntry (Pattern γ)}
      (mem : e ∈ entries) : Marks (.fields span entries) e.span
  | field {span place : Span} {entries : List (FieldEntry (Pattern γ))}
      {e : FieldEntry (Pattern γ)} (mem : e ∈ entries) (inner : Marks e.pattern place) :
      Marks (.fields span entries) place
  | guarded {span place : Span} {sub : Pattern γ} {guard : γ} (inner : Marks sub place) :
      Marks (.guarded span sub guard) place

/-- The binding nodes of a pattern in written order, each as its identifier and its place. -/
def bindings (p : Pattern γ) : List (Name × Span) :=
  p.subpatterns.filterMap fun
    | .binding span name _ => some (name, span)
    | _ => none

@[simp] theorem bindings_sequence (span : Span) (items : List (Pattern γ)) :
    (sequence span items).bindings = items.flatMap bindings := by
  rw [bindings, subpatterns, subpatternsOfItems_eq, List.filterMap_cons_none rfl,
    List.filterMap_flatMap]
  rfl

@[simp] theorem bindings_fields (span : Span) (entries : List (FieldEntry (Pattern γ))) :
    (fields span entries).bindings = entries.flatMap (·.pattern.bindings) := by
  rw [bindings, subpatterns, subpatternsOfEntries_eq, List.filterMap_cons_none rfl,
    List.filterMap_flatMap]
  rfl

/-- `p.Precedes r d first again`: what the diagnostic says stands twice, stands in the pattern at
`first` and later at `again`. -/
inductive Precedes (r : Registry) (p : Pattern γ) (d : Diagnostic) (first again : Span) : Prop
  | binding {name : Name} (code : d.code = .boundTwice)
      (message : d.message =
        s!"identifier `{r.text name}` is bound more than once in the same pattern")
      (order : [(name, first), (name, again)] <+ p.bindings)
  | entry {field : Name} {span : Span} {entries : List (FieldEntry (Pattern γ))}
      (code : d.code = .listedTwice)
      (message : d.message = s!"field `{r.text field}` is listed more than once in the pattern")
      (written : .fields span entries ∈ p.subpatterns)
      (order : [(field, first), (field, again)] <+ entries.map fun e => (e.name, e.span))

/-- The diagnostic points at one place of the pattern, and beside it only at where what stands there
stood before. -/
def PointsInto (r : Registry) (p : Pattern γ) (d : Diagnostic) : Prop :=
  ∃ label, d.labels.filter (·.primary) = [label] ∧ p.Marks label.span ∧
    ∀ context ∈ d.labels, context.primary = false → p.Precedes r d context.span label.span

end Pattern

/-! ## Places of mistakes -/

/-- Where a mistake is. That an inspect has no subjects is nowhere in a pattern. -/
def Mistake.place? : Mistake → Option Span
  | .unknownType _ span | .unknownAlternative _ _ span | .ambiguousSelector _ _ _ span
  | .unknownField _ _ span | .arityMismatch _ _ _ span | .literalMismatch _ _ span
  | .unknownConstant _ _ span | .notAPointer _ _ span | .withoutAlternatives _ _ span
  | .notAnAggregate _ span | .encapsulated _ span | .boundTwice _ span _ | .listedTwice _ span _
  | .subjectCount _ _ span => some span
  | .noSubjects => none

/-- Where that stood first which stands there again. -/
def Mistake.first? : Mistake → Option Span
  | .boundTwice _ _ first | .listedTwice _ _ first => some first
  | _ => none

/-- The place of a finding. -/
def Finding.place? : Finding → Option Span
  | .mistake m => m.place?
  | .binder _ span => some span

/-- A diagnostic points at the place of the mistake, and at what stood first if there is that. -/
theorem Mistake.labels_diagnostic (r : Registry) (m : Mistake) : ∃ remark context : String,
    (m.diagnostic r).labels = m.place?.toList.map (⟨·, remark, true⟩) ++
      m.first?.toList.map (⟨·, context, false⟩) := by
  cases m with
  | boundTwice | listedTwice => exact ⟨_, _, rfl⟩
  | unknownAlternative selector ty span =>
      refine ⟨"unknown alternative", "", ?_⟩
      simp only [diagnostic]
      split
      · rfl
      · rfl
  | literalMismatch literal ty span =>
      refine ⟨"literal of the wrong type", "", ?_⟩
      simp only [diagnostic]
      split
      · rfl
      · rfl
  | unknownType | ambiguousSelector | unknownField | arityMismatch | unknownConstant | notAPointer
  | withoutAlternatives | notAnAggregate | encapsulated | subjectCount => exact ⟨_, "", rfl⟩
  | noSubjects => exact ⟨"", "", rfl⟩

theorem Mistake.pointsInto {r : Registry} {p : Pattern γ} {m : Mistake} {place : Span}
    (hplace : m.place? = some place) (marks : p.Marks place)
    (precedes : ∀ first, m.first? = some first → p.Precedes r (m.diagnostic r) first place) :
    p.PointsInto r (m.diagnostic r) := by
  obtain ⟨remark, context, hlabels⟩ := m.labels_diagnostic r
  rw [hplace] at hlabels
  cases hfirst : m.first? with
  | none =>
      rw [hfirst] at hlabels
      refine ⟨⟨place, remark, true⟩, by rw [hlabels]; rfl, marks, fun l hl hsecondary => ?_⟩
      rw [hlabels] at hl
      cases List.mem_singleton.mp hl
      cases hsecondary
  | some first =>
      rw [hfirst] at hlabels
      refine ⟨⟨place, remark, true⟩, by rw [hlabels]; rfl, marks, fun l hl hsecondary => ?_⟩
      rw [hlabels] at hl
      rcases List.mem_pair.mp hl with rfl | rfl
      · cases hsecondary
      · exact precedes first hfirst

/-- A selector is refused at the place of its pattern. -/
theorem Registry.alternativeTest_place {r : Registry} {selector : Name} {kind : TypeKind}
    {ty : TypeId} {span : Span} {m : Mistake}
    (h : r.alternativeTest selector kind ty span = .error m) :
    m.place? = some span ∧ m.first? = none := by
  unfold alternativeTest at h
  split at h
  · split at h
    · cases h
    · cases h
      exact ⟨rfl, rfl⟩
  · split at h
    · split at h
      · cases h
        exact ⟨rfl, rfl⟩
      · cases h
      · cases h
        exact ⟨rfl, rfl⟩
    · cases h
      exact ⟨rfl, rfl⟩
  · cases h
    exact ⟨rfl, rfl⟩

namespace Pattern

variable {r : Registry} {p : Pattern γ} {ty : TypeId}

/-- What is found is found at a place of the pattern. -/
theorem Finds.marks {f : Finding} (h : Finds r p ty f) :
    ∃ place, f.place? = some place ∧ p.Marks place := by
  induction h with
  | unknown => exact ⟨_, rfl, .node _⟩
  | literal _ refused =>
      rcases Registry.literalTest_error refused with rfl | ⟨name, rfl⟩
      · exact ⟨_, rfl, .node _⟩
      · exact ⟨_, rfl, .node _⟩
  | selector _ refused => exact ⟨_, (Registry.alternativeTest_place refused).1, .node _⟩
  | sequence _ refused | fields _ refused =>
      rcases Registry.layout_error refused with rfl | rfl
      · exact ⟨_, rfl, .node _⟩
      · exact ⟨_, rfl, .node _⟩
  | binder | null | dereference | arity => exact ⟨_, rfl, .node _⟩
  | listedTwice => exact ⟨_, rfl, .entry (by simp)⟩
  | unknownField mem => exact ⟨_, rfl, .entry mem⟩
  | @binding span name sub ty kind f known inner ih =>
      obtain ⟨place, hplace, hmarks⟩ := ih
      refine ⟨place, hplace, .binding ?_ hmarks⟩
      -- All that can be found at a wildcard is that the type is unknown.
      rintro s rfl
      cases inner with
      | unknown unknown => cases unknown.symm.trans known
  | pointee _ _ ih =>
      obtain ⟨place, hplace, hmarks⟩ := ih
      exact ⟨place, hplace, .deref hmarks⟩
  | payload _ _ _ ih =>
      obtain ⟨place, hplace, hmarks⟩ := ih
      exact ⟨place, hplace, .alternative hmarks⟩
  | item _ mem _ ih =>
      obtain ⟨place, hplace, hmarks⟩ := ih
      exact ⟨place, hplace, .item (List.of_mem_zip mem).1 hmarks⟩
  | entry _ mem _ _ ih =>
      obtain ⟨place, hplace, hmarks⟩ := ih
      exact ⟨place, hplace, .field mem hmarks⟩
  | guarded _ ih =>
      obtain ⟨place, hplace, hmarks⟩ := ih
      exact ⟨place, hplace, .guarded hmarks⟩

/-! ## What stands twice -/

/-- One that was met before another precedes it. -/
theorem pair_sublist {α : Type} {a b : α} {before after : List α} (h : a ∈ before) :
    [a, b] <+ before ++ b :: after :=
  (List.singleton_sublist.mpr h).append ((List.nil_sublist after).cons_cons b)

/-- What is found to stand twice by itself is a field, and it is listed twice in one field pattern.
-/
theorem Finds.listed {f : Finding} (h : Finds r p ty f) {m : Mistake} (hm : f = .mistake m)
    {first : Span} (hfirst : m.first? = some first) :
    ∃ field again span entries, m = .listedTwice field again first ∧
      .fields span entries ∈ p.subpatterns ∧
        [(field, first), (field, again)] <+ entries.map fun e => (e.name, e.span) := by
  induction h with
  | @listedTwice span before after e again ty mem same =>
      cases hm
      cases hfirst
      refine ⟨again.name, again.span, span, before ++ again :: after, rfl, ?_, ?_⟩
      · rw [subpatterns]
        exact List.mem_cons_self
      · rw [List.map_append, List.map_cons]
        exact pair_sublist (List.mem_map.mpr ⟨e, mem, by rw [same]⟩)
  | literal _ refused =>
      cases hm
      rcases Registry.literalTest_error refused with rfl | ⟨name, rfl⟩
      · cases hfirst
      · cases hfirst
  | selector _ refused =>
      cases hm
      cases (Registry.alternativeTest_place refused).2.symm.trans hfirst
  | sequence _ refused | fields _ refused =>
      cases hm
      rcases Registry.layout_error refused with rfl | rfl
      · cases hfirst
      · cases hfirst
  | binder => cases hm
  | unknown | null | dereference | arity | unknownField =>
      cases hm
      cases hfirst
  | binding _ _ ih | pointee _ _ ih | payload _ _ _ ih | guarded _ ih =>
      obtain ⟨field, again, span, entries, heq, hmem, horder⟩ := ih hm
      refine ⟨field, again, span, entries, heq, ?_, horder⟩
      rw [subpatterns]
      exact List.mem_cons_of_mem _ hmem
  | item _ mem _ ih =>
      obtain ⟨field, again, span, entries, heq, hmem, horder⟩ := ih hm
      refine ⟨field, again, span, entries, heq, ?_, horder⟩
      rw [subpatterns, subpatternsOfItems_eq]
      exact List.mem_cons_of_mem _ (List.mem_flatMap.mpr ⟨_, (List.of_mem_zip mem).1, hmem⟩)
  | entry _ mem _ _ ih =>
      obtain ⟨field, again, span, entries, heq, hmem, horder⟩ := ih hm
      refine ⟨field, again, span, entries, heq, ?_, horder⟩
      rw [subpatterns, subpatternsOfEntries_eq]
      exact List.mem_cons_of_mem _ (List.mem_flatMap.mpr ⟨_, mem, hmem⟩)

end Pattern

/-- The bindings among findings, each as its identifier and its place. -/
def Finding.bindings (findings : List Finding) : List (Name × Span) :=
  findings.filterMap fun
    | .binder name span => some (name, span)
    | .mistake _ => none

theorem Finding.bindings_append (fs gs : List Finding) :
    bindings (fs ++ gs) = bindings fs ++ bindings gs :=
  List.filterMap_append

namespace Pattern

variable {r : Registry} {p : Pattern γ} {ty : TypeId}

theorem bindings_draftItems_sublist {items : List (Pattern γ)}
    (ih : ∀ p ∈ items, ∀ ty, Finding.bindings (p.draft r ty).findings <+ p.bindings)
    (tys : List TypeId) :
    Finding.bindings (draftItems r items tys).2 <+ items.flatMap bindings := by
  rw [draftItems_eq]
  dsimp only
  induction items generalizing tys with
  | nil => exact List.nil_sublist _
  | cons p ps ihItems =>
      rw [List.forall_mem_cons] at ih
      cases tys with
      | nil => exact List.nil_sublist _
      | cons ty tys =>
          rw [List.zipWith_cons_cons, List.flatten_cons, Finding.bindings_append,
            List.flatMap_cons]
          exact (ih.1 ty).append (ihItems ih.2 tys)

theorem bindings_draftEntries_sublist {layout : Layout} {entries : List (FieldEntry (Pattern γ))}
    (ih : ∀ e ∈ entries, ∀ ty,
      Finding.bindings (e.pattern.draft r ty).findings <+ e.pattern.bindings)
    (seen : List (Name × Span)) :
    Finding.bindings (draftEntries r layout ty seen entries).2 <+
      entries.flatMap (·.pattern.bindings) := by
  induction entries generalizing seen with
  | nil =>
      rw [draftEntries]
      exact List.nil_sublist _
  | cons e es ihEntries =>
      obtain ⟨name, p, span⟩ := e
      rw [List.forall_mem_cons] at ih
      -- An entry that is mistaken binds nothing.
      have hskip (seen : List (Name × Span)) :
          Finding.bindings (draftEntries r layout ty seen es).2 <+
            p.bindings ++ es.flatMap (·.pattern.bindings) :=
        (ihEntries ih.2 seen).trans (List.sublist_append_right ..)
      rw [draftEntries, List.flatMap_cons]
      split
      · exact hskip seen
      · cases layout.find? name with
        | none => exact hskip _
        | some slot =>
            dsimp only
            rw [Finding.bindings_append]
            exact (ih.1 slot.2).append (ihEntries ih.2 _)

/-- The bindings that are found are some of those that are written, in written order. -/
theorem bindings_draft_sublist (p : Pattern γ) (ty : TypeId) :
    Finding.bindings (p.draft r ty).findings <+ p.bindings := by
  have hmistaken (m : Mistake) (l : List (Name × Span)) :
      Finding.bindings (Draft.mistaken m : Draft γ).findings <+ l := List.nil_sublist l
  induction p using Pattern.induct generalizing ty with
  | wildcard span =>
      unfold draft
      split
      · exact hmistaken ..
      · exact List.nil_sublist _
  | literal span value | null span =>
      unfold draft
      split
      · exact hmistaken ..
      · dsimp only
        split
        · exact List.nil_sublist _
        · exact hmistaken ..
  | binding span name sub ih =>
      unfold draft
      split
      · exact hmistaken ..
      · exact (ih ty).cons_cons (name, span)
  | deref span sub ih =>
      unfold draft
      split
      · exact hmistaken ..
      · dsimp only
        split
        · exact ih _
        · exact hmistaken ..
  | alternative span selector payload ih =>
      unfold draft
      split
      · exact hmistaken ..
      · dsimp only
        split
        · exact ih _
        · exact hmistaken ..
  | sequence span items ih =>
      rw [bindings_sequence]
      unfold draft
      split
      · exact hmistaken ..
      · dsimp only
        split
        · split
          · exact bindings_draftItems_sublist ih _
          · exact hmistaken ..
        · exact hmistaken ..
  | fields span entries ih =>
      rw [bindings_fields]
      unfold draft
      split
      · exact hmistaken ..
      · dsimp only
        split
        · exact bindings_draftEntries_sublist ih _
        · exact hmistaken ..
  | guarded span sub guard ih =>
      unfold draft
      split
      · exact hmistaken ..
      · exact ih ty

/-- An identifier that is reported as bound twice is bound at both places, in this order. -/
theorem PointsInto.of_boundTwice {name : Name} {again first : Span} {before after : List Finding}
    (findings : (p.draft r ty).findings = before ++ .binder name again :: after)
    (met : .binder name first ∈ before) :
    p.PointsInto r (Mistake.diagnostic r (.boundTwice name again first)) := by
  have hagain : .binder name again ∈ (p.draft r ty).findings := by simp [findings]
  obtain ⟨place, hplace, hmarks⟩ := (finds_of_mem_draft hagain).marks
  cases hplace
  have hfound : [(name, first), (name, again)] <+ Finding.bindings (p.draft r ty).findings := by
    rw [findings, Finding.bindings_append]
    exact pair_sublist (List.mem_filterMap.mpr ⟨_, met, rfl⟩)
  refine Mistake.pointsInto rfl hmarks fun first' hfirst => ?_
  cases hfirst
  exact .binding rfl rfl (hfound.trans (bindings_draft_sublist p ty))

/-- A check that refuses a pattern has mistakes to report, and each is pointed at in the pattern. -/
theorem labels_of_check {mistakes : List Mistake} (refused : p.check r ty = .error mistakes) :
    mistakes ≠ [] ∧ ∀ m ∈ mistakes, p.PointsInto r (m.diagnostic r) := by
  have hreasons : Finding.mistakes (p.draft r ty).findings = mistakes := by
    rw [← reasons_check, refused]
    rfl
  refine ⟨?_, fun m hm => ?_⟩
  · rintro rfl
    rw [check, hreasons] at refused
    cases refused
  · rw [← hreasons] at hm
    rcases Finding.mem_mistakesAfter hm with
      hmet | ⟨name, again, first, before, after, rfl, hfindings, hfirst | hfirst⟩
    · have hfound : Finds r p ty (.mistake m) := finds_of_mem_draft hmet
      obtain ⟨place, hplace, hmarks⟩ := hfound.marks
      refine Mistake.pointsInto hplace hmarks fun first hfirst => ?_
      obtain ⟨field, again, span, entries, rfl, hwritten, horder⟩ := hfound.listed rfl hfirst
      cases hplace
      exact .entry rfl rfl hwritten horder
    · exact .of_boundTwice hfindings hfirst
    · cases hfirst

/-- A segment bound under the identifier of its start, a pointer pattern for its end, and its start
asked for once more. -/
theorem labels_of_check_segment :
    let p : Pattern Unit := .binding ⟨0, 1⟩ ⟨7⟩ (.fields ⟨4, 40⟩ [⟨⟨2⟩, .bind ⟨6, 7⟩ ⟨7⟩, ⟨5, 8⟩⟩,
      ⟨⟨3⟩, .null ⟨12, 16⟩, ⟨10, 17⟩⟩, ⟨⟨2⟩, .wildcard ⟨22, 23⟩, ⟨20, 24⟩⟩])
    let mistakes : List Mistake := [.boundTwice ⟨7⟩ ⟨6, 7⟩ ⟨0, 1⟩,
      .notAPointer "null" TypeId.int ⟨12, 16⟩, .listedTwice ⟨2⟩ ⟨20, 24⟩ ⟨5, 8⟩]
    p.check segmentRegistry ⟨5⟩ = .error mistakes ∧
      mistakes ≠ [] ∧
        ∀ m ∈ mistakes, p.PointsInto segmentRegistry (m.diagnostic segmentRegistry) := by
  intro p mistakes
  have refused : p.check segmentRegistry ⟨5⟩ = .error mistakes := by with_unfolding_all rfl
  exact ⟨refused, labels_of_check refused⟩

end Pattern

end TaggedMatch
