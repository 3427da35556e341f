import TaggedMatch.Proofs.Pattern.Findings

/-!
# The mistakes of the parts are those of the whole

A check reports every mistake, so what it reports of a product pattern should be what it would report
of the parts one by one. What could stand in the way is the identifiers that are bound already, which
the check carries from part to part. They matter only where an identifier is bound again
(`mistakesAfter_congr`). And a part is found to bind no more than is written in it
(`Finds.mem_binders`), so that parts in which different identifiers are written do not touch.
-/

namespace TaggedMatch

/-- The mistakes for which something was refused, none if it was not. -/
def Mistake.reasons {α : Type} : Except (List Mistake) α → List Mistake
  | .ok _ => []
  | .error mistakes => mistakes

/-- What is reported of a result. -/
def Registry.reports {α : Type} (r : Registry) (result : Except (List Mistake) α) :
    List Diagnostic :=
  (Mistake.reasons result).map (·.diagnostic r)

/-- Where a refusal always has a reason, nothing is reported just of what was accepted. -/
theorem Registry.reports_eq_nil_iff {α : Type} {r : Registry} {result : Except (List Mistake) α}
    (h : result ≠ .error []) : r.reports result = [] ↔ ∃ a, result = .ok a := by
  cases result with
  | ok a => simp [reports, Mistake.reasons]
  | error mistakes =>
      have hne : mistakes ≠ [] := by
        rintro rfl
        exact h rfl
      simp [reports, Mistake.reasons, hne]

namespace Finding

/-- What was bound before matters for the identifiers that are met again, and for no other. -/
theorem mistakesAfter_congr {findings : List Finding} {bound bound' : List (Name × Span)}
    (h : ∀ name ∈ binders findings, bound.lookup name = bound'.lookup name) :
    mistakesAfter bound findings = mistakesAfter bound' findings := by
  induction findings generalizing bound bound' with
  | nil => rfl
  | cons finding rest ih =>
      cases finding with
      | mistake m =>
          rw [mistakesAfter, mistakesAfter, ih h]
      | binder name span =>
          have hbinders : binders (.binder name span :: rest) = name :: binders rest := rfl
          rw [hbinders, List.forall_mem_cons] at h
          rw [mistakesAfter, mistakesAfter, h.1]
          split
          · rw [ih h.2]
          · refine ih fun other hother => ?_
            rw [List.lookup_cons, List.lookup_cons, h.2 other hother]

/-- Findings that bind none of the identifiers of those before them are as they would be alone. -/
theorem mistakesAfter_append {fs gs : List Finding} (apart : (binders fs).Disjoint (binders gs))
    (bound : List (Name × Span)) :
    mistakesAfter bound (fs ++ gs) = mistakesAfter bound fs ++ mistakesAfter bound gs := by
  induction fs generalizing bound with
  | nil => rfl
  | cons finding rest ih =>
      cases finding with
      | mistake m =>
          rw [List.cons_append, mistakesAfter, mistakesAfter, ih apart, List.cons_append]
      | binder name span =>
          have hbinders : binders (.binder name span :: rest) = name :: binders rest := rfl
          rw [hbinders, List.disjoint_cons_left] at apart
          rw [List.cons_append, mistakesAfter, mistakesAfter]
          split
          · rw [ih apart.2, List.cons_append]
          · rw [ih apart.2]
            congr 1
            -- The identifier is bound from here on, and does not occur in what follows.
            refine mistakesAfter_congr fun other hother => ?_
            have hne : (other == name) = false := by
              rw [beq_eq_false_iff_ne]
              rintro rfl
              exact apart.1 hother
            rw [List.lookup_cons, hne]

theorem binders_flatMap {α : Type} (l : List α) (findings : α → List Finding) :
    binders (l.flatMap findings) = l.flatMap fun a => binders (findings a) :=
  List.filterMap_flatMap

theorem mistakes_flatMap {α : Type} {l : List α} {findings : α → List Finding}
    (apart : l.Pairwise fun a b => (binders (findings a)).Disjoint (binders (findings b))) :
    mistakes (l.flatMap findings) = l.flatMap fun a => mistakes (findings a) := by
  induction l with
  | nil => rfl
  | cons a l ih =>
      obtain ⟨ha, hl⟩ := List.pairwise_cons.mp apart
      have hrest : (binders (findings a)).Disjoint (binders (l.flatMap findings)) := by
        intro name hname hlater
        rw [binders_flatMap] at hlater
        obtain ⟨b, hb, hlater⟩ := List.mem_flatMap.mp hlater
        exact ha b hb hname hlater
      rw [List.flatMap_cons, List.flatMap_cons, mistakes, mistakesAfter_append hrest]
      exact congrArg _ (ih hl)

end Finding

namespace Pattern

variable {γ : Type} {r : Registry} {p : Pattern γ} {ty : TypeId}

/-- No identifier is found bound but those that are written. -/
theorem Finds.mem_binders {f : Finding} (h : Finds r p ty f) {name : Name} {span : Span}
    (hf : f = .binder name span) : name ∈ p.binders := by
  induction h with
  | binder =>
      cases hf
      exact List.mem_cons_self
  | binding _ _ ih => exact List.mem_cons_of_mem _ (ih hf)
  | pointee _ _ ih | payload _ _ _ ih | guarded _ ih => exact ih hf
  | item _ mem _ ih =>
      rw [binders_sequence]
      exact List.mem_flatMap.mpr ⟨_, (List.of_mem_zip mem).1, ih hf⟩
  | entry _ mem _ _ ih =>
      rw [binders_fields]
      exact List.mem_flatMap.mpr ⟨_, mem, ih hf⟩
  | unknown | literal | null | dereference | selector | sequence | arity | fields | listedTwice
  | unknownField => cases hf

theorem binders_findings_subset (p : Pattern γ) (ty : TypeId) :
    Finding.binders (p.draft r ty).findings ⊆ p.binders := by
  intro name hname
  obtain ⟨f, hf, hbinder⟩ := List.mem_filterMap.mp hname
  cases f with
  | mistake m => cases hbinder
  | binder other span =>
      cases hbinder
      exact (finds_of_mem_draft hf).mem_binders rfl

/-- A check gives all mistakes as its reasons. -/
theorem reasons_check (p : Pattern γ) (ty : TypeId) :
    Mistake.reasons (p.check r ty) = Finding.mistakes (p.draft r ty).findings := by
  rw [check]
  split
  · next hnone => exact hnone.symm
  · rfl

/-- `p.Splits r ty parts`: the product pattern fits what the type shows, and the parts are its patterns
in written order, each with the type it is for. -/
inductive Splits (r : Registry) : Pattern γ → TypeId → List (Pattern γ × TypeId) → Prop
  | sequence {span : Span} {items : List (Pattern γ)} {ty : TypeId} {parts : List PieceDef}
      (shown : r.Shows ty parts) (arity : items.length = parts.length) :
      Splits r (.sequence span items) ty (items.zip (parts.map (·.ty)))
  | fields {span : Span} {entries : List (FieldEntry (Pattern γ))} {ty : TypeId}
      {parts : List PieceDef} {part : Name → PieceDef} (shown : r.Shows ty parts)
      (distinct : (entries.map (·.name)).Nodup)
      (resolved : ∀ e ∈ entries, parts.find? (·.label == some e.name) = some (part e.name)) :
      Splits r (.fields span entries) ty (entries.map fun e => (e.pattern, (part e.name).ty))

/-- The findings of a product pattern are those of its parts. -/
theorem Splits.findings {parts : List (Pattern γ × TypeId)} (h : p.Splits r ty parts) :
    (p.draft r ty).findings = parts.flatMap fun x => (x.1.draft r x.2).findings := by
  cases h with
  | @sequence span items ty parts shown arity =>
      obtain ⟨kind, layout, hkind, hlayout, rfl⟩ := (Registry.shows_iff span).mp shown
      rw [draft_sequence hkind hlayout arity, draftItems_eq]
      dsimp only
      rw [← List.map_uncurry_zip_eq_zipWith]
      rfl
  | @fields span entries ty parts part shown distinct resolved =>
      have hresolved (e) (he : e ∈ entries) : ∃ part, parts.find? (·.label == some e.name) = some part :=
        ⟨_, resolved e he⟩
      obtain ⟨kind, layout, slot, -, -, -, hslot, hdraft⟩ :=
        draft_fields_of_shows span shown distinct hresolved
      rw [hdraft, List.flatMap_map]
      refine List.flatMap_congr fun e he => ?_
      obtain ⟨first, hfirst, -, hty⟩ := hslot e he
      rw [resolved e he] at hfirst
      cases hfirst
      rw [hty]

/-- A product pattern is refused for the reasons for which each of its parts alone would be. -/
theorem Splits.reasons_eq {parts : List (Pattern γ × TypeId)} (h : p.Splits r ty parts)
    (apart : parts.Pairwise fun x y => x.1.binders.Disjoint y.1.binders) :
    Mistake.reasons (p.check r ty) =
      parts.flatMap fun x => Mistake.reasons (x.1.check r x.2) := by
  have hapart : parts.Pairwise fun x y =>
      (Finding.binders (x.1.draft r x.2).findings).Disjoint
        (Finding.binders (y.1.draft r y.2).findings) := by
    refine apart.imp fun {x y} hxy => ?_
    exact List.disjoint_of_subset_left (binders_findings_subset x.1 x.2)
      (List.disjoint_of_subset_right (binders_findings_subset y.1 y.2) hxy)
  simp only [reasons_check]
  rw [h.findings, Finding.mistakes_flatMap hapart]

end Pattern

end TaggedMatch
