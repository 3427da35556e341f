import TaggedMatch.Proofs.Host.Meeting
import TaggedMatch.Proofs.Pattern.Draft

/-!
# The names that a checked pattern binds

A checked pattern lists the names it binds in the order they are written. A match binds them in
another order: a name after those of the pattern below it, and the fields of an aggregate in the
order of their declaration. Up to order they are the same names, whatever the pattern and the type:
where the check finds a mistake, it takes neither the node nor the names of what is below it. And
since a name that is written twice is a mistake, a match that succeeds binds each name of the list
once.
-/

namespace TaggedMatch

variable {γ σ : Type}

/-! ## Nodes of products -/

namespace Node

theorem bindersOfItems_eq (items : List (Node γ)) :
    bindersOfItems items = items.flatMap binders := by
  induction items with
  | nil => rfl
  | cons item items ih => rw [bindersOfItems, ih, List.flatMap_cons]

theorem bindersOfSlots_eq (slots : List (Nat × Node γ)) :
    bindersOfSlots slots = slots.flatMap (·.2.binders) := by
  induction slots with
  | nil => rfl
  | cons slot slots ih =>
      obtain ⟨index, node⟩ := slot
      rw [bindersOfSlots, ih, List.flatMap_cons]

end Node

namespace Layout

theorem binders_ofItems (layout : Layout) (items : List (Node γ)) :
    (layout.ofItems items).binders = items.flatMap Node.binders := by
  have hslots : Node.bindersOfSlots (items.zipIdx.map Prod.swap) =
      items.flatMap Node.binders := by
    have hfst := List.flatMap_map Prod.fst Node.binders items.zipIdx
    rw [List.zipIdx_map_fst] at hfst
    rw [Node.bindersOfSlots_eq, List.flatMap_map, hfst]
    rfl
  unfold ofItems
  split
  · exact Node.bindersOfItems_eq items
  · exact hslots
  · exact hslots

theorem binders_ofSlots {layout : Layout} {slots : List (Nat × Node γ)}
    (tuple : layout.product = .tuple → slots = []) :
    (layout.ofSlots slots).binders.Perm (slots.flatMap (·.2.binders)) := by
  have hsorted : (Node.bindersOfSlots (slots.mergeSort fun a b => a.1 ≤ b.1)).Perm
      (slots.flatMap (·.2.binders)) := by
    rw [Node.bindersOfSlots_eq]
    exact (List.mergeSort_perm slots _).flatMap_right _
  unfold ofSlots
  split
  · next hproduct =>
      rw [tuple hproduct, Node.binders, Node.bindersOfItems_eq, List.flatMap_replicate]
      simp [Node.binders]
  · exact hsorted
  · exact hsorted

end Layout

namespace Pattern

variable {r : Registry} {ty : TypeId}

/-- The node of a draft binds what the draft found bound. -/
def Bound (d : Draft γ) : Prop := d.node.binders.Perm (Finding.binders d.findings)

theorem bound_draftItems {items : List (Pattern γ)} (tys : List TypeId)
    (h : ∀ p ∈ items, ∀ ty, Bound (p.draft r ty)) :
    ((draftItems r items tys).1.flatMap Node.binders).Perm
      (Finding.binders (draftItems r items tys).2) := by
  induction items generalizing tys with
  | nil => simp [draftItems, Finding.binders]
  | cons p ps ih =>
      rw [List.forall_mem_cons] at h
      cases tys with
      | nil => simp [draftItems, Finding.binders]
      | cons ty tys =>
          rw [draftItems, Finding.binders_append, List.flatMap_cons]
          exact (h.1 ty).append (ih tys h.2)

theorem bound_draftEntries {layout : Layout} {seen : List (Name × Span)}
    {entries : List (FieldEntry (Pattern γ))}
    (h : ∀ e ∈ entries, ∀ ty, Bound (e.pattern.draft r ty)) :
    ((draftEntries r layout ty seen entries).1.flatMap (·.2.binders)).Perm
      (Finding.binders (draftEntries r layout ty seen entries).2) := by
  induction entries generalizing seen with
  | nil => simp [draftEntries, Finding.binders]
  | cons e es ih =>
      obtain ⟨name, p, span⟩ := e
      rw [List.forall_mem_cons] at h
      rw [draftEntries]
      split
      · exact ih h.2
      · cases layout.find? name with
        | none => exact ih h.2
        | some slot =>
            simp only [Finding.binders_append, List.flatMap_cons]
            exact (h.1 slot.2).append (ih h.2)

/-- A tuple has no labels to resolve. -/
theorem draftEntries_unlabelled {layout : Layout} {seen : List (Name × Span)}
    {entries : List (FieldEntry (Pattern γ))} (h : ∀ name, layout.find? name = none) :
    (draftEntries r layout ty seen entries).1 = [] := by
  induction entries generalizing seen with
  | nil => rw [draftEntries]
  | cons e es ih =>
      obtain ⟨name, p, span⟩ := e
      rw [draftEntries]
      split
      · exact ih
      · simp only [h]
        exact ih

theorem find?_of_tuple {kind : TypeKind} {span : Span} {layout : Layout}
    (hlayout : r.layout kind ty span = .ok layout) (htuple : layout.product = .tuple)
    (name : Name) : layout.find? name = none := by
  rcases Registry.layout_eq_ok hlayout with
    ⟨elements, -, rfl⟩ | ⟨d, -, -, rfl⟩ | ⟨d, shape, -, -, rfl⟩
  · have hnone : (elements.map (PieceDef.mk none)).findIdx? (·.label == some name) = none :=
      List.findIdx?_eq_none_iff.mpr (by simp)
    rw [Layout.find?, hnone]
    rfl
  · cases htuple
  · cases htuple

theorem bound_mistaken (m : Mistake) : Bound (Draft.mistaken m : Draft γ) := .nil

/-- Whatever is checked against whatever type. -/
theorem bound_draft (p : Pattern γ) (ty : TypeId) : Bound (p.draft r ty) := by
  induction p using Pattern.induct generalizing ty with
  | wildcard span =>
      unfold draft
      split
      · exact bound_mistaken _
      · exact .nil
  | literal span value =>
      unfold draft
      split
      · exact bound_mistaken _
      · dsimp only
        split
        · exact .nil
        · exact bound_mistaken _
  | binding span name sub ih =>
      unfold draft
      split
      · exact bound_mistaken _
      · exact (List.perm_append_singleton name _).trans ((ih ty).cons name)
  | null span =>
      unfold draft
      split
      · exact bound_mistaken _
      · dsimp only
        split
        · exact .nil
        · exact bound_mistaken _
  | deref span sub ih =>
      unfold draft
      split
      · exact bound_mistaken _
      · dsimp only
        split
        · exact ih _
        · exact bound_mistaken _
  | alternative span selector payload ih =>
      unfold draft
      split
      · exact bound_mistaken _
      · dsimp only
        split
        · next test payloadTy _ =>
            cases test with
            | union => exact ih payloadTy
            | variant => exact ih payloadTy
        · exact bound_mistaken _
  | sequence span items ih =>
      unfold draft
      split
      · exact bound_mistaken _
      · dsimp only
        split
        · next layout _ =>
            split
            · rw [Bound, Layout.binders_ofItems]
              exact bound_draftItems _ ih
            · exact bound_mistaken _
        · exact bound_mistaken _
  | fields span entries ih =>
      unfold draft
      split
      · exact bound_mistaken _
      · dsimp only
        split
        · next layout hlayout =>
            -- As a tuple the layout would drop the slots, but then there are none.
            have hunlabelled (htuple : layout.product = .tuple) :
                (draftEntries r layout ty [] entries).1 = [] :=
              draftEntries_unlabelled (find?_of_tuple hlayout htuple)
            exact (Layout.binders_ofSlots hunlabelled).trans (bound_draftEntries ih)
        · exact bound_mistaken _
  | guarded span sub guard ih =>
      unfold draft
      split
      · exact bound_mistaken _
      · exact ih ty

end Pattern

/-- A match of a checked pattern binds each of its names once, and no other. -/
theorem Compiled.perm_binders {r : Registry} {p : Pattern γ} {ty : TypeId} {c : Compiled γ}
    (checked : p.check r ty = .ok c) {host : Host γ σ} {v : Value} {outer : Lookup} {s s' : σ}
    {bindings : Bindings} (h : (c.run host v outer).run s = (.ok (some bindings), s')) :
    (bindings.map (·.1)).Perm c.binders ∧ c.binders.Nodup := by
  rw [names_of_run h]
  obtain ⟨⟨-, hnodup⟩, rfl⟩ := Pattern.check_eq_ok_iff.mp checked
  exact ⟨Pattern.bound_draft p ty, hnodup⟩

/-- A checked pattern lists the identifiers it binds in written order, each once, and a match of it
binds each of these once and no other. -/
theorem Compiled.binders_exact {r : Registry} {p : Pattern γ} {ty : TypeId} {c : Compiled γ}
    (checked : p.check r ty = .ok c) :
    c.binders = p.binders ∧ c.binders.Nodup ∧
      ∀ {σ : Type} (host : Host γ σ) (v : Value) (outer : Lookup) (s s' : σ) (bindings : Bindings),
        (c.run host v outer).run s = (.ok (some bindings), s') →
          (bindings.map (·.1)).Perm c.binders ∧
            ∀ name ∈ c.binders, (bindings.map (·.1)).count name = 1 := by
  obtain ⟨-, hnodup, hc⟩ := Pattern.check_eq_ok_iff_legal.mp checked
  have hbinders : c.binders = p.binders := by rw [hc]
  have hdistinct : c.binders.Nodup := by rwa [hbinders]
  refine ⟨hbinders, hdistinct, fun host v outer s s' bindings hrun => ?_⟩
  obtain ⟨hperm, -⟩ := perm_binders checked hrun
  refine ⟨hperm, fun name hname => ?_⟩
  rw [hperm.count_eq]
  exact List.count_eq_one_of_mem hdistinct hname

/-- The registry of a program with segments, which have a start and an end. -/
def segmentRegistry : Registry :=
  Registry.fresh.apply (.aggregate "Segment" [("start", TypeId.int), ("end", TypeId.int)])

/-- Binds the segment, then its end, then its start. -/
def segmentPattern : Pattern Unit :=
  .binding Span.dummy ⟨7⟩ (.fields Span.dummy [⟨⟨3⟩, .bind Span.dummy ⟨9⟩, Span.dummy⟩,
    ⟨⟨2⟩, .bind Span.dummy ⟨8⟩, Span.dummy⟩])

def segmentCompiled : Compiled Unit :=
  ⟨.binding ⟨7⟩ (.fields ⟨5⟩ "Segment" [(0, .binding ⟨8⟩ .wildcard), (1, .binding ⟨9⟩ .wildcard)]),
    ⟨5⟩, [⟨7⟩, ⟨9⟩, ⟨8⟩], Span.dummy⟩

theorem binders_exact_of_segment :
    segmentPattern.check segmentRegistry ⟨5⟩ = .ok segmentCompiled ∧
      segmentCompiled.binders = segmentPattern.binders ∧ segmentCompiled.binders.Nodup ∧
      ∀ {σ : Type} (host : Host Unit σ) (v : Value) (outer : Lookup) (s s' : σ)
        (bindings : Bindings),
        (segmentCompiled.run host v outer).run s = (.ok (some bindings), s') →
          (bindings.map (·.1)).Perm segmentCompiled.binders ∧
            ∀ name ∈ segmentCompiled.binders, (bindings.map (·.1)).count name = 1 := by
  have checked : segmentPattern.check segmentRegistry ⟨5⟩ = .ok segmentCompiled := by
    rw [segmentCompiled, ← mergeSort_slots_of_perm (List.Perm.swap ..) (by decide)]
    with_unfolding_all rfl
  exact ⟨checked, Compiled.binders_exact checked⟩

end TaggedMatch
