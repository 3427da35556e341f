import TaggedMatch.Proofs.Pattern.Draft

/-!
# Where a finding comes from

A check goes through a pattern and collects what it finds. `Finds` says where a finding can have been
made, by a rule for every place at which the check finds something itself, and a rule for every way
down into a part. Nothing is found by other ways (`finds_of_mem_draft`, read off the check once); so
what is to be said of every finding, however deep in the pattern, is an induction over these rules.

The findings of a whole pattern are the mistakes in it and the identifiers it binds. What is reported
are the mistakes, and one more for each identifier that was bound before (`mem_mistakesAfter`).
-/

namespace TaggedMatch

variable {γ : Type}

namespace Pattern

/-- `Finds r p ty f`: a check of the pattern against the type can come upon the finding. The rules say
where that is and what there is to find, and of when it is found only as much as is needed. -/
inductive Finds (r : Registry) : Pattern γ → TypeId → Finding → Prop
  | unknown {p : Pattern γ} {ty : TypeId} (unknown : r.kind? ty = none) :
      Finds r p ty (.mistake (.unknownType ty p.span))
  | literal {span : Span} {value : Literal} {ty : TypeId} {kind : TypeKind} {m : Mistake}
      (known : r.kind? ty = some kind) (refused : r.literalTest value kind ty span = .error m) :
      Finds r (.literal span value) ty (.mistake m)
  | binder {span : Span} {name : Name} {sub : Pattern γ} {ty : TypeId} :
      Finds r (.binding span name sub) ty (.binder name span)
  | binding {span : Span} {name : Name} {sub : Pattern γ} {ty : TypeId} {kind : TypeKind}
      {f : Finding} (known : r.kind? ty = some kind) (inner : Finds r sub ty f) :
      Finds r (.binding span name sub) ty f
  | null {span : Span} {ty : TypeId} :
      Finds r (.null span) ty (.mistake (.notAPointer "null" ty span))
  | dereference {span : Span} {sub : Pattern γ} {ty : TypeId} :
      Finds r (.deref span sub) ty (.mistake (.notAPointer "dereference" ty span))
  | pointee {span : Span} {sub : Pattern γ} {ty pointee : TypeId} {f : Finding}
      (known : r.kind? ty = some (.pointer pointee)) (inner : Finds r sub pointee f) :
      Finds r (.deref span sub) ty f
  | selector {span : Span} {selector : Name} {payload : Pattern γ} {ty : TypeId} {kind : TypeKind}
      {m : Mistake} (known : r.kind? ty = some kind)
      (refused : r.alternativeTest selector kind ty span = .error m) :
      Finds r (.alternative span selector payload) ty (.mistake m)
  | payload {span : Span} {selector : Name} {payload : Pattern γ} {ty payloadTy : TypeId}
      {kind : TypeKind} {test : AlternativeTest} {f : Finding} (known : r.kind? ty = some kind)
      (test : r.alternativeTest selector kind ty span = .ok (test, payloadTy))
      (inner : Finds r payload payloadTy f) : Finds r (.alternative span selector payload) ty f
  | sequence {span : Span} {items : List (Pattern γ)} {ty : TypeId} {kind : TypeKind} {m : Mistake}
      (known : r.kind? ty = some kind) (refused : r.layout kind ty span = .error m) :
      Finds r (.sequence span items) ty (.mistake m)
  | arity {span : Span} {items : List (Pattern γ)} {ty : TypeId} {expected : Nat} :
      Finds r (.sequence span items) ty (.mistake (.arityMismatch expected items.length ty span))
  | item {span : Span} {items : List (Pattern γ)} {item : Pattern γ} {ty : TypeId}
      {parts : List PieceDef} {part : PieceDef} {f : Finding} (shown : r.Shows ty parts)
      (mem : (item, part) ∈ items.zip parts) (inner : Finds r item part.ty f) :
      Finds r (.sequence span items) ty f
  | fields {span : Span} {entries : List (FieldEntry (Pattern γ))} {ty : TypeId} {kind : TypeKind}
      {m : Mistake} (known : r.kind? ty = some kind) (refused : r.layout kind ty span = .error m) :
      Finds r (.fields span entries) ty (.mistake m)
  /-- An entry has the name of one before it. -/
  | listedTwice {span : Span} {before after : List (FieldEntry (Pattern γ))}
      {first again : FieldEntry (Pattern γ)} {ty : TypeId} (mem : first ∈ before)
      (same : first.name = again.name) :
      Finds r (.fields span (before ++ again :: after)) ty
        (.mistake (.listedTwice again.name again.span first.span))
  | unknownField {span : Span} {entries : List (FieldEntry (Pattern γ))}
      {e : FieldEntry (Pattern γ)} {ty : TypeId} (mem : e ∈ entries) :
      Finds r (.fields span entries) ty (.mistake (.unknownField e.name ty e.span))
  | entry {span : Span} {entries : List (FieldEntry (Pattern γ))} {e : FieldEntry (Pattern γ)}
      {ty : TypeId} {parts : List PieceDef} {part : PieceDef} {f : Finding}
      (shown : r.Shows ty parts) (mem : e ∈ entries) (part_mem : part ∈ parts)
      (inner : Finds r e.pattern part.ty f) : Finds r (.fields span entries) ty f
  | guarded {span : Span} {sub : Pattern γ} {guard : γ} {ty : TypeId} {f : Finding}
      (inner : Finds r sub ty f) : Finds r (.guarded span sub guard) ty f

variable {r : Registry} {ty : TypeId} {f : Finding}

theorem exists_of_mem_draftItems {items : List (Pattern γ)} {parts : List PieceDef}
    (h : f ∈ (draftItems r items (parts.map (·.ty))).2) :
    ∃ item part, (item, part) ∈ items.zip parts ∧ f ∈ (item.draft r part.ty).findings := by
  rw [draftItems_eq] at h
  dsimp only at h
  rw [List.zipWith_map_right, ← List.map_uncurry_zip_eq_zipWith] at h
  obtain ⟨findings, hfindings, hf⟩ := List.mem_flatten.mp h
  obtain ⟨⟨item, part⟩, hmem, rfl⟩ := List.mem_map.mp hfindings
  exact ⟨item, part, hmem, hf⟩

/-- The entries are those after `before`, of which each that was seen is one. -/
theorem finds_of_mem_draftEntries {span : Span} {layout : Layout}
    (before : List (FieldEntry (Pattern γ))) {entries : List (FieldEntry (Pattern γ))}
    {seen : List (Name × Span)}
    (shown : r.Shows ty layout.parts)
    (hseen : ∀ x ∈ seen, ∃ e ∈ before, e.name = x.1 ∧ e.span = x.2)
    (ih : ∀ e ∈ entries, ∀ ty, f ∈ (e.pattern.draft r ty).findings → Finds r e.pattern ty f)
    (h : f ∈ (draftEntries r layout ty seen entries).2) :
    Finds r (.fields span (before ++ entries)) ty f := by
  induction entries generalizing before seen with
  | nil =>
      rw [draftEntries] at h
      cases h
  | cons e es ihEntries =>
      obtain ⟨name, p, place⟩ := e
      rw [List.forall_mem_cons] at ih
      have hsplit : before ++ ⟨name, p, place⟩ :: es = (before ++ [⟨name, p, place⟩]) ++ es := by
        simp
      have hrest {seen : List (Name × Span)}
          (hseen : ∀ x ∈ seen, ∃ e ∈ before ++ [⟨name, p, place⟩], e.name = x.1 ∧ e.span = x.2)
          (h : f ∈ (draftEntries r layout ty seen es).2) :
          Finds r (.fields span (before ++ ⟨name, p, place⟩ :: es)) ty f := by
        rw [hsplit]
        exact ihEntries _ hseen ih.2 h
      have hbefore : ∀ x ∈ seen,
          ∃ e ∈ before ++ [⟨name, p, place⟩], e.name = x.1 ∧ e.span = x.2 := by
        intro x hx
        obtain ⟨e, he, hsame⟩ := hseen x hx
        exact ⟨e, List.mem_append_left _ he, hsame⟩
      have hmem : (⟨name, p, place⟩ : FieldEntry (Pattern γ)) ∈ before ++ ⟨name, p, place⟩ :: es := by
        simp
      rw [draftEntries] at h
      split at h
      · next first hfirst =>
          rcases List.mem_cons.mp h with rfl | h
          · obtain ⟨l₁, l₂, hseenSplit, -⟩ := List.lookup_eq_some_iff.mp hfirst
            obtain ⟨e, he, hname, rfl⟩ := hseen (name, first) (by simp [hseenSplit])
            exact .listedTwice he hname
          · exact hrest hbefore h
      · have hcons : ∀ x ∈ (name, place) :: seen,
            ∃ e ∈ before ++ [⟨name, p, place⟩], e.name = x.1 ∧ e.span = x.2 :=
          List.forall_mem_cons.mpr ⟨⟨⟨name, p, place⟩, by simp, rfl, rfl⟩, hbefore⟩
        cases hslot : layout.find? name with
        | none =>
            rw [hslot] at h
            rcases List.mem_cons.mp h with rfl | h
            · exact .unknownField hmem
            · exact hrest hcons h
        | some slot =>
            rw [hslot] at h
            rcases List.mem_append.mp h with h | h
            · obtain ⟨part, hpart, hty⟩ := Layout.part_of_find? hslot
              refine .entry shown hmem (List.mem_of_find?_eq_some hpart) ?_
              rw [hty]
              exact ih.1 slot.2 h
            · exact hrest hcons h

theorem finds_of_mistaken {p : Pattern γ} {m : Mistake}
    (h : f ∈ (Draft.mistaken m : Draft γ).findings) (hm : Finds r p ty (.mistake m)) :
    Finds r p ty f := by
  rw [List.mem_singleton.mp h]
  exact hm

/-- Nothing is found but by one of the rules. -/
theorem finds_of_mem_draft {p : Pattern γ} {ty : TypeId} (h : f ∈ (p.draft r ty).findings) :
    Finds r p ty f := by
  induction p using Pattern.induct generalizing ty with
  | wildcard span =>
      unfold draft at h
      split at h
      · next hkind => exact finds_of_mistaken h (.unknown hkind)
      · cases h
  | literal span value =>
      unfold draft at h
      split at h
      · next hkind => exact finds_of_mistaken h (.unknown hkind)
      · next kind hkind =>
          dsimp only at h
          split at h
          · cases h
          · next hrefused => exact finds_of_mistaken h (.literal hkind hrefused)
  | binding span name sub ih =>
      unfold draft at h
      split at h
      · next hkind => exact finds_of_mistaken h (.unknown hkind)
      · next kind hkind =>
          rcases List.mem_cons.mp h with rfl | h
          · exact .binder
          · exact .binding hkind (ih h)
  | null span =>
      unfold draft at h
      split at h
      · next hkind => exact finds_of_mistaken h (.unknown hkind)
      · dsimp only at h
        split at h
        · cases h
        · exact finds_of_mistaken h .null
  | deref span sub ih =>
      unfold draft at h
      split at h
      · next hkind => exact finds_of_mistaken h (.unknown hkind)
      · next hkind =>
          dsimp only at h
          split at h
          · exact .pointee hkind (ih h)
          · exact finds_of_mistaken h .dereference
  | alternative span selector payload ih =>
      unfold draft at h
      split at h
      · next hkind => exact finds_of_mistaken h (.unknown hkind)
      · next kind hkind =>
          dsimp only at h
          split at h
          · next htest => exact .payload hkind htest (ih h)
          · next hrefused => exact finds_of_mistaken h (.selector hkind hrefused)
  | sequence span items ih =>
      unfold draft at h
      split at h
      · next hkind => exact finds_of_mistaken h (.unknown hkind)
      · next kind hkind =>
          dsimp only at h
          split at h
          · next layout hlayout =>
              split at h
              · obtain ⟨item, part, hmem, hf⟩ := exists_of_mem_draftItems h
                have hshown := (Registry.shows_iff span).mpr ⟨kind, layout, hkind, hlayout, rfl⟩
                exact .item hshown hmem (ih item (List.of_mem_zip hmem).1 hf)
              · exact finds_of_mistaken h .arity
          · next hrefused => exact finds_of_mistaken h (.sequence hkind hrefused)
  | fields span entries ih =>
      unfold draft at h
      split at h
      · next hkind => exact finds_of_mistaken h (.unknown hkind)
      · next kind hkind =>
          dsimp only at h
          split at h
          · next layout hlayout =>
              have hshown := (Registry.shows_iff span).mpr ⟨kind, layout, hkind, hlayout, rfl⟩
              exact finds_of_mem_draftEntries [] hshown (by simp) (fun e he ty => ih e he) h
          · next hrefused => exact finds_of_mistaken h (.fields hkind hrefused)
  | guarded span sub guard ih =>
      unfold draft at h
      split at h
      · next hkind => exact finds_of_mistaken h (.unknown hkind)
      · exact .guarded (ih h)

end Pattern

namespace Finding

/-- Mistakes that were met are reported, whatever was bound before. -/
theorem mem_mistakesAfter_of_mem {findings : List Finding} (bound : List (Name × Span)) {m : Mistake}
    (h : .mistake m ∈ findings) : m ∈ mistakesAfter bound findings := by
  induction findings generalizing bound with
  | nil => cases h
  | cons finding rest ih =>
      cases finding with
      | mistake m' =>
          rcases List.mem_cons.mp h with heq | h
          · cases heq
            exact List.mem_cons_self
          · exact List.mem_cons_of_mem _ (ih bound h)
      | binder name span =>
          have hrest : .mistake m ∈ rest := by simpa using h
          rw [mistakesAfter]
          split
          · exact List.mem_cons_of_mem _ (ih bound hrest)
          · exact ih _ hrest

/-- What is reported was met as a mistake, or is an identifier that was bound before, among `bound`
or earlier in the findings. -/
theorem mem_mistakesAfter {findings : List Finding} {bound : List (Name × Span)} {m : Mistake}
    (h : m ∈ mistakesAfter bound findings) : .mistake m ∈ findings ∨
      ∃ name again first before after, m = .boundTwice name again first ∧
        findings = before ++ .binder name again :: after ∧
          (.binder name first ∈ before ∨ (name, first) ∈ bound) := by
  induction findings generalizing bound with
  | nil => cases h
  | cons finding rest ih =>
      have hrest {bound' : List (Name × Span)} (h : m ∈ mistakesAfter bound' rest)
          (hbound : ∀ name first, (name, first) ∈ bound' →
            finding = .binder name first ∨ (name, first) ∈ bound) :
          .mistake m ∈ finding :: rest ∨
            ∃ name again first before after, m = .boundTwice name again first ∧
              finding :: rest = before ++ .binder name again :: after ∧
                (.binder name first ∈ before ∨ (name, first) ∈ bound) := by
        rcases ih h with hmem | ⟨name, again, first, before, after, rfl, rfl, hfirst⟩
        · exact .inl (List.mem_cons_of_mem _ hmem)
        · refine .inr ⟨name, again, first, finding :: before, after, rfl, rfl, ?_⟩
          rcases hfirst with hfirst | hfirst
          · exact .inl (List.mem_cons_of_mem _ hfirst)
          · rcases hbound name first hfirst with rfl | hfirst
            · exact .inl List.mem_cons_self
            · exact .inr hfirst
      cases finding with
      | mistake m' =>
          rcases List.mem_cons.mp h with rfl | h
          · exact .inl List.mem_cons_self
          · exact hrest h fun _ _ => .inr
      | binder name span =>
          rw [mistakesAfter] at h
          split at h
          · next first hfirst =>
              rcases List.mem_cons.mp h with rfl | h
              · obtain ⟨l₁, l₂, hsplit, -⟩ := List.lookup_eq_some_iff.mp hfirst
                exact .inr ⟨name, span, first, [], rest, rfl, rfl, .inr (by simp [hsplit])⟩
              · exact hrest h fun _ _ => .inr
          · refine hrest h fun other first hmem => ?_
            rcases List.mem_cons.mp hmem with heq | hmem
            · cases heq
              exact .inl rfl
            · exact .inr hmem

end Finding

end TaggedMatch
