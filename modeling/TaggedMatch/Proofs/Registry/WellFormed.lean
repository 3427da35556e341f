import TaggedMatch.Proofs.Registry.Indexes
import TaggedMatch.Proofs.Registry.Validity

/-!
# Which histories are valid

Validation sees a registry and not how it came about, but what it asks is about the history: that no
name was declared twice, that every body was aimed at a type that still waited for one, and that the
declarations are as they should be in the end. The first two are what was recorded. A fault is
recorded exactly when an operation is not accepted where the registry stands (`Effect.recorded`), and
the index of names, which the registry asks, has a name just if the history declared it before.
-/

namespace TaggedMatch.Registry

/-- Names are declared once, bodies are aimed at types that wait for them, and nothing is wrong with
any type in the end. -/
structure WellFormed (history : List Operation) : Prop where
  names : (history.filterMap Operation.declares?).Nodup
  aims : ∀ operation r ty, Happens history operation r → operation.target? = some ty →
    r.kind? ty = some .declared
  types : ∀ ty kind, (fresh.run history).kind? ty = some kind → (fresh.run history).Approves kind

theorem mem_filterMap_declares?_iff {history : List Operation} {s : String} :
    s ∈ history.filterMap Operation.declares? ↔ ∃ ty, DeclaredUnder history ty s := by
  rw [List.mem_filterMap]
  constructor
  · rintro ⟨operation, hmem, hs⟩
    obtain ⟨before, after, hsplit⟩ := List.append_of_mem hmem
    exact ⟨_, operation, _, ⟨before, after, hsplit, rfl⟩, hs, rfl⟩
  · rintro ⟨ty, operation, r, ⟨before, after, hsplit, -⟩, hs, -⟩
    exact ⟨operation, by simp [hsplit], hs⟩

/-- An operation is accepted just if it declares no name of before and is aimed at no type that does
not wait. -/
theorem accepts_run_iff {history : List Operation} {operation : Operation} :
    (fresh.run history).Accepts operation ↔
      (∀ s, operation.declares? = some s → s ∉ history.filterMap Operation.declares?) ∧
        ∀ ty, operation.target? = some ty → (fresh.run history).kind? ty = some .declared := by
  have hfree (s : String) : (fresh.run history).nominal.lookup ((fresh.run history).intern s).1 =
      none ↔ s ∉ history.filterMap Operation.declares? := by
    rw [mem_filterMap_declares?_iff, not_exists]
    exact byName_run_eq_none_iff
  simp only [Accepts, hfree]

theorem nodup_append_toList_iff {α : Type} {l : List α} {o : Option α} :
    (l ++ o.toList).Nodup ↔ l.Nodup ∧ ∀ a, o = some a → a ∉ l := by
  cases o with
  | none => simp
  | some a =>
      rw [Option.toList_some, List.nodup_append_comm, List.singleton_append, List.nodup_cons]
      simp [and_comm]

/-- Nothing is recorded just if every operation was in order when it was applied. -/
theorem recorded_run_eq_nil_iff {history : List Operation} :
    (fresh.run history).recorded = [] ↔
      (history.filterMap Operation.declares?).Nodup ∧
        ∀ operation r ty, Happens history operation r → operation.target? = some ty →
          r.kind? ty = some .declared := by
  induction history using List.reverseRecOn with
  | nil =>
      refine ⟨fun _ => ⟨List.nodup_nil, ?_⟩, fun _ => rfl⟩
      rintro operation r ty ⟨before, after, hsplit, -⟩
      cases (List.append_eq_nil_iff.mp hsplit.symm).2
  | append_singleton history last ih =>
      obtain ⟨faults, hrecorded, hnone⟩ := ((fresh.run history).apply_effect last).recorded
      have hlast : fresh.run (history ++ [last]) = (fresh.run history).apply last :=
        run_append fresh history [last]
      have hdeclares : (history ++ [last]).filterMap Operation.declares? =
          history.filterMap Operation.declares? ++ last.declares?.toList := by
        rw [List.filterMap_append]
        cases h : last.declares? <;> simp [h]
      rw [hlast, hrecorded, List.append_eq_nil_iff, hnone, ih, accepts_run_iff, hdeclares,
        nodup_append_toList_iff]
      simp only [happens_concat]
      constructor
      · rintro ⟨⟨hnames, haims⟩, hnew, hwaits⟩
        refine ⟨⟨hnames, hnew⟩, ?_⟩
        rintro operation r ty (h | ⟨rfl, rfl⟩) htarget
        · exact haims operation r ty h htarget
        · exact hwaits ty htarget
      · rintro ⟨⟨hnames, hnew⟩, haims⟩
        exact ⟨⟨hnames, fun operation r ty h => haims operation r ty (.inl h)⟩, hnew,
          fun ty => haims last _ ty (.inr ⟨rfl, rfl⟩)⟩

/-- The registry of a history is valid just if the history is well-formed. -/
theorem isValid_run_iff (history : List Operation) :
    (fresh.run history).isValid = true ↔ WellFormed history := by
  rw [isValid_iff, recorded_run_eq_nil_iff]
  constructor
  · rintro ⟨⟨names, aims⟩, types⟩
    exact ⟨names, aims, types⟩
  · rintro ⟨names, aims, types⟩
    exact ⟨⟨names, aims⟩, types⟩

/-- A list type that refers to itself through a pointer is well-formed, declared twice it is not. -/
theorem wellFormed_list :
    let history : List Operation := [.declareAt "List" Span.dummy, .pointer ⟨5⟩,
      .tuple [TypeId.int, ⟨6⟩], .fallbackTo "Nil",
      .defineUnion ⟨5⟩ [("Nil", TypeId.unit), ("Cons", ⟨7⟩)] (.fallbackToEmpty ⟨2⟩)]
    WellFormed history ∧ ¬ WellFormed (history ++ [.declareAt "List" Span.dummy]) := by
  intro history
  refine ⟨(isValid_run_iff history).mp (by with_unfolding_all rfl), fun h => ?_⟩
  have hvalid := (isValid_run_iff _).mpr h
  have hinvalid : (fresh.run (history ++ [.declareAt "List" Span.dummy])).isValid = false := by
    with_unfolding_all rfl
  cases hvalid.symm.trans hinvalid

end TaggedMatch.Registry
