import Mathlib.Data.List.Nodup
import TaggedMatch.Proofs.Registry.Growth
import TaggedMatch.Registry.Faults

/-!
# What a valid registry promises

A registry is valid when nothing is at fault: nothing was recorded on the way, and no entry has a
fault of its own. `Approves` says of each kind of type when it has none, in terms of what is
declared and not of the lists in which faults are searched: names are distinct, mentioned types
exist, a fallback has a default, selectors and discriminators come in pairs. `isValid_iff` is that
the two come to the same.

The alternatives of an extension type are checked one by one, each against those before it. The
first alternative under a selector, or with a discriminator, settles it for the others, so that what
is found comes to a statement about any two alternatives (`variantShapeFaults_eq_nil_iff`).
-/

namespace TaggedMatch

/-! ## Repeated names -/

theorem duplicatesAfter_eq_nil_iff {seen names : List Name} (hseen : seen.Nodup) :
    duplicatesAfter seen names = [] ↔ names.Nodup ∧ ∀ n ∈ names, n ∉ seen := by
  induction names generalizing seen with
  | nil => simp [duplicatesAfter]
  | cons n rest ih =>
      rw [duplicatesAfter, List.forall_mem_cons]
      by_cases hn : n ∈ seen
      · simp [hn, List.count_eq_one_of_mem hseen hn]
      · have hcount : seen.count n ≠ 1 := by simp [List.count_eq_zero_of_not_mem hn]
        rw [if_neg hcount, ih (List.nodup_cons.mpr ⟨hn, hseen⟩), List.nodup_cons]
        constructor
        · rintro ⟨hrest, hnew⟩
          refine ⟨⟨fun hmem => hnew n hmem List.mem_cons_self, hrest⟩, hn, fun m hm hmem => ?_⟩
          exact hnew m hm (List.mem_cons_of_mem n hmem)
        · rintro ⟨⟨hnotin, hrest⟩, -, hnew⟩
          refine ⟨hrest, fun m hm hmem => ?_⟩
          rcases List.mem_cons.mp hmem with rfl | hmem
          · exact hnotin hm
          · exact hnew m hm hmem

/-- No name is a duplicate just if all names differ. -/
theorem duplicates_eq_nil_iff {names : List Name} : duplicates names = [] ↔ names.Nodup := by
  rw [duplicates, duplicatesAfter_eq_nil_iff List.nodup_nil]
  simp

namespace Registry

variable {r : Registry} {ty : TypeId}

/-! ## Selectors and discriminators -/

theorem eraseDups_eq_singleton_iff {l : List Int64} {x : Int64} :
    l.eraseDups = [x] ↔ l ≠ [] ∧ ∀ y ∈ l, y = x := by
  cases l with
  | nil => simp
  | cons y l =>
      have hnil {l : List Int64} : l.eraseDups = [] ↔ l = [] := by
        cases l with
        | nil => simp
        | cons z l => simp [List.eraseDups_cons]
      rw [List.eraseDups_cons, List.cons.injEq, hnil, List.filter_eq_nil_iff,
        List.forall_mem_cons]
      simp only [ne_eq, reduceCtorEq, not_false_eq_true, true_and, Bool.not_eq_eq_eq_not,
        Bool.not_true, beq_eq_false_iff_ne, not_not]
      constructor
      · rintro ⟨rfl, h⟩
        exact ⟨rfl, h⟩
      · rintro ⟨rfl, h⟩
        exact ⟨rfl, h⟩

/-- A selector has one discriminator just if there is an alternative under it and all of them agree
with the first. -/
theorem discriminatorsFor_eq_singleton_iff {shape : VariantShape} {selector : Name} {x : Int64} :
    shape.discriminatorsFor selector = [x] ↔
      (∃ a, shape.alternatives.find? (·.selector == selector) = some a ∧ a.discriminator = x) ∧
        ∀ b ∈ shape.alternatives, b.selector = selector → b.discriminator = x := by
  rw [VariantShape.discriminatorsFor, eraseDups_eq_singleton_iff]
  simp only [ne_eq, List.map_eq_nil_iff, List.filter_eq_nil_iff, beq_iff_eq, List.forall_mem_map,
    List.forall_mem_filter]
  constructor
  · rintro ⟨hsome, hone⟩
    refine ⟨?_, hone⟩
    cases hfirst : shape.alternatives.find? (·.selector == selector) with
    | none =>
        refine absurd (fun a ha => ?_) hsome
        simpa using List.find?_eq_none.mp hfirst a ha
    | some a =>
        refine ⟨a, rfl, hone a (List.mem_of_find?_eq_some hfirst) ?_⟩
        simpa using List.find?_some hfirst
  · rintro ⟨⟨a, hfirst, -⟩, hone⟩
    refine ⟨fun hnone => ?_, hone⟩
    exact hnone a (List.mem_of_find?_eq_some hfirst) (by simpa using List.find?_some hfirst)

theorem length_eraseDups_le_one_iff {l : List Int64} :
    l.eraseDups.length ≤ 1 ↔ ∀ x ∈ l, ∀ y ∈ l, x = y := by
  cases l with
  | nil => simp
  | cons z l =>
      have hone : (z :: l).eraseDups.length ≤ 1 ↔ (z :: l).eraseDups = [z] := by
        simp [List.eraseDups_cons]
      rw [hone, eraseDups_eq_singleton_iff]
      constructor
      · rintro ⟨-, h⟩ x hx y hy
        rw [h x hx, h y hy]
      · exact fun h => ⟨List.cons_ne_nil z l, fun y hy => h y hy z List.mem_cons_self⟩

theorem length_discriminatorsFor_le_one_iff {shape : VariantShape} {selector : Name} :
    (shape.discriminatorsFor selector).length ≤ 1 ↔
      ∀ a ∈ shape.alternatives, a.selector = selector →
        ∀ b ∈ shape.alternatives, b.selector = selector → a.discriminator = b.discriminator := by
  rw [VariantShape.discriminatorsFor, length_eraseDups_le_one_iff]
  simp only [List.forall_mem_map, List.forall_mem_filter, beq_iff_eq]

theorem flatMap_zipIdx_eq_nil_iff {α β : Type} {l : List α} {f : List α → α → List β} :
    (l.zipIdx.flatMap fun (a, i) => f (l.take i) a) = [] ↔
      ∀ before a after, l = before ++ a :: after → f before a = [] := by
  rw [List.flatMap_eq_nil_iff]
  constructor
  · intro h before a after hsplit
    have hmem : (a, before.length) ∈ l.zipIdx :=
      List.mem_zipIdx_iff_getElem?.mpr (by simp [hsplit])
    simpa [hsplit] using h _ hmem
  · rintro h ⟨a, i⟩ hmem
    have hi : l[i]? = some a := List.mem_zipIdx_iff_getElem?.mp hmem
    obtain ⟨hlt, rfl⟩ := List.getElem?_eq_some_iff.mp hi
    refine h _ _ (l.drop (i + 1)) ?_
    rw [List.getElem_cons_drop, List.take_append_drop]

theorem unknownAmong_eq_nil_iff {types : List TypeId} {span : Span} :
    r.unknownAmong types span = [] ↔ ∀ ty ∈ types, r.knows ty = true := by
  simp [unknownAmong, List.filter_eq_nil_iff]

/-- Two alternatives have the same selector just if they have the same discriminator. -/
def Paired (shape : VariantShape) : Prop :=
  ∀ a ∈ shape.alternatives, ∀ b ∈ shape.alternatives,
    a.selector = b.selector ↔ a.discriminator = b.discriminator

theorem variantAlternativeFaults_eq_nil_iff {owner : Name} {shape : VariantShape} {span : Span}
    {earlier : List VariantAlternativeDef} {a : VariantAlternativeDef} :
    r.variantAlternativeFaults owner shape span earlier a = [] ↔
      r.knows a.payload = true ∧
        ((∀ b ∈ earlier, b.selector ≠ a.selector) →
          (shape.discriminatorsFor a.selector).length ≤ 1) ∧
        ∀ claimant, earlier.find? (·.discriminator == a.discriminator) = some claimant →
          claimant.selector = a.selector := by
  have hselector : (if earlier.all (·.selector != a.selector) then
      selectorFaults owner shape span a.selector else []) = [] ↔
        ((∀ b ∈ earlier, b.selector ≠ a.selector) →
          (shape.discriminatorsFor a.selector).length ≤ 1) := by
    simp [selectorFaults]
  rw [variantAlternativeFaults, List.append_eq_nil_iff, List.append_eq_nil_iff, hselector,
    unknownAmong_eq_nil_iff, List.forall_mem_singleton, and_assoc]
  cases earlier.find? (·.discriminator == a.discriminator) <;> simp

/-- Alternatives that are each at peace with those before them are paired. -/
theorem paired_of_earlier {shape : VariantShape}
    (selectors : ∀ before a after, shape.alternatives = before ++ a :: after →
      (∀ b ∈ before, b.selector ≠ a.selector) → (shape.discriminatorsFor a.selector).length ≤ 1)
    (discriminators : ∀ before a after, shape.alternatives = before ++ a :: after →
      ∀ claimant, before.find? (·.discriminator == a.discriminator) = some claimant →
        claimant.selector = a.selector) : Paired shape := by
  -- Whoever has a discriminator has the selector of the first that has it.
  have hfirst (a) (ha : a ∈ shape.alternatives) : ∃ first,
      shape.alternatives.find? (·.discriminator == a.discriminator) = some first ∧
        first.selector = a.selector := by
    obtain ⟨before, after, hsplit⟩ := List.append_of_mem ha
    rw [hsplit, List.find?_append]
    cases hclaim : before.find? (·.discriminator == a.discriminator) with
    | some claimant => exact ⟨claimant, rfl, discriminators before a after hsplit claimant hclaim⟩
    | none => exact ⟨a, by simp, rfl⟩
  intro a ha b hb
  constructor
  · intro hsame
    have hsome : (shape.alternatives.find? (·.selector == a.selector)).isSome :=
      List.find?_isSome.mpr ⟨a, ha, beq_self_eq_true _⟩
    obtain ⟨c, hc⟩ := Option.isSome_iff_exists.mp hsome
    obtain ⟨hselector, before, after, hsplit, hnone⟩ := List.find?_eq_some_iff_append.mp hc
    rw [beq_iff_eq] at hselector
    have hone := selectors before c after hsplit (by simpa [hselector] using hnone)
    exact length_discriminatorsFor_le_one_iff.mp hone a ha hselector.symm b hb
      (hsame.symm.trans hselector.symm)
  · intro hsame
    obtain ⟨first, ha', hselector⟩ := hfirst a ha
    obtain ⟨other, hb', hselector'⟩ := hfirst b hb
    rw [← hsame, ha'] at hb'
    cases hb'
    exact hselector.symm.trans hselector'

theorem variantShapeFaults_eq_nil_iff {owner : Name} {shape : VariantShape} {span : Span} :
    r.variantShapeFaults owner shape span = [] ↔
      (∀ a ∈ shape.alternatives, r.knows a.payload = true) ∧ Paired shape := by
  simp only [variantShapeFaults, flatMap_zipIdx_eq_nil_iff, variantAlternativeFaults_eq_nil_iff]
  constructor
  · intro h
    refine ⟨fun a ha => ?_, paired_of_earlier (fun before a after hsplit => ?_)
      fun before a after hsplit => ?_⟩
    · obtain ⟨before, after, hsplit⟩ := List.append_of_mem ha
      exact (h before a after hsplit).1
    · exact (h before a after hsplit).2.1
    · exact (h before a after hsplit).2.2
  · rintro ⟨hknown, hpaired⟩ before a after hsplit
    have ha : a ∈ shape.alternatives := by simp [hsplit]
    refine ⟨hknown a ha, fun _ => ?_, fun claimant hclaim => ?_⟩
    · exact length_discriminatorsFor_le_one_iff.mpr fun b hb hb' c hc hc' =>
        (hpaired b hb c hc).mp (hb'.trans hc'.symm)
    · have hmem : claimant ∈ shape.alternatives := by
        rw [hsplit]
        exact List.mem_append_left _ (List.mem_of_find?_eq_some hclaim)
      exact (hpaired claimant hmem a ha).mpr (by simpa using List.find?_some hclaim)

/-! ## What is asked of a declaration -/

/-- The alternative that a fallback goes to is declared, and its payload has a default. -/
def FallbackDeclared (r : Registry) (d : UnionDef) : Prop :=
  ∀ empty, d.policy = .fallbackToEmpty empty →
    ∃ a ∈ d.alternatives, a.name = empty ∧ r.isDefaultConstructible a.payload = true

/-- Nothing is wrong with a declaration. -/
def Approves (r : Registry) : TypeKind → Prop
  | .int | .bool | .char | .str | .unit => True
  | .declared => False
  | .enumeration d => d.constants.Nodup
  | .union d => d.alternatives ≠ [] ∧ (d.alternatives.map (·.name)).Nodup ∧
      (∀ a ∈ d.alternatives, r.knows a.payload = true) ∧ r.FallbackDeclared d
  | .aggregate d => (d.fields.map (·.name)).Nodup ∧ ∀ field ∈ d.fields, r.knows field.ty = true
  | .tuple elements => ∀ element ∈ elements, r.knows element = true
  | .pointer pointee => r.knows pointee = true
  | .extension d =>
      (∀ shape, d.aggregate = some shape →
        (shape.pieces.filterMap (·.label)).Nodup ∧
          ∀ piece ∈ shape.pieces, r.knows piece.ty = true) ∧
      ∀ shape, d.variant = some shape →
        (∀ a ∈ shape.alternatives, r.knows a.payload = true) ∧ Paired shape

/-- A fallback is looked up by its name, which is that of one alternative only. -/
theorem policyFaults_eq_nil_iff {d : UnionDef} {span : Span}
    (hnames : (d.alternatives.map (·.name)).Nodup) :
    r.policyFaults d span = [] ↔ r.FallbackDeclared d := by
  rw [policyFaults, FallbackDeclared]
  cases d.policy with
  | propagate | abort => simp
  | fallbackToEmpty empty =>
      simp only [AssignPolicy.fallbackToEmpty.injEq, forall_eq']
      cases hfirst : d.alternatives.find? (·.name == empty) with
      | none =>
          refine ⟨nofun, ?_⟩
          rintro ⟨a, ha, rfl, -⟩
          simpa using List.find?_eq_none.mp hfirst a ha
      | some first =>
          have hmem := List.mem_of_find?_eq_some hfirst
          have hname : first.name = empty := by simpa using List.find?_some hfirst
          constructor
          · intro hnone
            exact ⟨first, hmem, hname, by simpa using hnone⟩
          · rintro ⟨a, ha, haname, hdefault⟩
            cases List.inj_on_of_nodup_map hnames ha hmem (haname.trans hname.symm)
            exact if_pos hdefault

theorem unionFaults_eq_nil_iff {d : UnionDef} {span : Span} :
    r.unionFaults d span = [] ↔ r.Approves (.union d) := by
  have hempty : (if d.alternatives.isEmpty then [Fault.noAlternatives d.name span] else []) = [] ↔
      d.alternatives ≠ [] := by simp
  simp only [unionFaults, List.append_eq_nil_iff, hempty, List.map_eq_nil_iff,
    duplicates_eq_nil_iff, List.flatMap_eq_nil_iff, unknownAmong_eq_nil_iff,
    List.forall_mem_singleton, and_assoc, Approves]
  refine and_congr_right fun _ => and_congr_right fun hnames => ?_
  rw [policyFaults_eq_nil_iff hnames]

theorem aggregateFaults_eq_nil_iff {d : AggregateDef} {span : Span} :
    r.aggregateFaults d span = [] ↔ r.Approves (.aggregate d) := by
  simp only [aggregateFaults, List.append_eq_nil_iff, List.map_eq_nil_iff, duplicates_eq_nil_iff,
    List.flatMap_eq_nil_iff, unknownAmong_eq_nil_iff, List.forall_mem_singleton, Approves]

theorem extensionFaults_eq_nil_iff {d : ExtensionDef} {span : Span} :
    r.extensionFaults d span = [] ↔ r.Approves (.extension d) := by
  simp only [extensionFaults, aggregateShapeFaults, List.append_eq_nil_iff, List.map_eq_nil_iff,
    duplicates_eq_nil_iff, List.flatMap_eq_nil_iff, Option.mem_toList,
    unknownAmong_eq_nil_iff, List.forall_mem_map, variantShapeFaults_eq_nil_iff, Approves]

theorem entryFaults_eq_nil_iff {entry : TypeEntry} :
    r.entryFaults entry = [] ↔ r.Approves entry.kind := by
  rw [entryFaults]
  cases entry.kind with
  | int | bool | char | str | unit => exact ⟨fun _ => trivial, fun _ => rfl⟩
  | declared => exact ⟨nofun, False.elim⟩
  | enumeration d => exact List.map_eq_nil_iff.trans duplicates_eq_nil_iff
  | union d => exact unionFaults_eq_nil_iff
  | aggregate d => exact aggregateFaults_eq_nil_iff
  | tuple elements => exact unknownAmong_eq_nil_iff
  | pointer pointee => exact unknownAmong_eq_nil_iff.trans List.forall_mem_singleton
  | extension d => exact extensionFaults_eq_nil_iff

/-- A registry is valid just if nothing went wrong on the way and every declaration is as it should
be. -/
theorem isValid_iff :
    r.isValid = true ↔ r.recorded = [] ∧ ∀ ty kind, r.kind? ty = some kind → r.Approves kind := by
  rw [isValid, List.isEmpty_iff, faults, List.append_eq_nil_iff, List.flatMap_eq_nil_iff]
  refine and_congr_right fun _ => ?_
  simp only [entryFaults_eq_nil_iff]
  constructor
  · intro h ty kind hkind
    obtain ⟨entry, hentry, rfl⟩ := Option.map_eq_some_iff.mp hkind
    exact h entry (Array.mem_toList_iff.mpr (Array.mem_of_getElem? hentry))
  · intro h entry hentry
    obtain ⟨i, hi⟩ := List.mem_iff_getElem?.mp hentry
    have hfound : r.find? ⟨i⟩ = some entry := by simpa [find?] using hi
    exact h ⟨i⟩ entry.kind (by rw [kind?, hfound]; rfl)

/-! ## What matching relies on -/

theorem approves_of_isValid (hvalid : r.isValid = true) {kind : TypeKind}
    (hkind : r.kind? ty = some kind) : r.Approves kind :=
  (isValid_iff.mp hvalid).2 ty kind hkind

theorem nodup_constants (hvalid : r.isValid = true) {d : EnumDef}
    (hkind : r.kind? ty = some (.enumeration d)) : d.constants.Nodup :=
  approves_of_isValid hvalid hkind

theorem nodup_alternatives (hvalid : r.isValid = true) {d : UnionDef}
    (hkind : r.kind? ty = some (.union d)) : (d.alternatives.map (·.name)).Nodup :=
  (approves_of_isValid hvalid hkind).2.1

theorem nodup_fields (hvalid : r.isValid = true) {d : AggregateDef}
    (hkind : r.kind? ty = some (.aggregate d)) : (d.fields.map (·.name)).Nodup :=
  (approves_of_isValid hvalid hkind).1

theorem nodup_labels (hvalid : r.isValid = true) {d : ExtensionDef} {shape : AggregateShape}
    (hkind : r.kind? ty = some (.extension d)) (hshape : d.aggregate = some shape) :
    (shape.pieces.filterMap (·.label)).Nodup :=
  ((approves_of_isValid hvalid hkind).1 shape hshape).1

/-- The first alternative with a discriminator has the selector of all alternatives with it. -/
theorem selector_of_discriminator (hvalid : r.isValid = true) {d : ExtensionDef}
    {shape : VariantShape} (hkind : r.kind? ty = some (.extension d))
    (hshape : d.variant = some shape) {a : VariantAlternativeDef} (ha : a ∈ shape.alternatives) :
    ∃ first, shape.alternatives.find? (·.discriminator == a.discriminator) = some first ∧
      first.selector = a.selector := by
  have hpaired := ((approves_of_isValid hvalid hkind).2 shape hshape).2
  have hsome : (shape.alternatives.find? (·.discriminator == a.discriminator)).isSome :=
    List.find?_isSome.mpr ⟨a, ha, beq_self_eq_true _⟩
  obtain ⟨first, hfirst⟩ := Option.isSome_iff_exists.mp hsome
  refine ⟨first, hfirst, (hpaired first (List.mem_of_find?_eq_some hfirst) a ha).mpr ?_⟩
  simpa using List.find?_some hfirst

end Registry

end TaggedMatch
