import Mathlib.Data.List.Nodup
import Mathlib.Data.List.Pairwise
import TaggedMatch.Registry.Faults

/-!
# Names that are declared twice

Enums, unions, aggregates and shapes all list names, and a name that is listed again is a fault of
the declaration. The names in question are found in one walk that puts a name down where it is met
for the second time. So each is put down once, and no other is, but their order is that of the
second occurrences: in `a b b a` it is `b` that is repeated first.

While the walk goes on, the second occurrence of a name in what is left is its second, its first or
none, by how often it was met before. This is what the induction carries
(`ordered_duplicatesAfter`).
-/

namespace TaggedMatch

variable {seen names : List Name} {n : Name}

/-! ## The walk -/

theorem mem_duplicatesAfter_iff :
    n ∈ duplicatesAfter seen names ↔ seen.count n ≤ 1 ∧ 2 ≤ seen.count n + names.count n := by
  induction names generalizing seen with
  | nil =>
      simp only [duplicatesAfter, List.not_mem_nil, List.count_nil, false_iff]
      omega
  | cons m rest ih =>
      have hrest := @ih (m :: seen)
      by_cases hsame : n = m
      · subst hsame
        simp only [List.count_cons_self] at hrest ⊢
        rw [duplicatesAfter]
        split
        · next honce =>
            simp only [List.mem_cons_self, true_iff]
            omega
        · rw [hrest]
          omega
      · have hne : m ≠ n := Ne.symm hsame
        simp only [List.count_cons_of_ne hne] at hrest ⊢
        rw [duplicatesAfter]
        split
        · rw [List.mem_cons, hrest]
          simp [hsame]
        · exact hrest

/-- How many of what is left are before the second occurrence of a name, if `seen` came before. -/
def untilRepeated (seen names : List Name) (n : Name) : Nat := names.idxOfNth n (1 - seen.count n)

theorem untilRepeated_cons {m : Name} {rest : List Name} (h : (m :: seen).count n ≤ 1) :
    untilRepeated seen (m :: rest) n = untilRepeated (m :: seen) rest n + 1 := by
  rw [untilRepeated, untilRepeated]
  by_cases hsame : m = n
  · subst hsame
    rw [List.count_cons_self] at h ⊢
    have hnone : seen.count m = 0 := by omega
    rw [hnone]
    exact List.idxOfNth_cons_succ_of_beq (beq_self_eq_true m)
  · rw [List.count_cons_of_ne hsame]
    exact List.idxOfNth_cons_of_not_beq (beq_eq_false_iff_ne.mpr hsame)

theorem ordered_duplicatesAfter (seen names : List Name) : (duplicatesAfter seen names).Pairwise
    fun a b => untilRepeated seen names a < untilRepeated seen names b := by
  induction names generalizing seen with
  | nil => exact List.Pairwise.nil
  | cons m rest ih =>
      have hlater (n) (hn : n ∈ duplicatesAfter (m :: seen) rest) :
          untilRepeated seen (m :: rest) n = untilRepeated (m :: seen) rest n + 1 :=
        untilRepeated_cons (mem_duplicatesAfter_iff.mp hn).1
      have hrest : (duplicatesAfter (m :: seen) rest).Pairwise fun a b =>
          untilRepeated seen (m :: rest) a < untilRepeated seen (m :: rest) b := by
        refine (ih (m :: seen)).imp_of_mem fun {a b} ha hb hab => ?_
        rw [hlater a ha, hlater b hb]
        exact Nat.succ_lt_succ hab
      rw [duplicatesAfter]
      split
      · next honce =>
          -- The name stands here for the second time, before all that comes later.
          have hhere : untilRepeated seen (m :: rest) m = 0 := by
            rw [untilRepeated, honce]
            exact List.idxOfNth_cons_zero_of_beq (beq_self_eq_true m)
          refine List.pairwise_cons.mpr ⟨fun n hn => ?_, hrest⟩
          rw [hhere, hlater n hn]
          exact Nat.succ_pos _
      · exact hrest

/-! ## The whole list -/

theorem mem_duplicates_iff : n ∈ duplicates names ↔ 2 ≤ names.count n := by
  rw [duplicates, mem_duplicatesAfter_iff]
  simp

theorem ordered_duplicates (names : List Name) :
    (duplicates names).Pairwise fun a b => names.idxOfNth a 1 < names.idxOfNth b 1 := by
  exact ordered_duplicatesAfter [] names

theorem nodup_duplicates (names : List Name) : (duplicates names).Nodup := by
  refine (ordered_duplicates names).imp fun {a b} hab => ?_
  rintro rfl
  exact Nat.lt_irrefl _ hab

/-- Two names that are repeated come in one order or the other. -/
theorem lt_or_lt_of_repeated {a b : Name} (ha : a ∈ names) (hne : a ≠ b) :
    names.idxOf a < names.idxOf b ∨ names.idxOf b < names.idxOf a := by
  rcases Nat.lt_trichotomy (names.idxOf a) (names.idxOf b) with hlt | heq | hgt
  · exact .inl hlt
  · exact absurd ((List.idxOf_inj ha).mp heq) hne
  · exact .inr hgt

/-- Names that are listed more than once are repeated in the order in which they are first listed.
-/
def RepeatedInOrder (names : List Name) : Prop :=
  ∀ a b, 2 ≤ names.count a → 2 ≤ names.count b → names.idxOf a < names.idxOf b →
    names.idxOfNth a 1 < names.idxOfNth b 1

/-- The names come in the order in which they are first listed just if they are repeated in it. -/
theorem firstListed_iff (names : List Name) :
    ((duplicates names).Pairwise fun a b => names.idxOf a < names.idxOf b) ↔
      RepeatedInOrder names := by
  constructor
  · intro hfirst a b ha hb
    have hforth : (duplicates names).Pairwise fun a b =>
        names.idxOf a < names.idxOf b → names.idxOfNth a 1 < names.idxOfNth b 1 := by
      refine (ordered_duplicates names).imp fun {a b} hab _ => ?_
      exact hab
    have hback : (duplicates names).Pairwise fun a b =>
        names.idxOf b < names.idxOf a → names.idxOfNth b 1 < names.idxOfNth a 1 :=
      hfirst.imp fun hab hba => absurd hab (Nat.lt_asymm hba)
    exact List.Pairwise.forall_of_forall_of_flip (fun a _ h => absurd h (Nat.lt_irrefl _)) hforth
      hback (mem_duplicates_iff.mpr ha) (mem_duplicates_iff.mpr hb)
  · intro hsame
    refine (ordered_duplicates names).imp_of_mem fun {a b} ha hb hab => ?_
    have hne : a ≠ b := by
      rintro rfl
      exact Nat.lt_irrefl _ hab
    have hcount := mem_duplicates_iff.mp ha
    have hmem : a ∈ names := List.count_pos_iff.mp (by omega)
    rcases lt_or_lt_of_repeated hmem hne with hlt | hgt
    · exact hlt
    · exact absurd (hsame b a (mem_duplicates_iff.mp hb) hcount hgt) (Nat.lt_asymm hab)

/-! ## What is reported of a declaration -/

/-- The names that a declaration lists. -/
def TypeKind.members : TypeKind → List Name
  | .enumeration d => d.constants
  | .union d => d.alternatives.map (·.name)
  | .aggregate d => d.fields.map (·.name)
  | .extension d => d.aggregate.toList.flatMap fun shape => shape.pieces.filterMap (·.label)
  | .int | .bool | .char | .str | .unit | .declared | .tuple _ | .pointer _ => []

/-- The name that was listed again, where this is what is wrong. -/
def Fault.repeated? : Fault → Option Name
  | .constantTwice name _ _ | .alternativeTwice name _ _ | .fieldTwice name _ _
  | .labelTwice name _ _ => some name
  | _ => none

/-- The codes of names that a declaration lists again. -/
def ErrorCode.ofRepetitions : List ErrorCode :=
  [.duplicateAlternative, .duplicateField, .duplicateConstant, .duplicateLabel]

theorem Fault.code_mem_ofRepetitions_iff (r : Registry) (f : Fault) :
    (f.diagnostic r).code ∈ ErrorCode.ofRepetitions ↔ f.repeated?.isSome = true := by
  cases f <;> simp [repeated?, diagnostic, Registry.ambiguousSelector, ErrorCode.ofRepetitions,
    Diagnostic.error, Diagnostic.withLabel, Diagnostic.withSecondaryLabel, Diagnostic.withNote,
    Diagnostic.withSuggestion]

namespace Registry

variable {r : Registry}

@[simp] theorem repeated_unknownAmong (types : List TypeId) (span : Span) :
    (r.unknownAmong types span).filterMap Fault.repeated? = [] := by
  simp [unknownAmong, Fault.repeated?]

theorem repeated_policyFaults (d : UnionDef) (span : Span) :
    (r.policyFaults d span).filterMap Fault.repeated? = [] := by
  rw [policyFaults]
  split
  · rfl
  · rfl
  · split
    · rfl
    · split
      · rfl
      · rfl

theorem repeated_variantAlternativeFaults (owner : Name) (shape : VariantShape) (span : Span)
    (earlier : List VariantAlternativeDef) (a : VariantAlternativeDef) :
    (r.variantAlternativeFaults owner shape span earlier a).filterMap Fault.repeated? = [] := by
  have hselector : (selectorFaults owner shape span a.selector).filterMap Fault.repeated? = [] := by
    simp only [selectorFaults]
    split
    · rfl
    · rfl
  rw [variantAlternativeFaults, List.filterMap_append, List.filterMap_append,
    repeated_unknownAmong]
  split
  · split
    · split
      · simpa using hselector
      · simpa [Fault.repeated?] using hselector
    · simpa using hselector
  · split
    · split
      · rfl
      · rfl
    · rfl

theorem repeated_variantShapeFaults (owner : Name) (shape : VariantShape) (span : Span) :
    (r.variantShapeFaults owner shape span).filterMap Fault.repeated? = [] := by
  simp [variantShapeFaults, List.filterMap_flatMap, repeated_variantAlternativeFaults]

/-- What is reported as listed again is, in the order of the report, what is listed again. -/
theorem repeated_entryFaults (r : Registry) (entry : TypeEntry) :
    (r.entryFaults entry).filterMap Fault.repeated? = duplicates entry.kind.members := by
  have hnames (names : List Name) (fault : Name → Fault)
      (h : ∀ name, (fault name).repeated? = some name) :
      ((duplicates names).map fault).filterMap Fault.repeated? = duplicates names := by
    rw [List.filterMap_map, Function.comp_def]
    simp only [h, List.filterMap_some]
  rw [entryFaults]
  cases entry.kind with
  | int | bool | char | str | unit | declared => rfl
  | tuple | pointer => exact repeated_unknownAmong ..
  | enumeration d => exact hnames _ _ fun _ => rfl
  | union d =>
      have hempty : (if d.alternatives.isEmpty then [Fault.noAlternatives d.name entry.span]
          else []).filterMap Fault.repeated? = [] := by
        split
        · rfl
        · rfl
      simp only [unionFaults, List.filterMap_append, List.filterMap_flatMap, hempty,
        repeated_unknownAmong, repeated_policyFaults,
        hnames _ (.alternativeTwice · d.name entry.span) fun _ => rfl]
      simp [TypeKind.members]
  | aggregate d =>
      simp only [aggregateFaults, List.filterMap_append, List.filterMap_flatMap,
        repeated_unknownAmong, hnames _ (.fieldTwice · d.name entry.span) fun _ => rfl]
      simp [TypeKind.members]
  | extension d =>
      simp only [extensionFaults, List.filterMap_append, List.filterMap_flatMap,
        repeated_variantShapeFaults, TypeKind.members]
      cases d.aggregate with
      | none => simp [duplicates, duplicatesAfter]
      | some shape =>
          simp [aggregateShapeFaults, hnames _ (.labelTwice · d.name entry.span) fun _ => rfl]

end Registry

/-- What is found of the names that are listed more than once: those and no others, each once, in
the order of their second occurrences. -/
structure Repeats (names found : List Name) : Prop where
  mem_iff : ∀ n, n ∈ found ↔ 2 ≤ names.count n
  nodup : found.Nodup
  ordered : found.Pairwise fun a b => names.idxOfNth a 1 < names.idxOfNth b 1

theorem repeats_duplicates (names : List Name) : Repeats names (duplicates names) :=
  ⟨fun _ => mem_duplicates_iff, nodup_duplicates names, ordered_duplicates names⟩

/-- Names that are listed more than once, in whatever list or in a declaration, are reported in the
order in which they are repeated, and in the order in which they are first listed just if that is
the same. -/
theorem repetitions_inOrder (names : List Name) (r : Registry) (entry : TypeEntry) :
    let members := entry.kind.members
    let found := (r.entryFaults entry).filterMap Fault.repeated?
    Repeats names (duplicates names) ∧
      (((duplicates names).Pairwise fun a b => names.idxOf a < names.idxOf b) ↔
        RepeatedInOrder names) ∧
      Repeats members found ∧
      ((found.Pairwise fun a b => members.idxOf a < members.idxOf b) ↔ RepeatedInOrder members) ∧
      ∀ f : Fault, (f.diagnostic r).code ∈ ErrorCode.ofRepetitions ↔ f.repeated?.isSome = true := by
  intro members found
  have hfound : found = duplicates members := Registry.repeated_entryFaults r entry
  rw [hfound]
  exact ⟨repeats_duplicates names, firstListed_iff names, repeats_duplicates members,
    firstListed_iff members, fun f => f.code_mem_ofRepetitions_iff r⟩

/-- Of two names that enclose each other, the inner one is reported first. -/
theorem inner_repetition_first :
    let names : List Name := [⟨1⟩, ⟨2⟩, ⟨2⟩, ⟨1⟩]
    duplicates names = [⟨2⟩, ⟨1⟩] ∧ names.idxOf ⟨1⟩ < names.idxOf ⟨2⟩ := by
  decide

end TaggedMatch
