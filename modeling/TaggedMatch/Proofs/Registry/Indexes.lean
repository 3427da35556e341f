import TaggedMatch.Proofs.Registry.Operations

/-!
# The indexes agree with the entries

Two types are the same just if their ids are, so there must not be two entries of one shape. What
keeps them apart is an index, asked before an entry is added; so the index of tuples, and that of
pointers, has to list exactly the entries of its kind (`Lists`), at any time. Issuing, declaring and
defining add no entry of a shape that exists, and the one operation that does adds to the index what
it adds to the entries.

The index of names is another matter: it has the first id under each name only. It is sound because
ids are issued upwards, and a name that is listed is not listed again.
-/

namespace TaggedMatch.Registry

variable {r r' : Registry} {ty : TypeId}

theorem kind?_size (r : Registry) : r.kind? ⟨r.size⟩ = none := by
  rw [kind?, find?_size]
  rfl

/-! ## Shapes -/

section Shapes

variable {α : Type} [BEq α] [LawfulBEq α] {shape : α → TypeKind} {index : List (α × TypeId)}

/-- The index has exactly the entries of these shapes. -/
def Lists (r : Registry) (shape : α → TypeKind) (index : List (α × TypeId)) : Prop :=
  ∀ a ty, index.lookup a = some ty ↔ r.kind? ty = some (shape a)

omit [LawfulBEq α] in
theorem Lists.of_same (h : r.Lists shape index)
    (same : ∀ ty a, r'.kind? ty = some (shape a) ↔ r.kind? ty = some (shape a)) :
    r'.Lists shape index :=
  fun a ty => (h a ty).trans (same ty a).symm

/-- What is put at the end of an index is found where nothing was found before. -/
theorem lookup_concat_eq_some_iff {a b : α} {new ty : TypeId} :
    (index ++ [(a, new)]).lookup b = some ty ↔
      index.lookup b = some ty ∨ index.lookup b = none ∧ b = a ∧ new = ty := by
  rw [List.lookup_append, Option.or_eq_some_iff, List.lookup_cons]
  by_cases hb : b = a
  · simp [hb]
  · have hne : (b == a) = false := by simpa using hb
    simp [hb, hne]

/-- An entry is added with a shape that was not listed. -/
theorem Lists.issue (h : r.Lists shape index) (injective : ∀ a b, shape a = shape b → a = b) {a : α}
    (hnew : index.lookup a = none)
    (added : ∀ ty, r'.kind? ty = if ty = ⟨r.size⟩ then some (shape a) else r.kind? ty) :
    r'.Lists shape (index ++ [(a, ⟨r.size⟩)]) := by
  intro b ty
  rw [lookup_concat_eq_some_iff, h b ty, added]
  by_cases hty : ty = ⟨r.size⟩
  · rw [if_pos hty, hty, kind?_size]
    constructor
    · rintro (hb | ⟨-, rfl, -⟩)
      · cases hb
      · rfl
    · intro hb
      cases injective a b (Option.some.inj hb)
      exact .inr ⟨hnew, rfl, rfl⟩
  · rw [if_neg hty]
    constructor
    · rintro (hb | ⟨-, -, hsize⟩)
      · exact hb
      · exact absurd hsize.symm hty
    · exact .inl

end Shapes

theorem kind?_push (r : Registry) (entry : TypeEntry) (ty : TypeId) :
    (r.push entry).2.kind? ty = if ty = ⟨r.size⟩ then some entry.kind else r.kind? ty := by
  have hfst : (r.push entry).1 = ⟨r.size⟩ := rfl
  rw [kind?, find?_push, hfst, kind?]
  split <;> rfl

/-- An entry of another kind is no entry of this one. -/
theorem kind?_push_ne {entry : TypeEntry} {kind : TypeKind} (h : entry.kind ≠ kind) :
    (r.push entry).2.kind? ty = some kind ↔ r.kind? ty = some kind := by
  rw [kind?_push]
  split
  · next hty =>
      rw [hty, kind?_size]
      simp [h]
  · rfl

theorem kind?_declareAt_structural {name : String} {span : Span} {kind : TypeKind}
    (h : ¬ IsNominal kind) :
    (r.declareAt name span).2.kind? ty = some kind ↔ r.kind? ty = some kind := by
  rw [kind?, find?_declareAt, kind?]
  split
  · next hty =>
      subst hty
      rw [find?_size]
      constructor
      · intro hkind
        cases hkind
        exact absurd trivial h
      · intro hkind
        cases hkind
  · rfl

theorem kind?_define_structural {target : TypeId} {body kind : TypeKind} (hbody : IsNominal body)
    (h : ¬ IsNominal kind) :
    (r.define target body).kind? ty = some kind ↔ r.kind? ty = some kind := by
  by_cases hkind : r.kind? target = some .declared
  · rw [kind?_define hkind]
    split
    · next hty =>
        subst hty
        rw [hkind]
        constructor
        · intro heq
          cases heq
          exact absurd hbody h
        · intro heq
          cases heq
          exact absurd trivial h
    · rfl
  · rw [define_refused hkind]
    rfl

/-! ## Names -/

theorem Named.index_lt {n : Name} (h : r.Named ty n) : ty.index < r.size := by
  obtain ⟨entry, hentry, -, -⟩ := h
  exact (Array.getElem?_eq_some_iff.mp hentry).1

/-- The index of names has the first type of each name that was declared. -/
structure ListsNames (r : Registry) : Prop where
  first : ∀ n ty, r.nominal.lookup n = some ty →
    r.Named ty n ∧ ∀ other, r.Named other n → ty.index ≤ other.index
  listed : ∀ n ty, r.Named ty n → ∃ first, r.nominal.lookup n = some first

theorem ListsNames.of_same (h : r.ListsNames) (hnominal : r'.nominal = r.nominal)
    (same : ∀ ty n, r'.Named ty n ↔ r.Named ty n) : r'.ListsNames := by
  refine ⟨fun n ty hty => ?_, fun n ty hty => ?_⟩
  · rw [hnominal] at hty
    obtain ⟨hnamed, hfirst⟩ := h.first n ty hty
    exact ⟨(same ty n).mpr hnamed, fun other hother => hfirst other ((same other n).mp hother)⟩
  · rw [hnominal]
    exact h.listed n ty ((same ty n).mp hty)

/-- A declaration leaves an id that is listed the first of its name. -/
theorem ListsNames.first_declareAt (h : r.ListsNames) {n : Name} (hty : r.nominal.lookup n = some ty)
    (name : String) (span : Span) :
    (r.declareAt name span).2.Named ty n ∧
      ∀ other, (r.declareAt name span).2.Named other n → ty.index ≤ other.index := by
  obtain ⟨hnamed, hfirst⟩ := h.first n ty hty
  refine ⟨named_declareAt.mpr (.inr hnamed), fun other hother => ?_⟩
  rcases named_declareAt.mp hother with ⟨rfl, -⟩ | hother
  · exact Nat.le_of_lt hnamed.index_lt
  · exact hfirst other hother

/-- A declaration lists its id if it is the first of its name, and else nothing. -/
theorem ListsNames.declareAt (h : r.ListsNames) (name : String) (span : Span) :
    (r.declareAt name span).2.ListsNames := by
  cases hlookup : r.nominal.lookup (r.intern name).1 with
  | some taken =>
      have hnominal : (r.declareAt name span).2.nominal = r.nominal := by
        obtain ⟨fault, heq⟩ := declareAt_taken hlookup span
        rw [heq]
        rfl
      refine ⟨fun n ty hty => ?_, fun n ty hty => ?_⟩
      · exact h.first_declareAt (by rw [← hnominal, hty]) name span
      · rw [hnominal]
        rcases named_declareAt.mp hty with ⟨-, rfl⟩ | hty
        · exact ⟨taken, hlookup⟩
        · exact h.listed n ty hty
  | none =>
      have hnominal : (r.declareAt name span).2.nominal =
          r.nominal ++ [((r.intern name).1, ⟨r.size⟩)] := by rw [declareAt_new hlookup]
      refine ⟨fun n ty hty => ?_, fun n ty hty => ?_⟩
      · rw [hnominal, lookup_concat_eq_some_iff] at hty
        rcases hty with hty | ⟨-, rfl, rfl⟩
        · exact h.first_declareAt hty name span
        · refine ⟨named_declareAt.mpr (.inl ⟨rfl, rfl⟩), fun other hother => ?_⟩
          rcases named_declareAt.mp hother with ⟨rfl, -⟩ | hother
          · exact Nat.le_refl _
          · obtain ⟨first, hfirst⟩ := h.listed _ other hother
            cases hlookup.symm.trans hfirst
      · rw [hnominal]
        rcases named_declareAt.mp hty with ⟨-, rfl⟩ | hty
        · exact ⟨_, lookup_concat_eq_some_iff.mpr (.inr ⟨hlookup, rfl, rfl⟩)⟩
        · obtain ⟨first, hfirst⟩ := h.listed n ty hty
          exact ⟨first, lookup_concat_eq_some_iff.mpr (.inl hfirst)⟩

/-! ## All three indexes -/

/-- The indexes of a registry agree with its entries. -/
structure Indexed (r : Registry) : Prop where
  tuples : r.Lists .tuple r.tuples
  pointers : r.Lists .pointer r.pointers
  names : r.ListsNames

theorem indexed_fresh : fresh.Indexed := by
  have hkind {ty kind} (h : fresh.kind? ty = some kind) :
      kind ∈ [.int, .bool, .char, .str, TypeKind.unit] := by
    obtain ⟨entry, hentry, rfl⟩ := kind?_eq_some_iff.mp h
    have hmem : entry ∈ fresh.entries := Array.mem_of_getElem? hentry
    have hall : ∀ entry ∈ fresh.entries,
        entry.kind ∈ [.int, .bool, .char, .str, TypeKind.unit] := by
      simp [fresh, initial]
    exact hall entry hmem
  refine ⟨fun elements ty => ⟨fun h => ?_, fun h => ?_⟩,
    fun pointee ty => ⟨fun h => ?_, fun h => ?_⟩, fun n ty h => ?_, ?_⟩
  · cases h
  · simpa using hkind h
  · cases h
  · simpa using hkind h
  · cases h
  · rintro n ty ⟨entry, hentry, hnominal, -⟩
    have hmem := hkind (kind?_eq_some_iff.mpr ⟨entry, hentry, rfl⟩)
    simp only [List.mem_cons, List.not_mem_nil, or_false] at hmem
    rcases hmem with h | h | h | h | h <;> simp [h, IsNominal] at hnominal

theorem indexes_declareAt (r : Registry) (name : String) (span : Span) :
    (r.declareAt name span).2.tuples = r.tuples ∧
      (r.declareAt name span).2.pointers = r.pointers := by
  simp only [declareAt, intern, push]
  split <;> exact ⟨rfl, rfl⟩

theorem indexes_define (r : Registry) (target : TypeId) (body : TypeKind) :
    (r.define target body).tuples = r.tuples ∧ (r.define target body).pointers = r.pointers ∧
      (r.define target body).nominal = r.nominal := by
  by_cases h : r.kind? target = some .declared
  · obtain ⟨entries, heq⟩ := define_taken h body
    rw [heq]
    exact ⟨rfl, rfl, rfl⟩
  · rw [define_refused h]
    exact ⟨rfl, rfl, rfl⟩

theorem Move.indexed (h : Move r r') (hr : r.Indexed) : r'.Indexed := by
  cases h with
  | intern s => exact ⟨hr.tuples, hr.pointers, hr.names.of_same rfl fun _ _ => Iff.rfl⟩
  | declare name span =>
      obtain ⟨htuples, hpointers⟩ := r.indexes_declareAt name span
      refine ⟨?_, ?_, hr.names.declareAt name span⟩
      · rw [htuples]
        exact hr.tuples.of_same fun _ _ => kind?_declareAt_structural id
      · rw [hpointers]
        exact hr.pointers.of_same fun _ _ => kind?_declareAt_structural id
  | define target body owner =>
      have hbody := isNominal_of_owner owner
      obtain ⟨htuples, hpointers, hnominal⟩ := r.indexes_define target body
      refine ⟨?_, ?_, hr.names.of_same hnominal fun _ _ => named_define hbody⟩
      · rw [htuples]
        exact hr.tuples.of_same fun _ _ => kind?_define_structural hbody id
      · rw [hpointers]
        exact hr.pointers.of_same fun _ _ => kind?_define_structural hbody id
  | tuple elements =>
      rw [Registry.tuple]
      split
      · exact hr
      · next hnew =>
          refine ⟨?_, ?_, hr.names.of_same rfl fun _ _ => named_push _ id⟩
          · exact hr.tuples.issue (fun _ _ => TypeKind.tuple.inj) hnew (kind?_push r _)
          · exact hr.pointers.of_same fun _ _ => kind?_push_ne (by simp)
  | pointer pointee =>
      rw [Registry.pointer]
      split
      · exact hr
      · next hnew =>
          refine ⟨?_, ?_, hr.names.of_same rfl fun _ _ => named_push _ id⟩
          · exact hr.tuples.of_same fun _ _ => kind?_push_ne (by simp)
          · exact hr.pointers.issue (fun _ _ => TypeKind.pointer.inj) hnew (kind?_push r _)

theorem Reachable.indexed (h : r.Reachable) : r.Indexed :=
  h.induct indexed_fresh fun _ _ hr hmove => hmove.indexed hr

/-- A tuple type is one of these elements. -/
theorem Indexed.kind?_tuple (h : r.Indexed) (elements : List TypeId) :
    (r.tuple elements).2.kind? (r.tuple elements).1 = some (.tuple elements) := by
  rw [tuple]
  split
  · next hlisted => exact (h.tuples elements _).mp hlisted
  · exact (kind?_push r ⟨Name.empty, .tuple elements, Span.dummy⟩ _).trans (if_pos rfl)

/-! ## What the indexes are for -/

/-- Every shape of this form is that of one type at most, and `make` gives this type. -/
structure MakesOnce {α : Type} [BEq α] (r : Registry) (shape : α → TypeKind)
    (index : List (α × TypeId)) (make : α → TypeId × Registry) : Prop where
  unique : ∀ a ty ty', r.kind? ty = some (shape a) → r.kind? ty' = some (shape a) → ty = ty'
  listed : ∀ a ty, index.lookup a = some ty ↔ r.kind? ty = some (shape a)
  found : ∀ a ty, r.kind? ty = some (shape a) → make a = (ty, r)
  unchanged : ∀ a, (make a).2 = r ↔ ∃ ty, r.kind? ty = some (shape a)
  issued : ∀ a, (∀ ty, r.kind? ty ≠ some (shape a)) → (make a).1 = ⟨r.size⟩ ∧
    (make a).2.entries = r.entries.push ⟨Name.empty, shape a, Span.dummy⟩

theorem Lists.makesOnce {α : Type} [BEq α] {shape : α → TypeKind} {index : List (α × TypeId)}
    {make : α → TypeId × Registry} (h : r.Lists shape index)
    (known : ∀ a ty, index.lookup a = some ty → make a = (ty, r))
    (new : ∀ a, index.lookup a = none → (make a).1 = ⟨r.size⟩ ∧
      (make a).2.entries = r.entries.push ⟨Name.empty, shape a, Span.dummy⟩) :
    MakesOnce r shape index make := by
  have hfound (a : α) (ty : TypeId) (hkind : r.kind? ty = some (shape a)) : make a = (ty, r) :=
    known a ty ((h a ty).mpr hkind)
  have hnone (a : α) (hkind : ∀ ty, r.kind? ty ≠ some (shape a)) : index.lookup a = none := by
    cases hlookup : index.lookup a with
    | none => rfl
    | some ty => exact absurd ((h a ty).mp hlookup) (hkind ty)
  refine ⟨fun a ty ty' hty hty' => ?_, h, hfound, fun a => ⟨fun hsame => ?_, ?_⟩, ?_⟩
  · exact Option.some.inj (((h a ty).mpr hty).symm.trans ((h a ty').mpr hty'))
  · by_contra hkind
    have hentries := (new a (hnone a fun ty hty => hkind ⟨ty, hty⟩)).2
    have hsize := congrArg Array.size hentries
    rw [hsame, Array.size_push] at hsize
    omega
  · rintro ⟨ty, hkind⟩
    rw [hfound a ty hkind]
  · exact fun a hkind => new a (hnone a hkind)

/-- In a registry that operations lead to, the name of a declared type is the name of its text. -/
theorem Reachable.intern_eq_iff (h : r.Reachable) {n : Name} (hn : r.Named ty n) {s : String} :
    (r.intern s).1 = n ↔ r.text n = s := by
  obtain ⟨entry, hentry, -, rfl⟩ := hn
  exact h.distinct.intern_eq_iff (h.namesIssued.entry hentry)

theorem byName_run_eq_some_iff {history : List Operation} {s : String} :
    ((fresh.run history).byName s).1 = some ty ↔ DeclaredUnder history ty s ∧
      ∀ other, DeclaredUnder history other s → ty.index ≤ other.index := by
  have reachable : (fresh.run history).Reachable := ⟨history, rfl⟩
  obtain ⟨hfirst, hlisted⟩ := reachable.indexed.names
  simp only [declaredUnder_iff]
  generalize fresh.run history = r at reachable hfirst hlisted
  constructor
  · intro hty
    obtain ⟨hnamed, hleast⟩ := hfirst _ ty hty
    refine ⟨⟨_, hnamed, (reachable.intern_eq_iff hnamed).mp rfl⟩, ?_⟩
    rintro other ⟨m, hm, hs⟩
    rw [← (reachable.intern_eq_iff hm).mpr hs] at hm
    exact hleast other hm
  · rintro ⟨⟨n, hnamed, hs⟩, hleast⟩
    have hn := (reachable.intern_eq_iff hnamed).mpr hs
    obtain ⟨first, hlookup⟩ := hlisted n ty hnamed
    obtain ⟨hfirstNamed, hfirstLeast⟩ := hfirst n first hlookup
    have hle := hleast first ⟨n, hfirstNamed, hs⟩
    have hge := hfirstLeast ty hnamed
    have heq : first = ty := congrArg TypeId.mk (Nat.le_antisymm hge hle)
    rw [← heq, ← hlookup, ← hn]
    rfl

theorem byName_run_eq_none_iff {history : List Operation} {s : String} :
    ((fresh.run history).byName s).1 = none ↔ ∀ ty, ¬ DeclaredUnder history ty s := by
  have reachable : (fresh.run history).Reachable := ⟨history, rfl⟩
  constructor
  · intro hnone ty hdeclared
    obtain ⟨n, hnamed, hs⟩ := declaredUnder_iff.mp hdeclared
    obtain ⟨first, hlookup⟩ := reachable.indexed.names.listed n ty hnamed
    rw [← (reachable.intern_eq_iff hnamed).mpr hs] at hlookup
    cases hnone.symm.trans hlookup
  · intro hnever
    cases hlookup : ((fresh.run history).byName s).1 with
    | none => rfl
    | some ty => exact absurd (byName_run_eq_some_iff.mp hlookup).1 (hnever ty)

/-- What can be relied on when looking types up in the registry of a history. -/
structure IndexesAgree (history : List Operation) : Prop where
  tuples : MakesOnce (fresh.run history) .tuple (fresh.run history).tuples
    (fresh.run history).tuple
  pointers : MakesOnce (fresh.run history) .pointer (fresh.run history).pointers
    (fresh.run history).pointer
  /-- A text leads to the first type that was ever declared under it. -/
  byName : ∀ s ty, ((fresh.run history).byName s).1 = some ty ↔ DeclaredUnder history ty s ∧
    ∀ other, DeclaredUnder history other s → ty.index ≤ other.index

theorem run_indexesAgree (history : List Operation) : IndexesAgree history := by
  have hindexed : (fresh.run history).Indexed := Reachable.indexed ⟨history, rfl⟩
  refine ⟨hindexed.tuples.makesOnce (fun elements ty hlookup => ?_) (fun elements hlookup => ?_),
    hindexed.pointers.makesOnce (fun pointee ty hlookup => ?_) (fun pointee hlookup => ?_),
    fun s ty => byName_run_eq_some_iff⟩
  · rw [tuple, hlookup]
  · rw [tuple, hlookup]
    exact ⟨rfl, rfl⟩
  · rw [pointer, hlookup]
  · rw [pointer, hlookup]
    exact ⟨rfl, rfl⟩

/-- A tuple type is made again, and a name declared again. -/
theorem indexesAgree_again :
    let history : List Operation := [.tuple [TypeId.int], .declareAt "Color" Span.dummy,
      .declareAt "Color" Span.dummy]
    (fresh.run history).tuple [TypeId.int] = (⟨5⟩, fresh.run history) ∧
      DeclaredUnder history ⟨6⟩ "Color" ∧
        ∀ other, DeclaredUnder history other "Color" → 6 ≤ other.index := by
  intro history
  refine ⟨(run_indexesAgree history).tuples.found [TypeId.int] ⟨5⟩ ?_,
    ((run_indexesAgree history).byName "Color" ⟨6⟩).mp ?_⟩
  · with_unfolding_all rfl
  · with_unfolding_all rfl

end TaggedMatch.Registry
