import TaggedMatch.Proofs.Registry.History

/-!
# A registry only grows

Ids are issued one after the other and never taken back. An entry keeps its name and its place, and
it keeps its kind from the moment it has one: the only change an entry ever goes through is from
being declared to the body it is given. `Move.entryChange` says once what a change can do to the
entries, and two invariants are read off it. `Extends` compares a registry with what it becomes, so
that whatever was built against the earlier one can be looked at in the later one. `Consistent` says
that a body stands at the id it names.
-/

namespace TaggedMatch.Registry

/-! ## What a change does to the entries -/

/-- The kinds of entries that are just issued: waiting for a body, or structural. -/
def IsNew : TypeKind → Prop
  | .declared | .tuple _ | .pointer _ => True
  | _ => False

/-- How the entries of one registry come from those of another by one change at most. -/
inductive EntryChange (r r' : Registry) : Prop
  | none (same : ∀ ty, r'.find? ty = r.find? ty)
  /-- The next id was issued. -/
  | issued (entry : TypeEntry) (new : IsNew entry.kind)
      (added : ∀ ty, r'.find? ty = if ty = ⟨r.size⟩ then some entry else r.find? ty)
  /-- A type that was only declared got its body. -/
  | defined (ty : TypeId) (entry : TypeEntry) (body : TypeKind) (found : r.find? ty = some entry)
      (declared : entry.kind = .declared) (owner : body.owner? = some (ty, entry.name))
      (changed : ∀ other, r'.find? other =
        if other = ty then some { entry with kind := body } else r.find? other)

theorem find?_size (r : Registry) : r.find? ⟨r.size⟩ = none := by
  simp [find?, size]

theorem nameOf_of_find? {r : Registry} {ty : TypeId} {entry : TypeEntry}
    (h : r.find? ty = some entry) : r.nameOf ty = entry.name := by
  simp [nameOf, h]

theorem find?_declareAt (r : Registry) (name : String) (span : Span) (ty : TypeId) :
    (r.declareAt name span).2.find? ty =
      if ty = ⟨r.size⟩ then some ⟨(r.intern name).1, .declared, span⟩ else r.find? ty := by
  have hpush := find?_push (r.intern name).2 ⟨(r.intern name).1, .declared, span⟩ ty
  -- Whether the name is new only matters for the index and the record.
  simp only [declareAt, intern, push] at hpush ⊢
  split
  · exact hpush
  · exact hpush

theorem declareAt_entryChange (r : Registry) (name : String) (span : Span) :
    EntryChange r (r.declareAt name span).2 :=
  .issued ⟨(r.intern name).1, .declared, span⟩ trivial (find?_declareAt r name span)

theorem find?_record (r : Registry) (fault : Fault) (ty : TypeId) :
    (r.record fault).find? ty = r.find? ty := rfl

theorem define_of_declared {r : Registry} {ty : TypeId} {entry : TypeEntry} (body : TypeKind)
    (hentry : r.find? ty = some entry) (hkind : entry.kind = .declared) (other : TypeId) :
    (r.define ty body).find? other =
      if other = ty then some { entry with kind := body } else r.find? other := by
  obtain ⟨i⟩ := ty
  obtain ⟨j⟩ := other
  have hi : i < r.entries.size := (Array.getElem?_eq_some_iff.mp hentry).1
  rw [define, hentry]
  simp only [hkind, find?, Array.getElem?_setIfInBounds, TypeId.mk.injEq]
  by_cases hij : j = i
  · subst hij
    simp [hi]
  · rw [if_neg (fun hji => hij hji.symm), if_neg hij]

theorem define_entryChange {r : Registry} {ty : TypeId} {body : TypeKind}
    (h : body.owner? = some (ty, r.nameOf ty)) : EntryChange r (r.define ty body) := by
  cases hentry : r.find? ty with
  | none =>
      rw [define, hentry]
      exact .none (find?_record r _)
  | some entry =>
      by_cases hkind : entry.kind = .declared
      · rw [nameOf_of_find? hentry] at h
        exact .defined ty entry body hentry hkind h (define_of_declared body hentry hkind)
      · rw [define, hentry]
        simp only []
        exact .none (find?_record r _)

theorem tuple_entryChange (r : Registry) (elements : List TypeId) :
    EntryChange r (r.tuple elements).2 := by
  rw [tuple]
  split
  · exact .none fun _ => rfl
  · exact .issued ⟨Name.empty, .tuple elements, Span.dummy⟩ trivial (find?_push r _)

theorem pointer_entryChange (r : Registry) (pointee : TypeId) :
    EntryChange r (r.pointer pointee).2 := by
  rw [pointer]
  split
  · exact .none fun _ => rfl
  · exact .issued ⟨Name.empty, .pointer pointee, Span.dummy⟩ trivial (find?_push r _)

/-- Every change of a registry is one of the three for its entries. -/
theorem Move.entryChange {r r' : Registry} (h : Move r r') : EntryChange r r' := by
  cases h with
  | intern s => exact .none fun _ => rfl
  | declare name span => exact declareAt_entryChange r name span
  | define ty body howner => exact define_entryChange howner
  | tuple elements => exact tuple_entryChange r elements
  | pointer pointee => exact pointer_entryChange r pointee

/-! ## Growth -/

/-- `r'` has every entry of `r`, by the same id, under the same name and of the same kind unless it
was only declared. -/
def Extends (r r' : Registry) : Prop :=
  ∀ ty entry, r.find? ty = some entry → ∃ entry', r'.find? ty = some entry' ∧
    entry'.name = entry.name ∧ entry'.span = entry.span ∧
    (entry.kind ≠ .declared → entry'.kind = entry.kind)

theorem Extends.refl (r : Registry) : Extends r r :=
  fun _ entry h => ⟨entry, h, rfl, rfl, fun _ => rfl⟩

theorem Extends.trans {r r' r'' : Registry} (h : Extends r r') (h' : Extends r' r'') :
    Extends r r'' := by
  intro ty entry hentry
  obtain ⟨entry', hentry', hname, hspan, hkind⟩ := h ty entry hentry
  obtain ⟨entry'', hentry'', hname', hspan', hkind'⟩ := h' ty entry' hentry'
  refine ⟨entry'', hentry'', hname'.trans hname, hspan'.trans hspan, fun hdeclared => ?_⟩
  have hsame := hkind hdeclared
  rw [hkind' (by rw [hsame]; exact hdeclared), hsame]

theorem EntryChange.extends {r r' : Registry} (h : EntryChange r r') : Extends r r' := by
  intro ty entry hentry
  cases h with
  | none same => exact ⟨entry, by rw [same, hentry], rfl, rfl, fun _ => rfl⟩
  | issued new _ added =>
      have hne : ty ≠ ⟨r.size⟩ := by
        rintro rfl
        rw [find?_size] at hentry
        cases hentry
      exact ⟨entry, by rw [added, if_neg hne, hentry], rfl, rfl, fun _ => rfl⟩
  | defined defined old body found declared _ changed =>
      by_cases hty : ty = defined
      · subst hty
        rw [hentry] at found
        cases found
        exact ⟨{ entry with kind := body }, by rw [changed, if_pos rfl], rfl, rfl,
          fun h => absurd declared h⟩
      · exact ⟨entry, by rw [changed, if_neg hty, hentry], rfl, rfl, fun _ => rfl⟩

/-- Operations only let a registry grow. -/
theorem run_extends (r : Registry) (operations : List Operation) : Extends r (r.run operations) :=
  run_keep (fun _ _ hr hmove => hr.trans hmove.entryChange.extends) operations (.refl r)

theorem apply_extends (r : Registry) (operation : Operation) : Extends r (r.apply operation) :=
  run_extends r [operation]

/-- What was known of a type stays known of it. -/
theorem Extends.kind? {r r' : Registry} (h : Extends r r') {ty : TypeId} {kind : TypeKind}
    (hkind : r.kind? ty = some kind) (hdefined : kind ≠ .declared) : r'.kind? ty = some kind := by
  obtain ⟨entry, hentry, rfl⟩ := Option.map_eq_some_iff.mp hkind
  obtain ⟨entry', hentry', -, -, hsame⟩ := h ty entry hentry
  simp [Registry.kind?, hentry', hsame hdefined]

theorem Extends.known {r r' : Registry} (h : Extends r r') {ty : TypeId} {kind : TypeKind}
    (hkind : r.kind? ty = some kind) : ∃ kind', r'.kind? ty = some kind' := by
  obtain ⟨entry, hentry, -⟩ := Option.map_eq_some_iff.mp hkind
  obtain ⟨entry', hentry', -⟩ := h ty entry hentry
  exact ⟨entry'.kind, by rw [Registry.kind?, hentry']; rfl⟩

theorem Extends.size_le {r r' : Registry} (h : Extends r r') : r.size ≤ r'.size := by
  refine Nat.le_of_not_lt fun hlt => ?_
  have hbound : r'.size < r.entries.size := hlt
  have hentry : r.find? ⟨r'.size⟩ = some (r.entries[r'.size]) := Array.getElem?_eq_getElem hbound
  obtain ⟨entry', hentry', -⟩ := h _ _ hentry
  rw [find?_size] at hentry'
  cases hentry'

theorem knows_iff {r : Registry} {ty : TypeId} :
    r.knows ty = true ↔ ∃ kind, r.kind? ty = some kind := by
  have hknows : r.knows ty = true ↔ ty.index < r.entries.size := decide_eq_true_iff
  rw [hknows, ← Option.isSome_iff_exists]
  simp [Registry.kind?, find?]

/-! ## Definitions by id

Looking up an enum, a union and so on is asking for the kind and taking the definition out of it. -/

theorem enum?_eq_some_iff {r : Registry} {ty : TypeId} {d : EnumDef} :
    r.enum? ty = some d ↔ r.kind? ty = some (.enumeration d) := by
  rw [enum?]; split <;> simp_all

theorem union?_eq_some_iff {r : Registry} {ty : TypeId} {d : UnionDef} :
    r.union? ty = some d ↔ r.kind? ty = some (.union d) := by
  rw [union?]; split <;> simp_all

theorem aggregate?_eq_some_iff {r : Registry} {ty : TypeId} {d : AggregateDef} :
    r.aggregate? ty = some d ↔ r.kind? ty = some (.aggregate d) := by
  rw [aggregate?]; split <;> simp_all

theorem extension?_eq_some_iff {r : Registry} {ty : TypeId} {d : ExtensionDef} :
    r.extension? ty = some d ↔ r.kind? ty = some (.extension d) := by
  rw [extension?]; split <;> simp_all

theorem tupleElements?_eq_some_iff {r : Registry} {ty : TypeId} {elements : List TypeId} :
    r.tupleElements? ty = some elements ↔ r.kind? ty = some (.tuple elements) := by
  rw [tupleElements?]; split <;> simp_all

theorem pointee?_eq_some_iff {r : Registry} {ty pointee : TypeId} :
    r.pointee? ty = some pointee ↔ r.kind? ty = some (.pointer pointee) := by
  rw [pointee?]; split <;> simp_all

/-! ## Bodies stand where they say -/

/-- Every body is at the id it names, under the name it names. -/
def Consistent (r : Registry) : Prop :=
  ∀ ty entry owner, r.find? ty = some entry → entry.kind.owner? = some owner →
    owner = (ty, entry.name)

theorem consistent_fresh : fresh.Consistent := by
  intro ty entry owner hentry howner
  obtain ⟨i⟩ := ty
  have hmem : entry ∈ fresh.entries := Array.mem_of_getElem? hentry
  have hnone : ∀ entry ∈ fresh.entries, entry.kind.owner? = none := by
    simp [fresh, initial, TypeKind.owner?]
  rw [hnone entry hmem] at howner
  cases howner

theorem IsNew.owner? {kind : TypeKind} (h : IsNew kind) : kind.owner? = none := by
  cases kind <;> first | rfl | exact False.elim h

theorem EntryChange.consistent {r r' : Registry} (h : EntryChange r r') (hr : r.Consistent) :
    r'.Consistent := by
  intro ty entry owner hentry howner
  cases h with
  | none same => exact hr ty entry owner (by rw [← same, hentry]) howner
  | issued new hnew added =>
      rw [added] at hentry
      split at hentry
      · cases hentry
        rw [hnew.owner?] at howner
        cases howner
      · exact hr ty entry owner hentry howner
  | defined defined old body _ _ hbody changed =>
      rw [changed] at hentry
      split at hentry
      · next hty =>
          cases hentry
          rw [hbody] at howner
          cases howner
          rw [hty]
      · exact hr ty entry owner hentry howner

theorem Reachable.consistent {r : Registry} (h : r.Reachable) : r.Consistent :=
  h.induct consistent_fresh fun _ _ hr hmove => hmove.entryChange.consistent hr

theorem Consistent.ty_of_kind? {r : Registry} (hr : r.Consistent) {ty : TypeId} {kind : TypeKind}
    {owner : TypeId × Name} (hkind : r.kind? ty = some kind) (howner : kind.owner? = some owner) :
    owner.1 = ty := by
  obtain ⟨entry, hentry, rfl⟩ := Option.map_eq_some_iff.mp hkind
  rw [hr ty entry owner hentry howner]

theorem Consistent.kind?_owner {r : Registry} (hr : r.Consistent) {ty : TypeId} {kind : TypeKind}
    {owner : TypeId × Name} (hkind : r.kind? ty = some kind) (howner : kind.owner? = some owner) :
    r.kind? owner.1 = some kind := by
  rw [hr.ty_of_kind? hkind howner]
  exact hkind

end TaggedMatch.Registry
