import TaggedMatch.Proofs.Interner
import TaggedMatch.Proofs.Registry.Growth

/-!
# Names keep their texts

The table of texts is shared and grows at its end only, so a name that was issued reads the same
ever after. A name that was not issued reads as the empty text until the table has grown that far,
so it matters that the name of every entry was issued. It was: an entry takes its name from the
table when it is added, structural entries take the name of the empty text, which is there from the
start, and no entry is ever renamed.

A registry that grew knows a type by the name it had, then, and words it as before. `SameTexts` says
this of the types that have a body, which are the ones that resolved patterns quote.
-/

namespace TaggedMatch

namespace Registry

variable {r r' : Registry}

/-! ## The names of entries were issued -/

structure NamesIssued (r : Registry) : Prop where
  empty : Name.empty.index < r.interner.size
  entry : ∀ {ty entry}, r.find? ty = some entry → entry.name.index < r.interner.size

theorem interner_define (r : Registry) (ty : TypeId) (body : TypeKind) :
    (r.define ty body).interner = r.interner := by
  rw [define]
  split
  · split <;> rfl
  · rfl

theorem interner_declareAt (r : Registry) (name : String) (span : Span) :
    (r.declareAt name span).2.interner = (r.interner.intern name).2 := by
  simp only [declareAt, intern, push]
  split <;> rfl

theorem interner_tuple (r : Registry) (elements : List TypeId) :
    (r.tuple elements).2.interner = r.interner := by
  rw [tuple]
  split <;> rfl

theorem interner_pointer (r : Registry) (pointee : TypeId) :
    (r.pointer pointee).2.interner = r.interner := by
  rw [pointer]
  split <;> rfl

theorem Move.strings (h : Move r r') : r.interner.strings <+: r'.interner.strings := by
  cases h with
  | intern s => exact r.interner.strings_intern s
  | declare name span =>
      rw [interner_declareAt]
      exact r.interner.strings_intern name
  | define ty body => exact interner_define r ty body ▸ List.prefix_rfl
  | tuple elements => exact interner_tuple r elements ▸ List.prefix_rfl
  | pointer pointee => exact interner_pointer r pointee ▸ List.prefix_rfl

theorem run_strings (r : Registry) (operations : List Operation) :
    r.interner.strings <+: (r.run operations).interner.strings := by
  refine run_keep (P := fun r' => r.interner.strings <+: r'.interner.strings) ?_ operations
    List.prefix_rfl
  exact fun _ _ hr hmove => hr.trans hmove.strings

theorem Move.distinct (h : Move r r') (hr : r.interner.Distinct) : r'.interner.Distinct := by
  cases h with
  | intern s => exact hr.intern s
  | declare name span =>
      rw [interner_declareAt]
      exact hr.intern name
  | define ty body => exact interner_define r ty body ▸ hr
  | tuple elements => exact interner_tuple r elements ▸ hr
  | pointer pointee => exact interner_pointer r pointee ▸ hr

theorem Reachable.distinct (h : r.Reachable) : r.interner.Distinct :=
  h.induct Interner.distinct_initial fun _ _ hr hmove => hmove.distinct hr

/-- A definition renames nothing. -/
theorem find?_define {ty other : TypeId} {body : TypeKind} {entry : TypeEntry}
    (h : (r.define ty body).find? other = some entry) :
    ∃ old, r.find? other = some old ∧ entry.name = old.name := by
  cases hfound : r.find? ty with
  | none =>
      rw [define, hfound] at h
      exact ⟨entry, h, rfl⟩
  | some waiting =>
      by_cases hkind : waiting.kind = .declared
      · rw [define_of_declared body hfound hkind] at h
        split at h
        · next hty =>
            cases h
            exact ⟨waiting, by rw [hty, hfound], rfl⟩
        · exact ⟨entry, h, rfl⟩
      · rw [define, hfound] at h
        simp only [] at h
        exact ⟨entry, h, rfl⟩

theorem namesIssued_fresh : fresh.NamesIssued := by
  refine ⟨Nat.one_pos, fun {ty entry} hentry => ?_⟩
  have hmem : entry ∈ fresh.entries := Array.mem_of_getElem? hentry
  have hempty : ∀ entry ∈ fresh.entries, entry.name = Name.empty := by
    simp [fresh, initial]
  rw [hempty entry hmem]
  exact Nat.one_pos

/-- An entry that is pushed brings a name of the table with it. -/
theorem NamesIssued.push (hr : r.NamesIssued) (new : TypeEntry)
    (hnew : new.name.index < r.interner.size) (hinterner : r'.interner = r.interner)
    (hfind : ∀ ty, r'.find? ty = (r.push new).2.find? ty) : r'.NamesIssued := by
  refine ⟨by rw [hinterner]; exact hr.empty, fun {ty entry} hentry => ?_⟩
  rw [hfind, find?_push] at hentry
  rw [hinterner]
  split at hentry
  · cases hentry
    exact hnew
  · exact hr.entry hentry

theorem NamesIssued.intern (hr : r.NamesIssued) (s : String) : (r.intern s).2.NamesIssued := by
  have hle := Interner.size_le_of_strings (r.interner.strings_intern s)
  exact ⟨Nat.lt_of_lt_of_le hr.empty hle, fun hentry => Nat.lt_of_lt_of_le (hr.entry hentry) hle⟩

theorem Move.namesIssued (h : Move r r') (hr : r.NamesIssued) : r'.NamesIssued := by
  cases h with
  | intern s => exact hr.intern s
  | declare name span =>
      have hnew := r.interner.index_intern_lt name
      refine (hr.intern name).push ⟨(r.intern name).1, .declared, span⟩ hnew
        (interner_declareAt r name span) fun ty => ?_
      simp only [declareAt, Registry.intern, Registry.push]
      split <;> rfl
  | define ty body =>
      refine ⟨by rw [interner_define]; exact hr.empty, fun hentry => ?_⟩
      obtain ⟨old, hold, hname⟩ := find?_define hentry
      rw [interner_define, hname]
      exact hr.entry hold
  | tuple elements =>
      rw [Registry.tuple]
      split
      · exact hr
      · exact hr.push _ hr.empty rfl fun _ => rfl
  | pointer pointee =>
      rw [Registry.pointer]
      split
      · exact hr
      · exact hr.push _ hr.empty rfl fun _ => rfl

theorem Reachable.namesIssued (h : r.Reachable) : r.NamesIssued :=
  h.induct namesIssued_fresh fun _ _ hr hmove => hmove.namesIssued hr

/-! ## The words for types -/

/-- What a body calls its type reads the same in both registries. -/
def SameTexts (r r' : Registry) : Prop :=
  ∀ {ty kind owner name}, r.kind? ty = some kind → kind.owner? = some (owner, name) →
    r'.text name = r.text name

theorem Reachable.sameTexts_run (h : r.Reachable) (operations : List Operation) :
    SameTexts r (r.run operations) := by
  intro ty kind owner name hkind howner
  obtain ⟨entry, hentry, rfl⟩ := Option.map_eq_some_iff.mp hkind
  cases h.consistent ty entry (owner, name) hentry howner
  exact Interner.lookup_of_strings (r.run_strings operations) (h.namesIssued.entry hentry)

end Registry

end TaggedMatch
