import Mathlib.Data.List.Nodup
import TaggedMatch.Interner

/-!
# Names stand for texts

The table of texts grows at its end only, so a name that was issued reads the same ever after. No
text is in the table twice, since one that is there is not appended again. So two names are the same
just if their texts are: looking a text up in the table of names is as good as comparing texts.
-/

namespace TaggedMatch.Interner

/-! ## Growth -/

theorem strings_intern (t : Interner) (s : String) : t.strings <+: (t.intern s).2.strings := by
  rw [intern]
  split
  · exact List.prefix_rfl
  · exact List.prefix_append t.strings [s]

theorem index_intern_lt (t : Interner) (s : String) :
    (t.intern s).1.index < (t.intern s).2.size := by
  rw [intern]
  split
  · next n hfound =>
      obtain ⟨i, hi, rfl⟩ := Option.map_eq_some_iff.mp hfound
      obtain ⟨hlt, -⟩ := List.idxOf?_eq_some_iff.mp hi
      exact hlt
  · simp [size]

theorem size_le_of_strings {t t' : Interner} (h : t.strings <+: t'.strings) : t.size ≤ t'.size :=
  h.length_le

theorem lookup_of_strings {t t' : Interner} (h : t.strings <+: t'.strings) {n : Name}
    (hn : n.index < t.size) : t'.lookup n = t.lookup n := by
  obtain ⟨more, hmore⟩ := h
  rw [lookup, lookup, ← hmore, List.getElem?_append_left hn]

/-- A name keeps the text it was issued for. -/
theorem lookup_of_intern {t t' : Interner} {s : String}
    (h : (t.intern s).2.strings <+: t'.strings) : t'.lookup (t.intern s).1 = s := by
  rw [lookup_of_strings h (t.index_intern_lt s), lookup_intern]

/-! ## No text twice -/

/-- No text has two names. -/
def Distinct (t : Interner) : Prop := t.strings.Nodup

theorem distinct_initial : initial.Distinct := List.nodup_singleton ""

theorem Distinct.intern {t : Interner} (h : t.Distinct) (s : String) : (t.intern s).2.Distinct := by
  rw [Interner.intern]
  split
  · exact h
  · next hnone =>
      have hnew : s ∉ t.strings := by
        simpa [find?] using hnone
      exact List.nodup_append_comm.mp (List.nodup_cons.mpr ⟨hnew, h⟩)

/-- A text has the name that was issued for it. -/
theorem Distinct.intern_eq_iff {t : Interner} (h : t.Distinct) {n : Name} (hn : n.index < t.size)
    {s : String} : (t.intern s).1 = n ↔ t.lookup n = s := by
  obtain ⟨i⟩ := n
  have hi : i < t.strings.length := hn
  have hlookup : t.lookup ⟨i⟩ = t.strings[i] := by
    simp [lookup, List.getElem?_eq_getElem hi]
  rw [hlookup]
  constructor
  · intro hname
    have htext := t.lookup_intern s
    rw [hname, lookup_of_strings (t.strings_intern s) hn, hlookup] at htext
    exact htext
  · rintro rfl
    have hfirst : t.strings.idxOf? t.strings[i] = some i := by
      refine List.idxOf?_eq_some_iff.mpr ⟨hi, rfl, fun j hj heq => ?_⟩
      exact Nat.ne_of_lt hj (h.getElem_inj_iff.mp heq)
    rw [intern_of_find? (by rw [find?, hfirst]; rfl)]

theorem Distinct.lookup_inj {t : Interner} (h : t.Distinct) {n m : Name} (hn : n.index < t.size)
    (hm : m.index < t.size) (heq : t.lookup n = t.lookup m) : n = m :=
  ((h.intern_eq_iff hn).mpr heq).symm.trans ((h.intern_eq_iff hm).mpr rfl)

end TaggedMatch.Interner
