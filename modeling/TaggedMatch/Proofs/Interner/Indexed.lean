import Mathlib.Data.List.Induction
import TaggedMatch.Proofs.Interner

/-!
# A table with an index

To search the whole table for each text takes long, so a table is kept with an index of its names by
their texts. A text is looked up in the index, and one that is not there is put into both, unless
the table is full: positions are numbers of 32 bits.

What has to hold between the two is that they are inverse to each other (`Indexed.Agrees`). A new
text is not in the index, so it is not in the table either, and keeps it so. It follows that no text
has two names and that the index answers as the search would, so the table with its index is the
plain one as long as that is not too long (`plain_run`).

Either way the table holds the texts that were interned, each once, in the order in which they were
first met. With the index in place this is seen at the end of the texts: the last one is appended,
or it was met before, or there is no room for it and for no other (`strings_run_initial`).
-/

namespace TaggedMatch.Interner

/-- The table after texts were interned, the first of the list first. -/
def run (t : Interner) (texts : List String) : Interner :=
  texts.foldl (fun t s => (t.intern s).2) t

theorem eraseDups_append_singleton (l : List String) (s : String) :
    (l ++ [s]).eraseDups = if s ∈ l then l.eraseDups else l.eraseDups ++ [s] := by
  rw [List.eraseDups_append]
  split
  · next hs => simp [List.removeAll, hs]
  · next hs => simp [List.removeAll, hs, List.eraseDups_cons]

/-- The table holds the texts that were interned, each once, in the order in which they were first
met. -/
theorem strings_run_initial (texts : List String) :
    (initial.run texts).strings = ("" :: texts).eraseDups := by
  induction texts using List.reverseRecOn with
  | nil => simp [run, initial, List.eraseDups_cons]
  | append_singleton texts s ih =>
      have hlast : initial.run (texts ++ [s]) = ((initial.run texts).intern s).2 :=
        List.foldl_append
      have hmem : s ∈ "" :: texts ↔ s ∈ (initial.run texts).strings := by
        rw [ih, List.mem_eraseDups]
      rw [hlast, ← List.cons_append, eraseDups_append_singleton, ← ih]
      cases hfound : (initial.run texts).find? s with
      | some n =>
          have hs : s ∈ (initial.run texts).strings := by
            rw [← List.isSome_idxOf?, ← Option.isSome_map (f := Name.mk)]
            exact Option.isSome_iff_exists.mpr ⟨n, hfound⟩
          rw [intern_of_find? hfound, if_pos (hmem.mpr hs)]
      | none =>
          have hs : s ∉ (initial.run texts).strings := by simpa [find?] using hfound
          rw [intern_of_find?_eq_none hfound, if_neg fun h => hs (hmem.mp h)]

/-- How many texts a table can hold. -/
def capacity : Nat := UInt32.size

/-- A text was not interned, since there are so many already. -/
structure Overflow where
  count : Nat
deriving DecidableEq, Repr

/-- The wording of a refusal. -/
def Overflow.message (e : Overflow) : String :=
  s!"interner exceeded capacity: {e.count} strings, max is {capacity - 1}"

/-- A table of texts with an index of their names. -/
structure Indexed where
  strings : List String
  index : List (String × Name)
deriving Repr

namespace Indexed

/-- The table every session starts with. -/
def initial : Indexed := ⟨[""], [("", Name.empty)]⟩

/-- The table without its index. -/
def plain (t : Indexed) : Interner := ⟨t.strings⟩

/-- The text of a name; a name that the table never issued reads as the empty text. -/
def lookup (t : Indexed) (n : Name) : String := t.strings[n.index]?.getD ""

/-- Puts a text at the end of the table and its name into the index. -/
def push (t : Indexed) (s : String) : Indexed :=
  ⟨t.strings ++ [s], (s, ⟨t.strings.length⟩) :: t.index⟩

/-- The name of a text; one that was never met before is put into the table if there is room. -/
def tryIntern (t : Indexed) (s : String) : Except Overflow (Name × Indexed) :=
  match t.index.lookup s with
  | some n => .ok (n, t)
  | none =>
      if t.strings.length < capacity then .ok (⟨t.strings.length⟩, t.push s)
      else .error ⟨t.strings.length⟩

/-- The name of a text; where there is no room for it, the program ends with these words. -/
def intern (t : Indexed) (s : String) : Except String (Name × Indexed) :=
  (t.tryIntern s).mapError Overflow.message

/-- The table after a text was interned, or refused. -/
def after (t : Indexed) (s : String) : Indexed :=
  match t.tryIntern s with
  | .ok (_, t') => t'
  | .error _ => t

/-- The table after texts, the first of the list first. -/
def run (t : Indexed) (texts : List String) : Indexed := texts.foldl after t

/-! ## The index and the table -/

/-- The index has for each text the position at which the table has it, and nothing else. -/
def Agrees (t : Indexed) : Prop :=
  ∀ s n, t.index.lookup s = some n ↔ t.strings[n.index]? = some s

variable {t : Indexed} {s : String} {n : Name}

theorem Agrees.lookup_eq_none_iff (h : t.Agrees) : t.index.lookup s = none ↔ s ∉ t.strings := by
  rw [← not_iff_not, not_not, ← Ne, Option.ne_none_iff_exists']
  constructor
  · rintro ⟨n, hn⟩
    exact List.mem_of_getElem? ((h s n).mp hn)
  · intro hmem
    obtain ⟨i, hi⟩ := List.mem_iff_getElem?.mp hmem
    exact ⟨⟨i⟩, (h s ⟨i⟩).mpr hi⟩

/-- A text that is pushed is at the end and nowhere else. -/
theorem getElem?_push (new : s ∉ t.strings) (u : String) (i : Nat) :
    (t.push s).strings[i]? = some u ↔
      if u = s then i = t.strings.length else t.strings[i]? = some u := by
  rw [push, List.getElem?_append]
  split
  · next hi =>
      split
      · next hu =>
          rw [hu]
          refine iff_of_false (fun hmem => new (List.mem_of_getElem? hmem)) (Nat.ne_of_lt hi)
      · rfl
  · next hi =>
      have hend : t.strings[i]? = none := List.getElem?_eq_none (Nat.le_of_not_lt hi)
      rw [List.getElem?_singleton, hend]
      split
      · next hzero =>
          have hlast : i = t.strings.length := by omega
          simp [hlast, eq_comm]
      · next hnonzero =>
          have hlast : i ≠ t.strings.length := by omega
          simp [hlast]

theorem Agrees.push (h : t.Agrees) (new : s ∉ t.strings) : (t.push s).Agrees := by
  intro u n
  have hindex : (t.push s).index.lookup u =
      if u = s then some ⟨t.strings.length⟩ else t.index.lookup u := by
    rw [Indexed.push, List.lookup_cons]
    by_cases hu : u = s
    · simp [hu]
    · simp [hu, beq_false_of_ne hu]
  rw [getElem?_push new, hindex]
  split
  · rw [Option.some.injEq, eq_comm, Name.mk.injEq]
  · exact h u n

theorem agrees_initial : initial.Agrees := by
  have hnone : (⟨[], []⟩ : Indexed).Agrees := fun s n => by simp
  exact hnone.push List.not_mem_nil

theorem Agrees.nodup (h : t.Agrees) : t.strings.Nodup := by
  rw [List.nodup_iff_getElem?_ne_getElem?]
  intro i j hij hj heq
  have hi : t.strings[j]? = some t.strings[j] := List.getElem?_eq_getElem hj
  have hfirst := (h _ ⟨i⟩).mpr (heq.trans hi)
  have hsecond := (h _ ⟨j⟩).mpr hi
  rw [hfirst] at hsecond
  cases hsecond
  exact Nat.lt_irrefl _ hij

/-- What interning comes to: the text is there, or it is put at the end, or the table is full. -/
theorem Agrees.tryIntern_cases (h : t.Agrees) (s : String) :
    (∃ n : Name, t.strings[n.index]? = some s ∧ t.tryIntern s = .ok (n, t)) ∨
      s ∉ t.strings ∧
        (t.strings.length < capacity ∧ t.tryIntern s = .ok (⟨t.strings.length⟩, t.push s) ∨
          capacity ≤ t.strings.length ∧ t.tryIntern s = .error ⟨t.strings.length⟩) := by
  rw [tryIntern]
  cases hfound : t.index.lookup s with
  | some n => exact .inl ⟨n, (h s n).mp hfound, rfl⟩
  | none =>
      refine .inr ⟨h.lookup_eq_none_iff.mp hfound, ?_⟩
      by_cases hroom : t.strings.length < capacity
      · exact .inl ⟨hroom, if_pos hroom⟩
      · exact .inr ⟨Nat.le_of_not_lt hroom, if_neg hroom⟩

theorem Agrees.after_cases (h : t.Agrees) (s : String) :
    (s ∈ t.strings ∨ capacity ≤ t.strings.length) ∧ t.after s = t ∨
      s ∉ t.strings ∧ t.strings.length < capacity ∧ t.after s = t.push s := by
  rw [after]
  rcases h.tryIntern_cases s with ⟨n, hn, heq⟩ | ⟨hnew, ⟨hroom, heq⟩ | ⟨hfull, heq⟩⟩
  · rw [heq]
    exact .inl ⟨.inl (List.mem_of_getElem? hn), rfl⟩
  · rw [heq]
    exact .inr ⟨hnew, hroom, rfl⟩
  · rw [heq]
    exact .inl ⟨.inr hfull, rfl⟩

theorem Agrees.after (h : t.Agrees) (s : String) : (t.after s).Agrees := by
  rcases h.after_cases s with ⟨-, heq⟩ | ⟨hnew, -, heq⟩
  · rwa [heq]
  · rw [heq]
    exact h.push hnew

theorem Agrees.run (h : t.Agrees) (texts : List String) : (t.run texts).Agrees := by
  induction texts generalizing t with
  | nil => exact h
  | cons s rest ih => exact ih (h.after s)

/-! ## The texts in the table -/

/-- Texts keep their positions. -/
theorem Agrees.strings_run (h : t.Agrees) (texts : List String) :
    t.strings <+: (t.run texts).strings := by
  induction texts generalizing t with
  | nil => exact List.prefix_rfl
  | cons s rest ih =>
      have hstep : t.strings <+: (t.after s).strings := by
        rcases h.after_cases s with ⟨-, heq⟩ | ⟨-, -, heq⟩
        · simp only [heq, List.prefix_rfl]
        · rw [heq]
          exact List.prefix_append t.strings [s]
      exact hstep.trans (ih (h.after s))

/-- The table holds the texts that were interned, each once and in the order in which they were
first met, as far as there is room. -/
theorem strings_run_initial (texts : List String) :
    (initial.run texts).strings = ("" :: texts).eraseDups.take capacity := by
  induction texts using List.reverseRecOn with
  | nil => simp [run, initial, capacity, List.eraseDups_cons]
  | append_singleton texts s ih =>
      have hlast : initial.run (texts ++ [s]) = (initial.run texts).after s := List.foldl_append
      have hagrees : (initial.run texts).Agrees := agrees_initial.run texts
      rw [hlast, ← List.cons_append, eraseDups_append_singleton]
      generalize hmet : ("" :: texts).eraseDups = met at ih
      have hmem : s ∈ "" :: texts ↔ s ∈ met := by rw [← hmet, List.mem_eraseDups]
      rcases hagrees.after_cases s with ⟨hheld, heq⟩ | ⟨hnew, hroom, heq⟩
      · rw [heq, ih]
        rw [ih] at hheld
        split
        · rfl
        · next hs =>
            have hfull : capacity ≤ met.length := by
              rcases hheld with hheld | hheld
              · exact absurd (hmem.mpr (List.mem_of_mem_take hheld)) hs
              · rw [List.length_take] at hheld
                omega
            rw [List.take_append_of_le_length hfull]
      · rw [ih] at hnew hroom
        have hfits : met.length < capacity := by
          rw [List.length_take] at hroom
          omega
        rw [List.take_of_length_le (Nat.le_of_lt hfits)] at hnew ih
        have hlength : (met ++ [s]).length ≤ capacity := by
          rw [List.length_append]
          exact hfits
        rw [heq, push, ih, if_neg fun hs => hnew (hmem.mp hs), List.take_of_length_le hlength]

/-! ## The plain table -/

/-- The index answers as the search does. -/
theorem Agrees.find?_eq (h : t.Agrees) (s : String) : t.plain.find? s = t.index.lookup s := by
  cases hfound : t.plain.find? s with
  | none =>
      have hnew : s ∉ t.strings := by simpa [find?, plain] using hfound
      exact (h.lookup_eq_none_iff.mpr hnew).symm
  | some n =>
      obtain ⟨i, hi, rfl⟩ := Option.map_eq_some_iff.mp hfound
      obtain ⟨hlt, hs, -⟩ := List.idxOf?_eq_some_iff.mp hi
      have hget : t.plain.strings[i]? = some s := by
        rw [List.getElem?_eq_getElem hlt, hs]
      exact ((h s ⟨i⟩).mpr hget).symm

/-- As long as there is room, a text gets the name that it gets from a plain table. -/
theorem Agrees.plain_of_tryIntern (h : t.Agrees) {t' : Indexed} (ok : t.tryIntern s = .ok (n, t')) :
    t.plain.intern s = (n, t'.plain) := by
  rw [Interner.intern, h.find?_eq]
  rw [tryIntern] at ok
  cases hfound : t.index.lookup s with
  | some m =>
      rw [hfound] at ok
      cases ok
      rfl
  | none =>
      rw [hfound] at ok
      dsimp only at ok
      split at ok
      · cases ok
        rfl
      · cases ok

/-- As long as there is room, the table with its index is the plain one. -/
theorem plain_run (texts : List String) (fits : ("" :: texts).eraseDups.length ≤ capacity) :
    (initial.run texts).plain = Interner.initial.run texts := by
  rw [plain, strings_run_initial, List.take_of_length_le fits, ← Interner.strings_run_initial]

/-! ## Names and texts -/

theorem Agrees.getElem?_of_tryIntern (h : t.Agrees) {t' : Indexed}
    (ok : t.tryIntern s = .ok (n, t')) : t' = t.after s ∧ t'.strings[n.index]? = some s := by
  refine ⟨by rw [Indexed.after, ok], ?_⟩
  rcases h.tryIntern_cases s with ⟨m, hm, heq⟩ | ⟨hnew, ⟨-, heq⟩ | ⟨-, heq⟩⟩
  · cases heq.symm.trans ok
    exact hm
  · cases heq.symm.trans ok
    exact (getElem?_push hnew s _).mpr (by rw [if_pos rfl])
  · cases heq.symm.trans ok

/-- A name is that of one text, and a text has one name. -/
theorem Agrees.eq_iff_eq (h : t.Agrees) {n' : Name} {s' : String}
    (hn : t.strings[n.index]? = some s) (hn' : t.strings[n'.index]? = some s') :
    n = n' ↔ s = s' := by
  constructor
  · rintro rfl
    exact Option.some.inj (hn.symm.trans hn')
  · rintro rfl
    exact Option.some.inj (((h s n).mpr hn).symm.trans ((h s n').mpr hn'))

/-- What is to be said of a table into which texts were interned. -/
structure Holds (t : Indexed) (texts : List String) : Prop where
  /-- Names are issued from 0 on, in the order in which their texts were first met. -/
  strings : t.strings = ("" :: texts).eraseDups.take capacity
  nodup : t.strings.Nodup
  inverse : ∀ s n, t.index.lookup s = some n ↔ t.strings[n.index]? = some s
  again : ∀ s ∈ t.strings, ∃ n : Name, t.strings[n.index]? = some s ∧
    t.tryIntern s = .ok (n, t) ∧ t.intern s = .ok (n, t)
  next : t.strings.length < capacity → ∀ s ∉ t.strings,
    t.tryIntern s = .ok (⟨t.strings.length⟩, t.push s) ∧
      t.intern s = .ok (⟨t.strings.length⟩, t.push s)
  full : capacity ≤ t.strings.length → ∀ s ∉ t.strings,
    t.tryIntern s = .error ⟨t.strings.length⟩ ∧
      t.intern s = .error (Overflow.message ⟨t.strings.length⟩)
  unissued : ∀ n : Name, t.strings.length ≤ n.index → t.lookup n = ""
  /-- What a plain table answers, as long as there is room. -/
  plain : ("" :: texts).eraseDups.length ≤ capacity → t.plain = Interner.initial.run texts ∧
    (∀ n, t.lookup n = t.plain.lookup n) ∧
      ∀ s n t', t.tryIntern s = .ok (n, t') → t.plain.intern s = (n, t'.plain)

theorem holds_run (texts : List String) : (initial.run texts).Holds texts := by
  have h : (initial.run texts).Agrees := agrees_initial.run texts
  refine ⟨strings_run_initial texts, h.nodup, h, fun s hs => ?_, fun hroom s hnew => ?_,
    fun hfull s hnew => ?_, fun n hn => ?_, fun fits => ⟨plain_run texts fits, fun _ => rfl,
      fun _ _ _ => h.plain_of_tryIntern⟩⟩
  · rcases h.tryIntern_cases s with ⟨n, hn, heq⟩ | ⟨hnew, -⟩
    · exact ⟨n, hn, heq, by rw [intern, heq]; rfl⟩
    · exact absurd hs hnew
  · rcases h.tryIntern_cases s with ⟨n, hn, -⟩ | ⟨-, ⟨-, heq⟩ | ⟨hfull, -⟩⟩
    · exact absurd (List.mem_of_getElem? hn) hnew
    · exact ⟨heq, by rw [intern, heq]; rfl⟩
    · exact absurd hroom (Nat.not_lt_of_le hfull)
  · rcases h.tryIntern_cases s with ⟨n, hn, -⟩ | ⟨-, ⟨hroom, -⟩ | ⟨-, heq⟩⟩
    · exact absurd (List.mem_of_getElem? hn) hnew
    · exact absurd hroom (Nat.not_lt_of_le hfull)
    · exact ⟨heq, by rw [intern, heq]; rfl⟩
  · rw [lookup, List.getElem?_eq_none hn, Option.getD_none]

end Indexed

end TaggedMatch.Interner
