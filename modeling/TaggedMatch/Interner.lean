/-!
# Names and the table behind them

Identifiers are interned: a `Name` is the position of its text in a table that only grows. The
empty text is in the table from the start, as name 0, and serves as the name of what has none.
Comparing two names of one table is comparing their texts, which is what lets a checker, a
registry and an environment speak of names alone.
-/

namespace TaggedMatch

/-- An interned identifier, known by its position in the table. -/
structure Name where
  index : Nat
deriving DecidableEq, Repr

namespace Name

/-- The name of the empty text. -/
def empty : Name := ⟨0⟩

/-- The text of a name where no table is at hand: its position. -/
def tag (n : Name) : String := s!"Name({n.index})"

end Name

/-- The table of interned texts, in the order in which they were first met. -/
structure Interner where
  strings : List String
deriving Repr

namespace Interner

/-- The table every session starts with: only the empty text is known. -/
def initial : Interner := ⟨[""]⟩

/-- How many texts the table holds, the empty one included. -/
def size (t : Interner) : Nat := t.strings.length

/-- The name of a text that the table already holds. -/
def find? (t : Interner) (s : String) : Option Name :=
  (t.strings.idxOf? s).map Name.mk

/-- The name of a text; a text that was never met before is appended. -/
def intern (t : Interner) (s : String) : Name × Interner :=
  match t.find? s with
  | some n => (n, t)
  | none => (⟨t.size⟩, ⟨t.strings ++ [s]⟩)

/-- The text of a name; a name that the table never issued reads as the empty text. -/
def lookup (t : Interner) (n : Name) : String :=
  t.strings[n.index]?.getD ""

/-- A short text of a table for traces: how many texts it holds, not which. -/
def summary (t : Interner) : String :=
  "SharedInterner(StringInterner \x7b len: " ++ toString t.size ++ " \x7d)"

/-- A text that is already there is not interned again. -/
theorem intern_of_find? {t : Interner} {s : String} {n : Name} (h : t.find? s = some n) :
    t.intern s = (n, t) := by
  simp [intern, h]

/-- A text that is not there is put at the end. -/
theorem intern_of_find?_eq_none {t : Interner} {s : String} (h : t.find? s = none) :
    t.intern s = (⟨t.size⟩, ⟨t.strings ++ [s]⟩) := by
  simp [intern, h]

/-- The name of a text stands for that text. -/
theorem lookup_intern (t : Interner) (s : String) :
    (t.intern s).2.lookup (t.intern s).1 = s := by
  cases h : t.strings.idxOf? s with
  | none => simp [intern, find?, h, lookup, size]
  | some i =>
      obtain ⟨hi, hs, _⟩ := List.idxOf?_eq_some_iff.1 h
      have hsi : t.strings[i] = s := by simpa using hs
      simp [intern, find?, h, lookup, List.getElem?_eq_getElem hi, hsi]

end Interner

end TaggedMatch
