import TaggedMatch.Proofs.Interner.Indexed

/-!
# Handles to a table

A table is shared: whoever is to intern texts has a handle that leads to it, and a handle can be
cloned any number of times. What is interned through one handle is seen through all that lead to the
same table, and through no other. So of all calls that are made, those through a table's handles are
what the table goes by, in the order in which they come (`table_run`).

With this, what is known of one table holds of calls through any handles (`interning_bijective`): a
name and its text stand for each other from the call that issued the name on.
-/

namespace TaggedMatch

open Interner (Indexed Overflow capacity)

/-- Tables in use and the handles to them. -/
structure Interners where
  tables : List Indexed
  /-- The position of the table that each handle leads to. -/
  handles : List Nat
deriving Repr

namespace Interners

/-- What can be done with handles. -/
inductive Call where
  /-- Makes a table, and a handle to it. -/
  | create
  /-- Makes one more handle to the same table. -/
  | clone (handle : Nat)
  | intern (handle : Nat) (s : String)
  | tryIntern (handle : Nat) (s : String)

/-- The text that is to be interned, and the handle. -/
def Call.text? : Call → Option (Nat × String)
  | .create | .clone _ => none
  | .intern handle s | .tryIntern handle s => some (handle, s)

/-- The tables and handles after a call. A call through a handle that there is not does nothing. -/
def apply (w : Interners) : Call → Interners
  | .create => ⟨w.tables ++ [.initial], w.handles ++ [w.tables.length]⟩
  | .clone handle => { w with handles := w.handles ++ w.handles[handle]?.toList }
  | .intern handle s | .tryIntern handle s =>
      match w.handles[handle]? with
      | some a => { w with tables := w.tables.modify a (·.after s) }
      | none => w

/-- The tables and handles after calls, the first of the list first. -/
def run (w : Interners) (calls : List Call) : Interners := calls.foldl apply w

/-- The table that a handle leads to. -/
def table? (w : Interners) (handle : Nat) : Option Indexed :=
  w.handles[handle]?.bind (w.tables[·]?)

/-- The answer to a text that is to be interned through a handle. -/
def answer? (w : Interners) (handle : Nat) (s : String) : Option (Except Overflow Name) :=
  (w.table? handle).map fun t => (t.tryIntern s).map (·.1)

/-- The text of a name, read through a handle. -/
def lookup? (w : Interners) (handle : Nat) (n : Name) : Option String :=
  (w.table? handle).map (·.lookup n)

/-- The texts that a call sends to a table. -/
def sent (w : Interners) (a : Nat) (call : Call) : List String :=
  match call.text? with
  | some (handle, s) => if w.handles[handle]? = some a then [s] else []
  | none => []

/-- The texts that calls send to a table, in order. -/
def texts (a : Nat) : Interners → List Call → List String
  | _, [] => []
  | w, call :: rest => w.sent a call ++ texts a (w.apply call) rest

variable {w : Interners} {a handle : Nat} {t : Indexed}

/-! ## One table among others -/

/-- What is at a position stays there as a list grows. -/
theorem getElem?_of_grown {α : Type} {l l' : List α} {i : Nat} {x : α} (grown : l <+: l')
    (h : l[i]? = some x) : l'[i]? = some x := by
  obtain ⟨rest, rfl⟩ := grown
  obtain ⟨hlt, -⟩ := List.getElem?_eq_some_iff.mp h
  rw [List.getElem?_append_left hlt, h]

theorem handles_apply (w : Interners) (call : Call) : w.handles <+: (w.apply call).handles := by
  cases call with
  | create => exact List.prefix_append ..
  | clone handle => exact List.prefix_append ..
  | intern handle s | tryIntern handle s =>
      rw [apply]
      split
      · exact List.prefix_rfl
      · exact List.prefix_rfl

theorem handles_run (w : Interners) (calls : List Call) : w.handles <+: (w.run calls).handles := by
  induction calls generalizing w with
  | nil => exact List.prefix_rfl
  | cons call rest ih => exact (handles_apply w call).trans (ih (w.apply call))

/-- A handle leads to the same table ever after. -/
theorem handle_run (h : w.handles[handle]? = some a) (calls : List Call) :
    (w.run calls).handles[handle]? = some a :=
  getElem?_of_grown (handles_run w calls) h

/-- A clone leads where its original leads. -/
theorem handle_clone (h : w.handles[handle]? = some a) :
    (w.apply (.clone handle)).handles[w.handles.length]? = some a := by
  rw [apply, h]
  exact List.getElem?_concat_length

/-- A table goes by the texts that are sent to it. -/
theorem table_apply (h : w.tables[a]? = some t) (call : Call) :
    (w.apply call).tables[a]? = some (t.run (w.sent a call)) := by
  obtain ⟨hlt, -⟩ := List.getElem?_eq_some_iff.mp h
  cases call with
  | create => exact (List.getElem?_append_left hlt).trans h
  | clone handle => exact h
  | intern handle s | tryIntern handle s =>
      simp only [apply, sent, Call.text?]
      cases hhandle : w.handles[handle]? with
      | none => simpa [Indexed.run] using h
      | some b =>
          by_cases hsame : b = a
          · simp [hsame, h, Indexed.run]
          · simp [hsame, h, Indexed.run]

theorem table_run (h : w.tables[a]? = some t) (calls : List Call) :
    (w.run calls).tables[a]? = some (t.run (w.texts a calls)) := by
  induction calls generalizing w t with
  | nil => exact h
  | cons call rest ih =>
      have hrun : w.run (call :: rest) = (w.apply call).run rest := rfl
      have htexts : t.run (w.texts a (call :: rest)) =
          (t.run (w.sent a call)).run ((w.apply call).texts a rest) := List.foldl_append
      rw [hrun, htexts]
      exact ih (table_apply h call)

theorem table?_eq (handle_a : w.handles[handle]? = some a) (table_a : w.tables[a]? = some t) :
    w.table? handle = some t := by
  rw [table?, handle_a, Option.bind_some, table_a]

/-! ## Names and texts -/

/-- What was answered, read in the table. -/
theorem tryIntern_of_answer? {s : String} {n : Name} (leads : w.handles[handle]? = some a)
    (stored : w.tables[a]? = some t) (answered : w.answer? handle s = some (.ok n)) :
    ∃ t', t.tryIntern s = .ok (n, t') := by
  rw [answer?, table?_eq leads stored, Option.map_some, Option.some.injEq] at answered
  cases htry : t.tryIntern s with
  | error e =>
      rw [htry] at answered
      cases answered
  | ok result =>
      rw [htry] at answered
      cases answered
      exact ⟨result.2, rfl⟩

/-- A name that was issued for a text stands for it from then on, whichever handle it is read
through, and is not issued for another. -/
theorem stands_run {s : String} {n : Name} (agrees : t.Agrees) (stored : w.tables[a]? = some t)
    (leads : w.handles[handle]? = some a) (answered : w.answer? handle s = some (.ok n))
    (more : List Call) {handle' : Nat}
    (leads' : ((w.apply (.intern handle s)).run more).handles[handle']? = some a) :
    ((w.apply (.intern handle s)).run more).lookup? handle' n = some s ∧
      ∀ s' n', ((w.apply (.intern handle s)).run more).answer? handle' s' = some (.ok n') →
        (n = n' ↔ s = s') := by
  obtain ⟨t', htry⟩ := tryIntern_of_answer? leads stored answered
  obtain ⟨rfl, hn⟩ := agrees.getElem?_of_tryIntern htry
  have hstored : (w.apply (.intern handle s)).tables[a]? = some (t.after s) := by
    simpa [sent, Call.text?, leads, Indexed.run] using table_apply stored (.intern handle s)
  have hlater := table_run hstored more
  have hgrown := (agrees.after s).strings_run ((w.apply (.intern handle s)).texts a more)
  have hagrees := (agrees.after s).run ((w.apply (.intern handle s)).texts a more)
  generalize (t.after s).run ((w.apply (.intern handle s)).texts a more) = later at *
  have hnLater := getElem?_of_grown hgrown hn
  refine ⟨?_, fun s' n' answered' => ?_⟩
  · rw [lookup?, table?_eq leads' hlater, Option.map_some, Indexed.lookup, hnLater]
    rfl
  · obtain ⟨last, htry'⟩ := tryIntern_of_answer? leads' hlater answered'
    obtain ⟨rfl, hn'⟩ := hagrees.getElem?_of_tryIntern htry'
    have hnLast := getElem?_of_grown (hagrees.strings_run [s']) hnLater
    exact (hagrees.after s').eq_iff_eq hnLast hn'

/-- Of a table that is made and of all calls that follow, through whatever handles: which handles
lead to it, what it then holds, and that a name and its text stand for each other from the call that
issued the name on. -/
theorem interning_bijective (w : Interners) (calls : List Call) :
    let a := w.tables.length
    let fresh := w.apply .create
    let now := fresh.run calls
    fresh.handles[w.handles.length]? = some a ∧
      (∀ handle, now.handles[handle]? = some a →
        (now.apply (.clone handle)).handles[now.handles.length]? = some a ∧
          ∀ more, (now.run more).handles[handle]? = some a) ∧
      (∃ t, t.Holds (fresh.texts a calls) ∧
        ∀ handle, now.handles[handle]? = some a → now.table? handle = some t) ∧
      ∀ handle s n, now.handles[handle]? = some a → now.answer? handle s = some (.ok n) →
        ∀ more handle',
          let later := (now.apply (.intern handle s)).run more
          later.handles[handle']? = some a → later.lookup? handle' n = some s ∧
            ∀ s' n', later.answer? handle' s' = some (.ok n') → (n = n' ↔ s = s') := by
  intro a fresh now
  have hfresh : fresh.tables[a]? = some .initial := List.getElem?_concat_length
  have hnow : now.tables[a]? = some (Indexed.initial.run (fresh.texts a calls)) :=
    table_run hfresh calls
  refine ⟨List.getElem?_concat_length, fun handle leads => ⟨handle_clone leads, handle_run leads⟩,
    ⟨_, Indexed.holds_run _, fun handle leads => table?_eq leads hnow⟩,
    fun handle s n leads answered more handle' leads' => ?_⟩
  exact stands_run (Indexed.agrees_initial.run _) hnow leads answered more leads'

end Interners

end TaggedMatch
