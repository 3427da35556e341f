import Mathlib.Data.List.Nodup
import TaggedMatch.Pattern.Basic

/-!
# Slots in the order of declaration

A field pattern is written in any order. The check turns every entry into a slot, the position of a
part with what is to be done there, and sorts the slots by position. Going through the parts in the
order of declaration and looking each label up among the entries gives the same slots in the same
order, if no label is declared twice and no name is listed twice. Both lists ascend and have the same
members, so they are equal.
-/

namespace TaggedMatch

variable {α : Type}

/-- The slots of all parts: at each position what stands there. -/
theorem mem_slots_iff {l : List α} {slot : Nat × α} :
    slot ∈ l.zipIdx.map Prod.swap ↔ l[slot.1]? = some slot.2 := by
  rw [List.mem_map]
  constructor
  · rintro ⟨x, hx, rfl⟩
    exact List.mem_zipIdx_iff_getElem?.mp hx
  · exact fun h => ⟨slot.swap, List.mem_zipIdx_iff_getElem?.mpr h, slot.swap_swap⟩

theorem lookup_eq_some_iff_mem {named : List (Name × α)} (hnodup : (named.map (·.1)).Nodup)
    {name : Name} {a : α} : named.lookup name = some a ↔ (name, a) ∈ named := by
  induction named with
  | nil => simp
  | cons x rest ih =>
      obtain ⟨other, b⟩ := x
      rw [List.map_cons, List.nodup_cons] at hnodup
      by_cases heq : name = other
      · subst heq
        have hrest : (name, a) ∉ rest := fun h => hnodup.1 (List.mem_map.mpr ⟨_, h, rfl⟩)
        simp [hrest, eq_comm]
      · have hne : (name == other) = false := by simpa using heq
        rw [List.lookup_cons, hne, List.mem_cons]
        simp [ih hnodup.2, heq]

theorem lookup_eq_none_iff {named : List (Name × α)} {name : Name} :
    named.lookup name = none ↔ name ∉ named.map (·.1) := by
  rw [List.lookup_eq_none_iff, List.mem_map]
  simp only [bne_iff_ne, ne_eq, not_exists, not_and]
  exact forall₂_congr fun entry _ => ⟨fun h he => h he.symm, fun h he => h he.symm⟩

/-- Parts with the same label are the same part. -/
theorem position_unique {parts : List PieceDef} (hnodup : (parts.filterMap (·.label)).Nodup)
    {i j : Nat} {p q : PieceDef} {label : Name} (hp : parts[i]? = some p) (hq : parts[j]? = some q)
    (hpl : p.label = some label) (hql : q.label = some label) : i = j := by
  have hpairs := List.pairwise_iff_getElem.mp (List.pairwise_filterMap.mp hnodup)
  obtain ⟨hi, rfl⟩ := List.getElem?_eq_some_iff.mp hp
  obtain ⟨hj, rfl⟩ := List.getElem?_eq_some_iff.mp hq
  rcases Nat.lt_trichotomy i j with hij | hij | hij
  · exact absurd rfl (hpairs i j hi hj hij label hpl label hql)
  · exact hij
  · exact absurd rfl (hpairs j i hj hi hij label hql label hpl)

/-- What is to be done at the parts, in the order of declaration: at each part that has a label, what
is named by it. -/
def slotsByPart (parts : List PieceDef) (named : List (Name × α)) : List (Nat × α) :=
  parts.zipIdx.filterMap fun (part, index) =>
    (part.label.bind fun name => named.lookup name).map fun a => (index, a)

theorem lookup_map {β : Type} (f : α → β) (named : List (Name × α)) (name : Name) :
    (named.map fun x => (x.1, f x.2)).lookup name = (named.lookup name).map f := by
  induction named with
  | nil => rfl
  | cons x rest ih =>
      rw [List.map_cons, List.lookup_cons, List.lookup_cons]
      split
      · rfl
      · exact ih

theorem slotsByPart_map {β : Type} (f : α → β) (parts : List PieceDef)
    (named : List (Name × α)) :
    slotsByPart parts (named.map fun x => (x.1, f x.2)) =
      (slotsByPart parts named).map fun slot => (slot.1, f slot.2) := by
  rw [slotsByPart, slotsByPart, List.map_filterMap]
  refine List.filterMap_congr fun (part, index) _ => ?_
  dsimp only
  cases part.label with
  | none => rfl
  | some label =>
      rw [Option.bind_some, Option.bind_some, lookup_map, Option.map_map, Option.map_map]
      rfl

theorem mem_slotsByPart {parts : List PieceDef} {named : List (Name × α)}
    (hnodup : (named.map (·.1)).Nodup) {slot : Nat × α} :
    slot ∈ slotsByPart parts named ↔ ∃ part label, parts[slot.1]? = some part ∧
      part.label = some label ∧ (label, slot.2) ∈ named := by
  simp only [slotsByPart, List.mem_filterMap, Option.map_eq_some_iff, Option.bind_eq_some_iff,
    lookup_eq_some_iff_mem hnodup, Prod.exists, List.mem_zipIdx_iff_getElem?]
  constructor
  · rintro ⟨part, index, hpart, a, ⟨label, hlabel, hmem⟩, rfl⟩
    exact ⟨part, label, hpart, hlabel, hmem⟩
  · rintro ⟨part, label, hpart, hlabel, hmem⟩
    exact ⟨part, slot.1, hpart, slot.2, ⟨label, hlabel, hmem⟩, rfl⟩

theorem zipIdx_ascending (l : List α) : l.zipIdx.Pairwise fun a b => a.2 < b.2 := by
  rw [← List.pairwise_map, List.zipIdx_map_snd]
  exact List.pairwise_lt_range'

theorem slotsByPart_ascending (parts : List PieceDef) (named : List (Name × α)) :
    (slotsByPart parts named).Pairwise fun a b => a.1 < b.1 := by
  refine (zipIdx_ascending parts).filterMap _ fun x y hxy a ha b hb => ?_
  obtain ⟨-, -, rfl⟩ := Option.map_eq_some_iff.mp ha
  obtain ⟨-, -, rfl⟩ := Option.map_eq_some_iff.mp hb
  exact hxy

section Positions

variable {parts : List PieceDef} {named : List (Name × α)} {position : Name → Nat}

/-- The slots are what is named, each at the position that its name has. -/
theorem mem_slotsByPart_iff_position (hlabels : (parts.filterMap (·.label)).Nodup)
    (hnodup : (named.map (·.1)).Nodup)
    (hposition : ∀ x ∈ named, ∃ part, parts[position x.1]? = some part ∧ part.label = some x.1)
    (slot : Nat × α) :
    slot ∈ slotsByPart parts named ↔ slot ∈ named.map fun x => (position x.1, x.2) := by
  rw [mem_slotsByPart hnodup, List.mem_map]
  constructor
  · rintro ⟨part, label, hpart, hlabel, hx⟩
    obtain ⟨part', hpart', hlabel'⟩ := hposition _ hx
    exact ⟨_, hx, Prod.ext (position_unique hlabels hpart' hpart hlabel' hlabel) rfl⟩
  · rintro ⟨x, hx, rfl⟩
    obtain ⟨part, hpart, hlabel⟩ := hposition x hx
    exact ⟨part, x.1, hpart, hlabel, hx⟩

variable (position) in
/-- Names with the same position are the same name. -/
theorem nodup_positions (hnodup : (named.map (·.1)).Nodup)
    (hposition : ∀ x ∈ named, ∃ part, parts[position x.1]? = some part ∧
      part.label = some x.1) :
    ((named.map fun x => (position x.1, x.2)).map (·.1)).Nodup := by
  rw [List.map_map, List.nodup_map_iff_inj_on (List.Nodup.of_map _ hnodup)]
  intro x hx y hy hxy
  have hxy : position x.1 = position y.1 := hxy
  obtain ⟨p, hp, hpl⟩ := hposition x hx
  obtain ⟨q, hq, hql⟩ := hposition y hy
  rw [hxy, hq] at hp
  cases hp
  rw [hpl] at hql
  exact List.inj_on_of_nodup_map hnodup hx hy (Option.some.inj hql)

theorem pairwise_mergeSort_slots (slots : List (Nat × α)) :
    (slots.mergeSort fun a b => a.1 ≤ b.1).Pairwise fun a b => a.1 ≤ b.1 := by
  have htrans (a b c : Nat × α) (hab : decide (a.1 ≤ b.1) = true)
      (hbc : decide (b.1 ≤ c.1) = true) : decide (a.1 ≤ c.1) = true := by
    simp only [decide_eq_true_eq] at hab hbc ⊢
    omega
  have htotal (a b : Nat × α) : (decide (a.1 ≤ b.1) || decide (b.1 ≤ a.1)) = true := by
    simp only [Bool.or_eq_true, decide_eq_true_eq]
    omega
  exact (List.pairwise_mergeSort htrans htotal _).imp fun h => of_decide_eq_true h

/-- Slots at different positions are in ascending order when sorted. -/
theorem ascending_mergeSort_slots {slots : List (Nat × α)} (hkeys : (slots.map (·.1)).Nodup) :
    (slots.mergeSort fun a b => a.1 ≤ b.1).Pairwise fun a b => a.1 < b.1 := by
  have hperm := (List.mergeSort_perm slots fun a b => a.1 ≤ b.1).map (·.1)
  have hdistinct := List.pairwise_map.mp (hperm.nodup_iff.mpr hkeys)
  exact ((pairwise_mergeSort_slots slots).and hdistinct).imp fun h => Nat.lt_of_le_of_ne h.1 h.2

/-- Slots in ascending order are what sorting makes of them, whatever order they were in. -/
theorem mergeSort_slots_of_perm {slots sorted : List (Nat × α)} (hperm : slots.Perm sorted)
    (hascending : sorted.Pairwise fun a b => a.1 < b.1) :
    (slots.mergeSort fun a b => a.1 ≤ b.1) = sorted := by
  have hkeys : (sorted.map (·.1)).Nodup :=
    List.pairwise_map.mpr (hascending.imp fun h => Nat.ne_of_lt h)
  have hsorted := (List.mergeSort_perm slots fun a b => a.1 ≤ b.1).trans hperm
  refine List.Perm.eq_of_pairwise (fun a b ha hb hab hba => ?_) (pairwise_mergeSort_slots _)
    (hascending.imp fun h => Nat.le_of_lt h) hsorted
  exact List.inj_on_of_nodup_map hkeys (hsorted.mem_iff.mp ha) hb (Nat.le_antisymm hab hba)

/-- Sorting the slots of entries gives them in the order in which the parts are declared. -/
theorem sorted_slots (hlabels : (parts.filterMap (·.label)).Nodup)
    (hnodup : (named.map (·.1)).Nodup)
    (hposition : ∀ x ∈ named, ∃ part, parts[position x.1]? = some part ∧
      part.label = some x.1) :
    ((named.map fun x => (position x.1, x.2)).mergeSort fun a b => a.1 ≤ b.1) =
      slotsByPart parts named := by
  have hkeys := nodup_positions position hnodup hposition
  have hmem := mem_slotsByPart_iff_position hlabels hnodup hposition
  have hperm : (named.map fun x => (position x.1, x.2)).Perm (slotsByPart parts named) := by
    refine (List.perm_ext_iff_of_nodup (List.Nodup.of_map _ hkeys) ?_).mpr
      fun slot => (hmem slot).symm
    exact (slotsByPart_ascending parts named).imp fun hlt heq => by rw [heq] at hlt; omega
  exact mergeSort_slots_of_perm hperm (slotsByPart_ascending parts named)

end Positions

/-! ## Entries -/

section Entries

variable {parts : List PieceDef} {entries : List (FieldEntry α)} {position : Name → Nat}

/-- The entries at the parts that they name, in the order in which the parts are declared. -/
def entrySlots (parts : List PieceDef) (entries : List (FieldEntry α)) :
    List (Nat × FieldEntry α) :=
  slotsByPart parts (entries.map fun e => (e.name, e))

theorem slotsByPart_entries {β : Type} (f : FieldEntry α → β) :
    slotsByPart parts (entries.map fun e => (e.name, f e)) =
      (entrySlots parts entries).map fun slot => (slot.1, f slot.2) := by
  rw [entrySlots, ← slotsByPart_map f, List.map_map]
  rfl

/-- Where no part has a label, no part is named. -/
theorem entrySlots_unlabelled (elements : List TypeId) :
    entrySlots (elements.map fun ty => ⟨none, ty⟩) entries = [] := by
  rw [entrySlots, slotsByPart, List.filterMap_eq_nil_iff]
  rintro ⟨part, index⟩ hpart
  obtain ⟨element, -, rfl⟩ := List.mem_map.mp (List.fst_mem_of_mem_zipIdx hpart)
  rfl

theorem mem_entrySlots (hlabels : (parts.filterMap (·.label)).Nodup)
    (distinct : (entries.map (·.name)).Nodup)
    (hposition : ∀ e ∈ entries, ∃ part, parts[position e.name]? = some part ∧
      part.label = some e.name) {slot : Nat × FieldEntry α} :
    slot ∈ entrySlots parts entries ↔ ∃ e ∈ entries, (position e.name, e) = slot := by
  rw [entrySlots, mem_slotsByPart_iff_position hlabels (by simpa [Function.comp_def] using distinct)
    (by simpa using hposition), List.map_map, List.mem_map]
  rfl

theorem sorted_entries {β : Type} (f : FieldEntry α → β)
    (hlabels : (parts.filterMap (·.label)).Nodup) (distinct : (entries.map (·.name)).Nodup)
    (hposition : ∀ e ∈ entries, ∃ part, parts[position e.name]? = some part ∧
      part.label = some e.name) :
    ((entries.map fun e => (position e.name, f e)).mergeSort fun a b => a.1 ≤ b.1) =
      (entrySlots parts entries).map fun slot => (slot.1, f slot.2) := by
  have hnodup : ((entries.map fun e => (e.name, f e)).map (·.1)).Nodup := by
    rw [List.map_map]
    exact distinct
  have hnamed : ∀ x ∈ entries.map (fun e => (e.name, f e)), ∃ part,
      parts[position x.1]? = some part ∧ part.label = some x.1 := by
    simpa using hposition
  have hsorted := sorted_slots hlabels hnodup hnamed
  rw [slotsByPart_entries, List.map_map] at hsorted
  exact hsorted

end Entries

end TaggedMatch
