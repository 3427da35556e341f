import Mathlib.Data.Finset.Basic
import TaggedMatch.Proofs.Registry.Rendering
import TaggedMatch.Proofs.Value.DefaultConstruction

/-!
# The question whether a type has a default

`HasDefault` answers it by derivations: what a type needs for a default has one, and so on down to
types that need nothing. `Registry.search` is the way a program finds out. It keeps a set of the
types that it is in the middle of, and answers no where it meets one of them again; what it answers
on the way therefore depends on how it got there. That the answer at the top does not is the content
of this file (`hasDefault_iff_isDefaultConstructible`).

One direction is a walk along the search. For the other, suppose that a type needs only what has a
default, but has none itself. Then the type is of no use to any of its parts, since whatever goes
through it fails (`isConstructibleWithin_erase`); so the parts can be built without it, and it can
be built from them after all. Sharing a part is no circle for the same reason: asked again from the
top, the question about a part is answered without looking at what else needs it.

The search also puts its set back as it found it, and it ends: the types that it is not yet in the
middle of become fewer with each step down.
-/

namespace TaggedMatch

open Relation

/-- Whether a default of this kind can be made, given defaults of all that the kind needs. -/
def TypeKind.composes : TypeKind → Bool
  | .int | .bool | .char | .str | .unit | .pointer _ | .aggregate _ | .tuple _ => true
  | .enumeration d => !d.constants.isEmpty
  | .union d => !d.alternatives.isEmpty
  | .extension _ | .declared => false

/-- The types whose defaults are parts of a default of this kind. A pointer's default is null, and a
union's is of its first alternative. -/
def TypeKind.needs : TypeKind → List TypeId
  | .union d => d.alternatives.head?.toList.map (·.payload)
  | .aggregate d => d.fields.map (·.ty)
  | .tuple elements => elements
  | .int | .bool | .char | .str | .unit | .pointer _ | .enumeration _ | .extension _
  | .declared => []

namespace Registry

/-- A default of the type has a default of `part` as a part. -/
def Needs (r : Registry) (ty part : TypeId) : Prop :=
  ∃ kind, r.kind? ty = some kind ∧ part ∈ kind.needs

/-- `r.HasDefault ty`: that the type has a default follows in finitely many steps from what the
registry holds. -/
inductive HasDefault (r : Registry) : TypeId → Prop
  | int {ty} (h : r.kind? ty = some .int) : HasDefault r ty
  | bool {ty} (h : r.kind? ty = some .bool) : HasDefault r ty
  | char {ty} (h : r.kind? ty = some .char) : HasDefault r ty
  | str {ty} (h : r.kind? ty = some .str) : HasDefault r ty
  | unit {ty} (h : r.kind? ty = some .unit) : HasDefault r ty
  | pointer {ty pointee} (h : r.kind? ty = some (.pointer pointee)) : HasDefault r ty
  | enumeration {ty d} (h : r.kind? ty = some (.enumeration d)) (some : d.constants ≠ []) :
      HasDefault r ty
  | union {ty d first rest} (h : r.kind? ty = some (.union d))
      (alternatives : d.alternatives = first :: rest) (payload : HasDefault r first.payload) :
      HasDefault r ty
  | aggregate {ty d} (h : r.kind? ty = some (.aggregate d))
      (fields : ∀ field ∈ d.fields, HasDefault r field.ty) : HasDefault r ty
  | tuple {ty elements} (h : r.kind? ty = some (.tuple elements))
      (items : ∀ element ∈ elements, HasDefault r element) : HasDefault r ty

variable {r : Registry} {ty part : TypeId} {fresh : List TypeId}

/-! ## Derivations -/

theorem HasDefault.of_kind {kind : TypeKind} (hkind : r.kind? ty = some kind)
    (hcomposes : kind.composes = true) (hneeds : ∀ part ∈ kind.needs, r.HasDefault part) :
    r.HasDefault ty := by
  cases kind with
  | int => exact .int hkind
  | bool => exact .bool hkind
  | char => exact .char hkind
  | str => exact .str hkind
  | unit => exact .unit hkind
  | pointer => exact .pointer hkind
  | enumeration => exact .enumeration hkind (by simpa [TypeKind.composes] using hcomposes)
  | union d =>
      cases halternatives : d.alternatives with
      | nil => simp [TypeKind.composes, halternatives] at hcomposes
      | cons first rest =>
          exact .union hkind halternatives (hneeds _ (by simp [TypeKind.needs, halternatives]))
  | aggregate => exact .aggregate hkind (List.forall_mem_map.mp hneeds)
  | tuple => exact .tuple hkind hneeds
  | extension | declared => cases hcomposes

/-- What is shown of a type from what it needs is shown of all types that have a default. -/
theorem HasDefault.induct {motive : TypeId → Prop} (h : r.HasDefault ty)
    (step : ∀ ty kind, r.kind? ty = some kind → kind.composes = true →
      (∀ part ∈ kind.needs, motive part) → motive ty) : motive ty := by
  induction h with
  | int h | bool h | char h | str h | unit h | pointer h =>
      exact step _ _ h rfl fun _ hp => nomatch hp
  | enumeration h hsome =>
      exact step _ _ h (by simpa [TypeKind.composes] using hsome) fun _ hp => nomatch hp
  | union h halternatives _ ih =>
      refine step _ _ h (by simp [TypeKind.composes, halternatives]) fun part hpart => ?_
      simp only [TypeKind.needs, halternatives, List.head?_cons, Option.toList_some, List.map_cons,
        List.map_nil, List.mem_singleton] at hpart
      rwa [hpart]
  | aggregate h _ ih => exact step _ _ h rfl (List.forall_mem_map.mpr ih)
  | tuple h _ ih => exact step _ _ h rfl ih

/-- A type that has a default does not lead to one that needs itself. -/
theorem HasDefault.acyclic (h : r.HasDefault ty) (hleads : ReflTransGen r.Needs ty part) :
    ¬ TransGen r.Needs part part := by
  refine h.induct (motive := fun ty => ReflTransGen r.Needs ty part → _)
    (fun ty kind hkind _ ih hleads hcircle => ?_) hleads
  -- From the type it goes on to one of its parts: towards `part`, or around the circle.
  have hon : TransGen r.Needs ty part := by
    rcases reflTransGen_iff_eq_or_transGen.mp hleads with rfl | hon
    · exact hcircle
    · exact hon
  obtain ⟨next, ⟨kind', hkind', hnext⟩, hrest⟩ := TransGen.head'_iff.mp hon
  cases hkind.symm.trans hkind'
  exact ih next hnext hrest hcircle

/-! ## Whether there is a default within some types -/

theorem isConstructibleWithin_iff :
    r.isConstructibleWithin fresh ty = true ↔
      ty ∈ fresh ∧ ∃ kind, r.kind? ty = some kind ∧ kind.composes = true ∧
        ∀ part ∈ kind.needs, r.isConstructibleWithin (fresh.erase ty) part = true := by
  rw [isConstructibleWithin]
  split
  case isFalse hmem => simp [hmem]
  case isTrue hmem =>
    cases r.kind? ty with
    | none => simp
    | some kind =>
        cases kind with
        | union d => cases halternatives : d.alternatives <;>
            simp [hmem, TypeKind.composes, TypeKind.needs, halternatives]
        | int | bool | char | str | unit | pointer | enumeration | aggregate | tuple | extension
        | declared => simp [hmem, TypeKind.composes, TypeKind.needs]

theorem isConstructibleWithin_mono {fresh' : List TypeId} (hnodup : fresh.Nodup)
    (hsub : fresh ⊆ fresh') (h : r.isConstructibleWithin fresh ty = true) :
    r.isConstructibleWithin fresh' ty = true := by
  rw [← Value.isSome_defaultWithin?, Option.isSome_iff_exists] at h ⊢
  obtain ⟨v, hv⟩ := h
  exact ⟨v, Value.defaultWithin?_extends (.refl r) hnodup hsub hv⟩

/-- What is shown of a type within some types, from what it needs within those left, is shown
wherever the answer is yes. -/
theorem isConstructibleWithin_induct {motive : List TypeId → TypeId → Prop}
    (h : r.isConstructibleWithin fresh ty = true)
    (step : ∀ fresh ty kind, ty ∈ fresh → r.isConstructibleWithin fresh ty = true →
      r.kind? ty = some kind → kind.composes = true →
      (∀ part ∈ kind.needs, motive (fresh.erase ty) part) → motive fresh ty) :
    motive fresh ty := by
  induction hlength : fresh.length generalizing fresh ty with
  | zero =>
      have hmem := (isConstructibleWithin_iff.mp h).1
      rw [List.length_eq_zero_iff.mp hlength] at hmem
      cases hmem
  | succ n ih =>
      obtain ⟨hmem, kind, hkind, hcomposes, hneeds⟩ := isConstructibleWithin_iff.mp h
      refine step fresh ty kind hmem h hkind hcomposes fun part hpart => ih (hneeds part hpart) ?_
      rw [List.length_erase_of_mem hmem, hlength, Nat.add_sub_cancel]

theorem hasDefault_of_isConstructibleWithin (h : r.isConstructibleWithin fresh ty = true) :
    r.HasDefault ty :=
  isConstructibleWithin_induct (motive := fun _ ty => r.HasDefault ty) h
    fun _ _ _ _ _ hkind hcomposes ih => .of_kind hkind hcomposes ih

/-- A type without a default is of no use: what can be built at all can be built without it. -/
theorem isConstructibleWithin_erase {fewer : List TypeId} (hnodup : fewer.Nodup)
    (hsub : fewer ⊆ fresh) (hnone : r.isConstructibleWithin fresh ty = false)
    (h : r.isConstructibleWithin fewer part = true) :
    r.isConstructibleWithin (fewer.erase ty) part = true := by
  refine isConstructibleWithin_induct (motive := fun fewer part => fewer.Nodup → fewer ⊆ fresh →
    r.isConstructibleWithin (fewer.erase ty) part = true) h
    (fun fewer part kind hmem hbuilt hkind hcomposes ih hnodup hsub => ?_) hnodup hsub
  have hne : part ≠ ty := by
    rintro rfl
    rw [isConstructibleWithin_mono hnodup hsub hbuilt] at hnone
    cases hnone
  refine isConstructibleWithin_iff.mpr
    ⟨(List.mem_erase_of_ne hne).mpr hmem, kind, hkind, hcomposes, fun deeper hdeeper => ?_⟩
  rw [List.erase_comm]
  exact ih deeper hdeeper (hnodup.erase part) (List.Subset.trans List.erase_subset hsub)

theorem mem_ids_of_kind? {kind : TypeKind} (h : r.kind? ty = some kind) : ty ∈ r.ids :=
  List.mem_map.mpr ⟨ty.index, List.mem_range.mpr (index_lt_of_kind? h), rfl⟩

/-- What a type needs may be asked about anew, as if nothing were in progress. -/
theorem isDefaultConstructible_iff :
    r.isDefaultConstructible ty = true ↔ ∃ kind, r.kind? ty = some kind ∧ kind.composes = true ∧
      ∀ part ∈ kind.needs, r.isDefaultConstructible part = true := by
  constructor
  · intro h
    obtain ⟨-, kind, hkind, hcomposes, hneeds⟩ := isConstructibleWithin_iff.mp h
    exact ⟨kind, hkind, hcomposes, fun part hpart =>
      isConstructibleWithin_mono ((Value.nodup_ids r).erase ty) List.erase_subset
        (hneeds part hpart)⟩
  · rintro ⟨kind, hkind, hcomposes, hneeds⟩
    by_contra hnone
    rw [Bool.not_eq_true] at hnone
    -- The parts do without the type, so it could be built from them.
    have hparts : ∀ part ∈ kind.needs, r.isConstructibleWithin (r.ids.erase ty) part = true :=
      fun part hpart => isConstructibleWithin_erase (Value.nodup_ids r) (List.Subset.refl _) hnone
        (hneeds part hpart)
    have hyes : r.isDefaultConstructible ty = true :=
      isConstructibleWithin_iff.mpr ⟨mem_ids_of_kind? hkind, kind, hkind, hcomposes, hparts⟩
    rw [hnone] at hyes
    cases hyes

theorem hasDefault_iff_isDefaultConstructible :
    r.HasDefault ty ↔ r.isDefaultConstructible ty = true := by
  constructor
  · intro h
    exact h.induct (motive := fun ty => r.isDefaultConstructible ty = true)
      fun ty kind hkind hcomposes ih => isDefaultConstructible_iff.mpr ⟨kind, hkind, hcomposes, ih⟩
  · exact hasDefault_of_isConstructibleWithin

/-! ## The search with a set -/

/-- Computations on the set of the types in progress. -/
abbrev Search := StateT (Finset TypeId) Option

/-- What is asked about the parts of a type, by its kind. It stops at the first part without a
default. -/
def searchParts (search : TypeId → Search Bool) : Option TypeKind → Search Bool
  | some .int | some .bool | some .char | some .str | some .unit | some (.pointer _) => pure true
  | some (.enumeration d) => pure !d.constants.isEmpty
  | some (.union d) =>
      match d.alternatives with
      | [] => pure false
      | first :: _ => search first.payload
  | some (.aggregate d) => d.fields.allM fun field => search field.ty
  | some (.tuple elements) => elements.allM search
  | some (.extension _) | some .declared | none => pure false

/-- Looks for a default of a type; there is no outcome where the search goes further down than
`depth`. -/
def search (r : Registry) : Nat → TypeId → Search Bool
  | 0, _ => failure
  | depth + 1, ty => do
      if ty ∈ (← get) then return false
      modify (insert ty)
      let answer ← searchParts (r.search depth) (r.kind? ty)
      modify (·.erase ty)
      return answer

theorem search_of_mem {depth : Nat} {s : Finset TypeId} (h : ty ∈ s) :
    (r.search (depth + 1) ty).run s = some (false, s) := by
  simp [search, h]

theorem search_of_not_mem {depth : Nat} {s : Finset TypeId} (h : ty ∉ s) :
    (r.search (depth + 1) ty).run s =
      ((searchParts (r.search depth) (r.kind? ty)).run (insert ty s)).map
        fun (answer, after) => (answer, after.erase ty) := by
  simp [search, h, Option.map_eq_bind]

/-! ## What the search leaves behind -/

/-- Whatever it comes to, the set is afterwards what it was before. -/
def Restores (m : Search Bool) : Prop :=
  ∀ s answer after, m.run s = some (answer, after) → after = s

theorem restores_pure (answer : Bool) : Restores (pure answer) := by
  intro s _ _ h
  cases h
  rfl

theorem restores_allM {α : Type} {p : α → Search Bool} {as : List α}
    (h : ∀ a ∈ as, Restores (p a)) : Restores (as.allM p) := by
  induction as with
  | nil => exact restores_pure true
  | cons a as ih =>
      rw [List.forall_mem_cons] at h
      intro s answer after hrun
      simp only [List.allM, StateT.run_bind, Option.bind_eq_bind, Option.bind_eq_some_iff] at hrun
      obtain ⟨⟨first, middle⟩, hfirst, hrest⟩ := hrun
      obtain rfl := h.1 s first middle hfirst
      cases first with
      | true => exact ih h.2 middle answer after hrest
      | false => exact restores_pure false middle answer after hrest

theorem restores_searchParts {search : TypeId → Search Bool} (h : ∀ part, Restores (search part))
    (kind : Option TypeKind) : Restores (searchParts search kind) := by
  cases kind with
  | none => exact restores_pure false
  | some kind =>
      cases kind with
      | int | bool | char | str | unit | pointer | declared | enumeration | extension =>
          exact restores_pure _
      | union d =>
          rw [searchParts]
          split
          · exact restores_pure false
          · exact h _
      | aggregate d => exact restores_allM fun field _ => h field.ty
      | tuple elements => exact restores_allM fun element _ => h element

theorem restores_search (r : Registry) (depth : Nat) (ty : TypeId) :
    Restores (r.search depth ty) := by
  induction depth generalizing ty with
  | zero => exact fun s answer after h => nomatch h
  | succ depth ih =>
      intro s answer after h
      by_cases hprogress : ty ∈ s
      · rw [search_of_mem hprogress] at h
        cases h
        rfl
      · rw [search_of_not_mem hprogress, Option.map_eq_some_iff] at h
        obtain ⟨⟨inner, below⟩, hbelow, heq⟩ := h
        cases heq
        rw [restores_searchParts ih _ _ _ _ hbelow, Finset.erase_insert hprogress]

/-! ## What the search answers -/

/-- A search over a list leaves the state alone if the search of each member does. -/
theorem allM_run {α : Type} {p : α → Search Bool} {f : α → Bool} {s : Finset TypeId} {as : List α}
    (h : ∀ a ∈ as, (p a).run s = some (f a, s)) : (as.allM p).run s = some (as.all f, s) := by
  induction as with
  | nil => rfl
  | cons a as ih =>
      rw [List.forall_mem_cons] at h
      simp only [List.allM, StateT.run_bind, h.1, Option.bind_eq_bind, Option.bind_some,
        List.all_cons]
      cases f a with
      | true => exact ih h.2
      | false => rfl

theorem searchParts_run {search : TypeId → Search Bool} {f : TypeId → Bool} {s : Finset TypeId}
    {kind : TypeKind} (h : ∀ part ∈ kind.needs, (search part).run s = some (f part, s)) :
    (searchParts search (some kind)).run s = some (kind.composes && kind.needs.all f, s) := by
  cases kind with
  | int | bool | char | str | unit | pointer | declared | extension => rfl
  | enumeration => simp [searchParts, TypeKind.composes, TypeKind.needs]
  | union d =>
      cases halternatives : d.alternatives with
      | nil => simp [searchParts, TypeKind.composes, halternatives]
      | cons first rest =>
          simpa [searchParts, TypeKind.composes, TypeKind.needs, halternatives] using h
  | aggregate d =>
      simp only [TypeKind.needs, List.forall_mem_map] at h
      simpa [searchParts, TypeKind.composes, TypeKind.needs, Function.comp_def] using allM_run h
  | tuple elements => simpa [searchParts, TypeKind.composes, TypeKind.needs] using allM_run h

/-- The types that are not in progress. -/
def freshFor (r : Registry) (inProgress : Finset TypeId) : List TypeId :=
  r.ids.filter (· ∉ inProgress)

theorem mem_freshFor {s : Finset TypeId} : ty ∈ r.freshFor s ↔ ty ∈ r.ids ∧ ty ∉ s := by
  simp [freshFor]

theorem freshFor_insert (r : Registry) (ty : TypeId) (s : Finset TypeId) :
    r.freshFor (insert ty s) = (r.freshFor s).erase ty := by
  rw [freshFor, freshFor, ((Value.nodup_ids r).filter _).erase_eq_filter, List.filter_filter]
  refine List.filter_congr fun other _ => ?_
  simp only [Finset.mem_insert, not_or, Bool.decide_and, decide_not, bne, beq_eq_decide]

/-- The search answers what the question within the types not in progress does, and leaves its set
as it was. -/
theorem search_run {depth : Nat} {s : Finset TypeId} (hdepth : (r.freshFor s).length < depth) :
    (r.search depth ty).run s = some (r.isConstructibleWithin (r.freshFor s) ty, s) := by
  induction depth generalizing ty s with
  | zero => cases hdepth
  | succ depth ih =>
      by_cases hprogress : ty ∈ s
      · have hno : r.isConstructibleWithin (r.freshFor s) ty = false := by
          rw [isConstructibleWithin, dif_neg fun hmem => (mem_freshFor.mp hmem).2 hprogress]
        rw [hno, search_of_mem hprogress]
      · rw [search_of_not_mem hprogress]
        cases hkind : r.kind? ty with
        | none =>
            have hno : r.isConstructibleWithin (r.freshFor s) ty = false := by
              rw [← Bool.not_eq_true, isConstructibleWithin_iff, hkind]
              simp
            rw [hno]
            simp [searchParts, hprogress]
        | some kind =>
            have hmem : ty ∈ r.freshFor s := mem_freshFor.mpr ⟨mem_ids_of_kind? hkind, hprogress⟩
            have hless : (r.freshFor (insert ty s)).length < depth := by
              have hpos := List.length_pos_of_mem hmem
              rw [freshFor_insert, List.length_erase_of_mem hmem]
              omega
            have hanswer : (kind.composes && kind.needs.all fun part =>
                r.isConstructibleWithin (r.freshFor (insert ty s)) part) =
                  r.isConstructibleWithin (r.freshFor s) ty := by
              rw [freshFor_insert, Bool.eq_iff_iff, isConstructibleWithin_iff, hkind]
              simp [hmem]
            rw [searchParts_run fun part _ => ih hless, hanswer, Option.map_some]
            simp only [Finset.erase_insert hprogress]

theorem length_freshFor_le (r : Registry) (s : Finset TypeId) :
    (r.freshFor s).length ≤ r.size :=
  Nat.le_trans (List.length_filter_le _ _) (Nat.le_of_eq (Value.length_ids r))

theorem freshFor_empty (r : Registry) : r.freshFor ∅ = r.ids :=
  List.filter_eq_self.mpr fun _ _ => by simp

/-- What can be relied on when asking a registry whether a type has a default. -/
structure DecidesDefaults (r : Registry) : Prop where
  /-- The search ends, whatever is in progress. -/
  ends : ∀ ty inProgress depth, r.size < depth →
    ∃ answer, (r.search depth ty).run inProgress = some (answer, inProgress)
  restores : ∀ depth ty, Restores (r.search depth ty)
  answers : ∀ ty depth, r.size < depth →
    (r.search depth ty).run ∅ = some (r.isDefaultConstructible ty, ∅)
  derivable_iff : ∀ ty, r.isDefaultConstructible ty = true ↔ r.HasDefault ty
  /-- A part is judged by itself, however many types share it. -/
  shared : ∀ ty kind, r.kind? ty = some kind →
    r.isDefaultConstructible ty = (kind.composes && kind.needs.all r.isDefaultConstructible)
  /-- A type that needs itself has no default, and neither has one that leads there. -/
  circular : ∀ ty part, ReflTransGen r.Needs ty part → TransGen r.Needs part part →
    r.isDefaultConstructible ty = false
  unknown : ∀ ty, r.knows ty = false → r.isDefaultConstructible ty = false

theorem decidesDefaults (r : Registry) : DecidesDefaults r := by
  constructor
  case ends =>
    intro ty inProgress depth hdepth
    exact ⟨_, search_run (Nat.lt_of_le_of_lt (length_freshFor_le r inProgress) hdepth)⟩
  case restores => exact fun depth ty => restores_search r depth ty
  case answers =>
    intro ty depth hdepth
    rw [search_run (Nat.lt_of_le_of_lt (length_freshFor_le r ∅) hdepth), freshFor_empty]
    rfl
  case derivable_iff => exact fun ty => hasDefault_iff_isDefaultConstructible.symm
  case shared =>
    intro ty kind hkind
    rw [Bool.eq_iff_iff, isDefaultConstructible_iff, hkind]
    simp
  case circular =>
    intro ty part hleads hcircle
    rw [← Bool.not_eq_true, ← hasDefault_iff_isDefaultConstructible]
    exact fun h => h.acyclic hleads hcircle
  case unknown =>
    intro ty hunknown
    rw [← Bool.not_eq_true] at hunknown ⊢
    rw [isDefaultConstructible_iff]
    exact fun ⟨kind, hkind, _⟩ => hunknown (knows_iff.mpr ⟨kind, hkind⟩)

/-- Two places of a tuple may be of one type, though not of the tuple's own. -/
example :
    let r := Registry.fresh.run [.enumeration "Color" ["Red"], .tuple [⟨5⟩, ⟨5⟩],
      .tuple [⟨6⟩, ⟨5⟩], .tuple [⟨5⟩, ⟨8⟩]]
    r.isDefaultConstructible ⟨7⟩ = true ∧ r.isDefaultConstructible ⟨8⟩ = false := by
  with_unfolding_all decide

end Registry

end TaggedMatch
