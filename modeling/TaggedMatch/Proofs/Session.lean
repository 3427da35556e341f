import TaggedMatch.Proofs.Host.Meeting
import TaggedMatch.Proofs.Value.Construct
import TaggedMatch.Proofs.Value.Growth
import TaggedMatch.UnionCell

/-!
# Programs that work with values

A session is what a program has at one time: the registry, the values it holds and its cells. It
starts with a fresh registry and nothing else. A step is one call: an operation of the registry, a
call that makes a value from held ones, or a call that makes or changes a cell. The program may hold
on to everything it ever had, so nothing is dropped, and overwriting a pointee in place is one more
value beside the old one.

Conformance looks at nominal values from outside only. That it means anything rests on the invariant
of this module: whatever is held, every nominal value inside it is sound by the definition that the
registry has at the time. Three things keep it: the factories check what they build, the construction
of defaults follows the types, and a registry that grows changes its mind about no type.
-/

namespace TaggedMatch

/-- The values in a cell: the one it holds and the one it falls back to. -/
def UnionCell.held (c : UnionCell) : List Value :=
  (c.current.toList ++ c.fallback.toList).map (·.toValue)

/-- The registry, the values and the cells of a program. -/
structure Session where
  registry : Registry
  values : List Value
  cells : List UnionCell

namespace Session

/-- What a program has before its first step. -/
def start : Session := ⟨.fresh, [], []⟩

/-- The values that a program has at hand, those in its cells included. -/
def held (s : Session) : List Value := s.values ++ s.cells.flatMap (·.held)

/-- `s.Yields v`: one call makes `v` from values that are held.

A match is run with any host whose objects answer held values. Values that guards or objects make
during the match are no exception: what they are made of is met before them, so they can be made in
the same way before the match. -/
inductive Yields (s : Session) : Value → Prop
  | int (n : Int64) : Yields s (.int n)
  | bool (b : Bool) : Yields s (.bool b)
  | char (c : Char) : Yields s (.char c)
  | str (text : String) : Yields s (.str text)
  | unit : Yields s .unit
  | null : Yields s .null
  | tuple {items : List Value} (given : ∀ item ∈ items, item ∈ s.held) : Yields s (.tuple items)
  | pointer {pointee : Value} (given : pointee ∈ s.held) : Yields s (.pointer pointee)
  | extension (ty : TypeId) (object : ObjectId) : Yields s (.extension ty object)
  | constant {ty : TypeId} {constant : String} {v : Value}
      (made : Value.ofConstant s.registry ty constant = .ok v) : Yields s v
  | aggregate {ty : TypeId} {fields : List Value} {v : Value}
      (given : ∀ field ∈ fields, field ∈ s.held)
      (made : Value.ofFields s.registry ty fields = .ok v) : Yields s v
  | construct {ty : TypeId} {alternative : String} {payload : Value} {u : UnionValue}
      (given : payload ∈ s.held)
      (made : UnionValue.construct s.registry ty alternative payload = .ok u) : Yields s u.toValue
  /-- A constructor that was looked up earlier is the one that is found now. -/
  | build {ty : TypeId} {d : UnionDef} {alternative : String} {c : UnionDef.Constructor}
      {payload : Value} {u : UnionValue} (given : payload ∈ s.held)
      (union : s.registry.unionDef ty = .ok d) (found : d.constructor s.registry alternative = .ok c)
      (made : c.build s.registry payload = .ok u) : Yields s u.toValue
  | default {ty : TypeId} {v : Value} (made : Value.default s.registry ty = .ok v) : Yields s v
  | unionDefault {ty : TypeId} {u : UnionValue} (made : UnionValue.default s.registry ty = .ok u) :
      Yields s u.toValue
  | defaultAlternative {ty : TypeId} {d : UnionDef} {discriminator : Nat} {u : UnionValue}
      (union : s.registry.unionDef ty = .ok d)
      (made : d.defaultAlternative s.registry discriminator = .ok u) : Yields s u.toValue
  | part {v p : Value} (given : v ∈ s.held) (h : p ∈ v.parts) : Yields s p
  | overwritten {new v v' : Value} {depth : Nat} (newGiven : new ∈ s.held) (given : v ∈ s.held)
      (made : Value.overwrite new depth v = some v') : Yields s v'
  | bound {γ σ : Type} {host : Host γ σ} {pattern : Compiled γ} {v w : Value} {outer : Lookup}
      {before after : σ} {bindings : Bindings} {name : Name} (given : v ∈ s.held)
      (answers : ∀ object answer, host.Answers object answer → answer ∈ s.held)
      (matched : (pattern.run host v outer).run before = (.ok (some bindings), after))
      (h : (name, w) ∈ bindings) : Yields s w

/-- One call of a program. -/
inductive Step (s : Session) : Session → Prop
  | operate (operation : Operation) : Step s { s with registry := s.registry.apply operation }
  | hold {v : Value} (h : s.Yields v) : Step s { s with values := v :: s.values }
  | newCell {policy : CellPolicy} {initial : UnionValue} {c : UnionCell}
      (given : initial.toValue ∈ s.held) (made : UnionCell.new s.registry policy initial = .ok c) :
      Step s { s with cells := c :: s.cells }
  | defaultCell {policy : CellPolicy} {ty : TypeId} {c : UnionCell}
      (made : UnionCell.withDefault s.registry policy ty = .ok c) :
      Step s { s with cells := c :: s.cells }
  | assign {index : Nat} {c c' : UnionCell} {u : UnionValue} (found : s.cells[index]? = some c)
      (given : u.toValue ∈ s.held) (made : c.assign u = .ok c') :
      Step s { s with cells := s.cells.set index c' }
  | assignWith {index : Nat} {c : UnionCell} {built : Except EvalError UnionValue}
      (found : s.cells[index]? = some c) (given : ∀ u, built = .ok u → u.toValue ∈ s.held) :
      Step s { s with cells := s.cells.set index (c.assignWith built).2 }

/-- The sessions that a program can come to. -/
inductive Reachable : Session → Prop
  | start : Reachable Session.start
  | step {s s' : Session} (h : Reachable s) (hstep : Step s s') : Reachable s'

/-! ## The invariant -/

/-- The registry is one that operations lead to, and everything that is held is well formed. -/
structure Invariant (s : Session) : Prop where
  registry : s.registry.Reachable
  wellFormed : ∀ v ∈ s.held, v.WellFormed s.registry

theorem Invariant.consistent {s : Session} (hs : s.Invariant) : s.registry.Consistent :=
  hs.registry.consistent

theorem mem_held_of_cell {s : Session} {c : UnionCell} (hc : c ∈ s.cells) {v : Value}
    (hv : v ∈ c.held) : v ∈ s.held :=
  List.mem_append_right _ (List.mem_flatMap.mpr ⟨c, hc, hv⟩)

/-- A match comes upon well-formed values only, if it starts at one and objects answer none else. -/
theorem wellFormed_of_meets {r : Registry} {γ σ : Type} {host : Host γ σ}
    (answers : ∀ object answer, host.Answers object answer → answer.WellFormed r) {v w : Value}
    (hv : v.WellFormed r) (h : host.Meets v w) : w.WellFormed r :=
  h.closed ⟨fun hv hp => hv.part hp, fun _ hw => answers _ _ hw⟩ hv

theorem Yields.wellFormed {s : Session} (hs : s.Invariant) {v : Value} (h : s.Yields v) :
    v.WellFormed s.registry := by
  have plain {v : Value} (hv : v.Sound s.registry) (hparts : v.parts = []) :
      v.WellFormed s.registry :=
    .of_parts hv fun p hp => by
      rw [hparts] at hp
      cases hp
  cases h with
  | int | bool | char | str | unit | null | extension => exact plain trivial rfl
  | tuple given => exact .of_parts trivial fun p hp => hs.wellFormed p (given p hp)
  | pointer given =>
      refine .of_parts trivial fun p hp => ?_
      rw [List.mem_singleton.mp hp]
      exact hs.wellFormed _ given
  | constant made => exact Value.wellFormed_ofConstant hs.consistent made
  | aggregate given made =>
      exact Value.wellFormed_ofFields hs.consistent (fun v hv => hs.wellFormed v (given v hv)) made
  | construct given made =>
      exact wellFormed_construct hs.consistent (hs.wellFormed _ given) made
  | build given union found made =>
      exact wellFormed_build hs.consistent union found (hs.wellFormed _ given) made
  | default made => exact wellFormed_default hs.consistent made
  | unionDefault made => exact wellFormed_unionDefault hs.consistent made
  | defaultAlternative union made =>
      exact wellFormed_defaultAlternative hs.consistent (union?_of_unionDef hs.consistent union) made
  | part given hp => exact (hs.wellFormed _ given).part hp
  | overwritten newGiven given made => exact (hs.wellFormed _ newGiven).overwrite made
  | bound given answers matched hw =>
      refine wellFormed_of_meets (fun object answer h => ?_) (hs.wellFormed _ given)
        (Compiled.meets_of_run matched hw)
      exact hs.wellFormed answer (answers object answer h)

end Session

/-! ## Cells

A cell gets its values from outside but for the one that it falls back to, which is a default. -/

namespace UnionCell

variable {r : Registry} {policy : CellPolicy}

theorem mem_held {c : UnionCell} {v : Value} :
    v ∈ c.held ↔ ∃ u, (c.current = some u ∨ c.fallback = some u) ∧ u.toValue = v := by
  simp [held, Option.mem_toList, or_and_right, exists_or]

/-- Only a cell that falls back is prepared, and with the default of the alternative that its union
names, by the definition that the registry has now. -/
theorem prepare_eq_ok {d : UnionDef} {fallback : Option UnionValue}
    (h : policy.prepare r d = .ok fallback) :
    policy ≠ .fallbackToEmpty ∧ fallback = none ∨
      ∃ index current empty, d.emptyIndex? = some index ∧ r.unionDef d.ty = .ok current ∧
        current.defaultAlternative r index = .ok empty ∧ fallback = some empty := by
  unfold CellPolicy.prepare at h
  split at h
  · cases h
    exact .inl ⟨nofun, rfl⟩
  · cases h
    exact .inl ⟨nofun, rfl⟩
  · split at h
    · cases h
    · next index hindex =>
        obtain ⟨current, hcurrent, h⟩ := bind_eq_ok.mp h
        obtain ⟨empty, hempty, h⟩ := bind_eq_ok.mp h
        cases h
        exact .inr ⟨index, current, empty, hindex, hcurrent, hempty, rfl⟩

theorem new_eq_ok {initial : UnionValue} {c : UnionCell}
    (h : UnionCell.new r policy initial = .ok c) :
    ∃ fallback, policy.prepare r initial.defn = .ok fallback ∧
      c = ⟨policy, initial.defn, r.text initial.defn.name, some initial, fallback⟩ := by
  rw [UnionCell.new] at h
  split at h
  · obtain ⟨fallback, hfallback, h⟩ := bind_eq_ok.mp h
    cases h
    exact ⟨fallback, hfallback, rfl⟩
  · cases h

theorem withDefault_eq_ok {ty : TypeId} {c : UnionCell}
    (h : UnionCell.withDefault r policy ty = .ok c) :
    ∃ initial, UnionValue.default r ty = .ok initial ∧ UnionCell.new r policy initial = .ok c :=
  bind_eq_ok.mp h

theorem wellFormed_new (hr : r.Consistent) {initial : UnionValue} {c : UnionCell}
    (hinitial : initial.toValue.WellFormed r) (h : UnionCell.new r policy initial = .ok c) :
    ∀ v ∈ c.held, v.WellFormed r := by
  obtain ⟨fallback, hprepare, rfl⟩ := new_eq_ok h
  intro v hv
  obtain ⟨u, hu | hu, rfl⟩ := mem_held.mp hv
  · cases hu
    exact hinitial
  · rcases prepare_eq_ok hprepare with ⟨-, hnone⟩ | ⟨_, _, empty, -, hcurrent, hempty, hsome⟩
    · cases hnone.symm.trans hu
    · cases hsome.symm.trans hu
      exact wellFormed_defaultAlternative hr (union?_of_unionDef hr hcurrent) hempty

theorem wellFormed_withDefault (hr : r.Consistent) {ty : TypeId} {c : UnionCell}
    (h : UnionCell.withDefault r policy ty = .ok c) : ∀ v ∈ c.held, v.WellFormed r := by
  obtain ⟨initial, hinitial, hnew⟩ := withDefault_eq_ok h
  exact wellFormed_new hr (wellFormed_unionDefault hr hinitial) hnew

theorem accept_eq_ok {c : UnionCell} {u u' : UnionValue} (h : c.accept u = .ok u') : u' = u := by
  rw [accept] at h
  split at h
  · cases h
    rfl
  · cases h

/-- A value that is assigned takes the place of the one the cell had. -/
theorem held_assign {c c' : UnionCell} {u : UnionValue} {v : Value} (h : c.assign u = .ok c')
    (hv : v ∈ c'.held) : v = u.toValue ∨ v ∈ c.held := by
  rw [assign] at h
  cases haccept : c.accept u with
  | error e =>
      rw [haccept] at h
      cases h
  | ok u' =>
      rw [haccept] at h
      cases h
      rw [accept_eq_ok haccept] at hv
      obtain ⟨w, hw | hw, rfl⟩ := mem_held.mp hv
      · cases hw
        exact .inl rfl
      · exact .inr (mem_held.mpr ⟨w, .inr hw, rfl⟩)

theorem recover_holding {fallback : Option UnionValue} {error cause : EvalError} {u : UnionValue}
    (h : policy.recover fallback error = .holding u cause) : fallback = some u := by
  unfold CellPolicy.recover at h
  split at h
  · cases h
  · cases h
  · cases h
    rfl
  · cases h

/-- After an assignment of a value still to be built, the cell holds what was built, or what it falls
back to, or nothing. -/
theorem held_assignWith {c : UnionCell} {built : Except EvalError UnionValue} {v : Value}
    (hv : v ∈ (c.assignWith built).2.held) :
    (∃ u, built = .ok u ∧ v = u.toValue) ∨ v ∈ c.held := by
  obtain ⟨w, hw, rfl⟩ := mem_held.mp hv
  rw [assignWith] at hw
  split at hw
  · next u hbuilt =>
      rcases hw with hw | hw
      · cases hw
        cases built with
        | error e => cases hbuilt
        | ok u' => exact .inl ⟨u', rfl, by rw [accept_eq_ok hbuilt]⟩
      · exact .inr (mem_held.mpr ⟨w, .inr hw, rfl⟩)
  · split at hw
    · next hrecover =>
        rcases hw with hw | hw
        · cases hw
          exact .inr (mem_held.mpr ⟨w, .inr (recover_holding hrecover), rfl⟩)
        · exact .inr (mem_held.mpr ⟨w, .inr hw, rfl⟩)
    · rcases hw with hw | hw
      · cases hw
      · exact .inr (mem_held.mpr ⟨w, .inr hw, rfl⟩)
    · rcases hw with hw | hw
      · cases hw
      · exact .inr (mem_held.mpr ⟨w, .inr hw, rfl⟩)

end UnionCell

/-! ## Every step keeps the invariant -/

namespace Session

theorem held_newCell {s : Session} {c : UnionCell} {v : Value}
    (hv : v ∈ held { s with cells := c :: s.cells }) : v ∈ c.held ∨ v ∈ s.held := by
  simp only [held, List.flatMap_cons, List.mem_append] at hv ⊢
  rcases hv with hv | hv | hv
  · exact .inr (.inl hv)
  · exact .inl hv
  · exact .inr (.inr hv)

theorem held_setCell {s : Session} {index : Nat} {c : UnionCell} {v : Value}
    (hv : v ∈ held { s with cells := s.cells.set index c }) : v ∈ c.held ∨ v ∈ s.held := by
  rcases List.mem_append.mp hv with hv | hv
  · exact .inr (List.mem_append_left _ hv)
  · obtain ⟨c', hc', hv⟩ := List.mem_flatMap.mp hv
    rcases List.mem_or_eq_of_mem_set hc' with hc' | hc'
    · exact .inr (mem_held_of_cell hc' hv)
    · rw [hc'] at hv
      exact .inl hv

theorem invariant_start : start.Invariant :=
  ⟨Registry.reachable_fresh, fun _ hv => nomatch hv⟩

theorem Step.invariant {s s' : Session} (h : Step s s') (hs : s.Invariant) : s'.Invariant := by
  cases h with
  | operate operation =>
      refine ⟨hs.registry.apply operation, fun v hv => ?_⟩
      exact (Registry.apply_extends s.registry operation).wellFormed (hs.wellFormed v hv)
  | hold hyields =>
      refine ⟨hs.registry, fun v hv => ?_⟩
      rcases List.mem_cons.mp hv with rfl | hv
      · exact hyields.wellFormed hs
      · exact hs.wellFormed v hv
  | newCell given made =>
      refine ⟨hs.registry, fun v hv => ?_⟩
      rcases held_newCell hv with hv | hv
      · exact UnionCell.wellFormed_new hs.consistent (hs.wellFormed _ given) made v hv
      · exact hs.wellFormed v hv
  | defaultCell made =>
      refine ⟨hs.registry, fun v hv => ?_⟩
      rcases held_newCell hv with hv | hv
      · exact UnionCell.wellFormed_withDefault hs.consistent made v hv
      · exact hs.wellFormed v hv
  | assign found given made =>
      refine ⟨hs.registry, fun v hv => ?_⟩
      rcases held_setCell hv with hv | hv
      · rcases UnionCell.held_assign made hv with rfl | hv
        · exact hs.wellFormed _ given
        · exact hs.wellFormed v (mem_held_of_cell (List.mem_of_getElem? found) hv)
      · exact hs.wellFormed v hv
  | assignWith found given =>
      refine ⟨hs.registry, fun v hv => ?_⟩
      rcases held_setCell hv with hv | hv
      · rcases UnionCell.held_assignWith hv with ⟨u, hbuilt, rfl⟩ | hv
        · exact hs.wellFormed _ (given u hbuilt)
        · exact hs.wellFormed v (mem_held_of_cell (List.mem_of_getElem? found) hv)
      · exact hs.wellFormed v hv

theorem Reachable.invariant {s : Session} (h : s.Reachable) : s.Invariant := by
  induction h with
  | start => exact invariant_start
  | step _ hstep ih => exact hstep.invariant ih

/-- In every session a program can come to, every nominal value anywhere inside a held value is
sound: its definition is the one at its type's id, its index is in bounds and its parts belong to the
types that are declared for them. -/
theorem Reachable.sound_of_occurs {s : Session} (h : s.Reachable) {v w : Value} (hv : v ∈ s.held)
    (hw : Value.Occurs w v) : w.Sound s.registry :=
  h.invariant.wellFormed v hv w hw

/-- The registry of a program that declared one union, with a marker as its only alternative. -/
def dotRegistry : Registry :=
  Registry.fresh.apply (.union "Shape" [("Dot", TypeId.unit)] .propagate)

/-- The value of that union. -/
def dot : UnionValue := ⟨⟨⟨1⟩, ⟨5⟩, [⟨⟨2⟩, TypeId.unit, Span.dummy⟩], .propagate⟩, 0, .unit⟩

theorem reachable_dot :
    Reachable ⟨dotRegistry, [.pointer dot.toValue, dot.toValue, .unit], []⟩ := by
  have hstart : Reachable ⟨dotRegistry, [], []⟩ := .step .start (.operate _)
  have hunit : Reachable ⟨dotRegistry, [.unit], []⟩ := .step hstart (.hold .unit)
  have hmade : UnionValue.construct dotRegistry ⟨5⟩ "Dot" .unit = .ok dot := by
    with_unfolding_all rfl
  have hdot : Reachable ⟨dotRegistry, [dot.toValue, .unit], []⟩ :=
    .step hunit (.hold (.construct List.mem_cons_self hmade))
  exact .step hdot (.hold (.pointer List.mem_cons_self))

theorem sound_behind_pointer :
    Value.Occurs dot.toValue (.pointer dot.toValue) ∧ dot.toValue.Sound dotRegistry := by
  have hinside : Value.Occurs dot.toValue (.pointer dot.toValue) := .of_part List.mem_cons_self
  exact ⟨hinside, reachable_dot.sound_of_occurs List.mem_cons_self hinside⟩

end Session

end TaggedMatch
