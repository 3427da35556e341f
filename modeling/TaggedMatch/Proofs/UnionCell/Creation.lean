import TaggedMatch.Proofs.Host.Contract
import TaggedMatch.Proofs.Registry.Constructible
import TaggedMatch.Proofs.Registry.Validity
import TaggedMatch.Proofs.UnionCell

/-!
# When a cell can be made

A cell that falls back makes the value to fall back to when it is made, so making it can fail. What
it needs is what validation asks of the union: the empty alternative is declared, and its payload has
a default. Validation finds the alternative by its name and the cell by its index; they find the same
one, because the names of a valid union are distinct (`emptyIndex?_of_isValid`).

Validation answers for the registry as it was, and a cell may be made much later. But a registry
never changes its mind about a type with a body, and in a valid registry all types have one, those
included that they need for their defaults. So later on the same types have defaults
(`isDefaultConstructible_run_iff`), and the same cells can be made.
-/

namespace TaggedMatch

/-- The policy of the cells that may hold values of a union. -/
def AssignPolicy.cellPolicy : AssignPolicy → CellPolicy
  | .propagate => .propagate
  | .abort => .abort
  | .fallbackToEmpty _ => .fallbackToEmpty

theorem CellPolicy.admits_iff {policy : CellPolicy} {declared : AssignPolicy} :
    policy.admits declared = true ↔ declared.cellPolicy = policy := by
  cases policy <;> cases declared <;> simp [admits, AssignPolicy.cellPolicy]

variable {r r' : Registry} {ty : TypeId} {d : UnionDef}

/-! ## Defaults in later registries -/

namespace Registry

/-- A union has the default of its first alternative. -/
theorem isDefaultConstructible_union_iff (hkind : r.kind? ty = some (.union d)) :
    r.isDefaultConstructible ty = true ↔
      ∃ first, d.alternatives[0]? = some first ∧ r.isDefaultConstructible first.payload = true := by
  rw [isDefaultConstructible_iff, hkind]
  cases halternatives : d.alternatives <;> simp [TypeKind.composes, TypeKind.needs, halternatives]

theorem isDefaultConstructible_of_extends (h : Extends r r')
    (hdefault : r.isDefaultConstructible ty = true) : r'.isDefaultConstructible ty = true := by
  rw [← Value.exists_default_iff] at hdefault ⊢
  obtain ⟨v, hv⟩ := hdefault
  exact ⟨v, Value.default_extends h hv⟩

/-- In a valid registry every type that is needed for a default is known. -/
theorem knows_of_needs (hvalid : r.isValid = true) {kind : TypeKind} {part : TypeId}
    (hkind : r.kind? ty = some kind) (hpart : part ∈ kind.needs) : r.knows part = true := by
  have happroved := approves_of_isValid hvalid hkind
  cases kind with
  | union d =>
      simp only [TypeKind.needs, List.mem_map, Option.mem_toList] at hpart
      obtain ⟨first, hfirst, rfl⟩ := hpart
      exact happroved.2.2.1 first (List.mem_of_head? hfirst)
  | aggregate d =>
      obtain ⟨field, hfield, rfl⟩ := List.mem_map.mp hpart
      exact happroved.2 field hfield
  | tuple elements => exact happroved part hpart
  | int | bool | char | str | unit | pointer | declared | enumeration | extension => cases hpart

/-- A registry that was valid has, whatever is added to it, the same types with defaults among those
that it knew. -/
theorem isDefaultConstructible_run_iff (hvalid : r.isValid = true) (operations : List Operation)
    (hknown : r.knows ty = true) :
    (r.run operations).isDefaultConstructible ty = true ↔ r.isDefaultConstructible ty = true := by
  have hext := run_extends r operations
  refine ⟨fun h => ?_, isDefaultConstructible_of_extends hext⟩
  refine (hasDefault_iff_isDefaultConstructible.mpr h).induct
    (motive := fun ty => r.knows ty = true → r.isDefaultConstructible ty = true)
    (fun ty later hlater hcomposes ih hknown => ?_) hknown
  obtain ⟨kind, hkind⟩ := knows_iff.mp hknown
  have hdefined : kind ≠ .declared := by
    rintro rfl
    exact approves_of_isValid hvalid hkind
  obtain rfl : later = kind := Option.some.inj (hlater.symm.trans (hext.kind? hkind hdefined))
  exact isDefaultConstructible_iff.mpr
    ⟨_, hkind, hcomposes, fun part hpart => ih part hpart (knows_of_needs hvalid hkind hpart)⟩

end Registry

/-- What a program holds, it still holds when it has added types. -/
theorem Value.Built.run {v : Value} (h : v.Built r) (operations : List Operation) :
    v.Built (r.run operations) := by
  induction operations generalizing r with
  | nil => exact h
  | cons operation rest ih =>
      obtain ⟨s, hs, rfl, hv⟩ := h
      exact ih ⟨_, .step hs (.operate operation), rfl, hv⟩

/-! ## The value to fall back to -/

/-- The index that a union falls back to is that of an alternative with a default. -/
theorem UnionDef.emptyIndex?_of_isValid (hvalid : r.isValid = true)
    (hkind : r.kind? ty = some (.union d)) {empty : Name}
    (hpolicy : d.policy = .fallbackToEmpty empty) :
    ∃ index a, d.emptyIndex? = some index ∧ d.alternatives[index]? = some a ∧ a.name = empty ∧
      r.isDefaultConstructible a.payload = true := by
  obtain ⟨a, ha, rfl, hdefault⟩ := (Registry.approves_of_isValid hvalid hkind).2.2.2 empty hpolicy
  have hsome : (d.alternatives.findIdx? (·.name == a.name)).isSome :=
    List.findIdx?_isSome.trans (List.any_eq_true.mpr ⟨a, ha, beq_self_eq_true _⟩)
  obtain ⟨index, hindex⟩ := Option.isSome_iff_exists.mp hsome
  obtain ⟨hbound, hname, -⟩ := List.findIdx?_eq_some_iff_getElem.mp hindex
  have hsame : d.alternatives[index] = a :=
    List.inj_on_of_nodup_map (Registry.nodup_alternatives hvalid hkind)
      (List.getElem_mem hbound) ha (by simpa using hname)
  refine ⟨index, a, ?_, by rw [List.getElem?_eq_getElem hbound, hsame], rfl, hdefault⟩
  rw [emptyIndex?, hpolicy]
  exact hindex

namespace UnionCell

variable {policy : CellPolicy} {u : UnionValue}

/-- The default of an alternative is all that making a cell can fail for, once the policy fits. -/
theorem new_fallback (hunion : r.union? u.defn.ty = some u.defn)
    (hpolicy : u.defn.policy.cellPolicy = .fallbackToEmpty) {index : Nat} {a : AlternativeDef}
    (hindex : u.defn.emptyIndex? = some index) (ha : u.defn.alternatives[index]? = some a)
    (hdefault : r.isDefaultConstructible a.payload = true) :
    ∃ c, UnionCell.new r .fallbackToEmpty u = .ok c ∧ c.get = .ok u := by
  obtain ⟨payload, hpayload⟩ := Value.exists_default_iff.mpr hdefault
  have hempty : u.defn.defaultAlternative r index = .ok ⟨u.defn, index, payload⟩ :=
    defaultAlternative_eq_ok_iff.mpr ⟨a, payload, ha, hpayload, rfl⟩
  have hprepare : CellPolicy.prepare r .fallbackToEmpty u.defn =
      .ok (some ⟨u.defn, index, payload⟩) := by
    simp only [CellPolicy.prepare, hindex]
    exact bind_eq_ok.mpr ⟨u.defn, unionDef_eq_ok.mpr hunion, bind_eq_ok.mpr ⟨_, hempty, rfl⟩⟩
  refine ⟨⟨.fallbackToEmpty, u.defn, r.text u.defn.name, some u,
    some ⟨u.defn, index, payload⟩⟩, ?_, rfl⟩
  rw [UnionCell.new, if_pos (CellPolicy.admits_iff.mpr hpolicy)]
  exact bind_eq_ok.mpr ⟨_, hprepare, rfl⟩

theorem new_mismatch (h : u.defn.policy.cellPolicy ≠ policy) :
    UnionCell.new r policy u = .error
      (.of (.policyMismatch (r.text u.defn.name) u.defn.policy.label policy.label)) := by
  rw [UnionCell.new, if_neg fun hadmits => h (CellPolicy.admits_iff.mp hadmits)]

theorem unionDefault_eq_ok_iff (hunion : r.union? ty = some d) :
    UnionValue.default r ty = .ok u ↔ d.defaultAlternative r 0 = .ok u := by
  rw [UnionValue.default, bind_eq_ok]
  constructor
  · rintro ⟨d', hd', h⟩
    cases hunion.symm.trans (unionDef_eq_ok.mp hd')
    exact h
  · exact fun h => ⟨d, unionDef_eq_ok.mpr hunion, h⟩

theorem exists_unionDefault_iff (hunion : r.union? ty = some d) :
    (∃ u, UnionValue.default r ty = .ok u) ↔ r.isDefaultConstructible ty = true := by
  rw [Registry.isDefaultConstructible_union_iff (Registry.union?_eq_some_iff.mp hunion)]
  simp only [unionDefault_eq_ok_iff hunion, defaultAlternative_eq_ok_iff,
    ← Value.exists_default_iff]
  constructor
  · rintro ⟨u, a, payload, ha, hpayload, -⟩
    exact ⟨a, ha, payload, hpayload⟩
  · rintro ⟨a, ha, payload, hpayload⟩
    exact ⟨_, a, payload, ha, hpayload, rfl⟩

/-- What can be relied on when making cells for the values of a union type. -/
structure Creatable (r : Registry) (ty : TypeId) (d : UnionDef) : Prop where
  mismatch : ∀ u policy, u.toValue.Built r → u.ty = ty → d.policy.cellPolicy ≠ policy →
    UnionCell.new r policy u =
      .error (.of (.policyMismatch (r.text d.name) d.policy.label policy.label))
  /-- Once the registry was valid, whatever has been added to it since. -/
  holds : r.isValid = true → d.policy.cellPolicy = .fallbackToEmpty → ∀ operations u,
    u.toValue.Built (r.run operations) → u.ty = ty →
      ∃ c, UnionCell.new (r.run operations) .fallbackToEmpty u = .ok c ∧ c.get = .ok u
  withDefault_iff : r.isValid = true → d.policy.cellPolicy = .fallbackToEmpty → ∀ operations,
    (∃ c, UnionCell.withDefault (r.run operations) .fallbackToEmpty ty = .ok c) ↔
      r.isDefaultConstructible ty = true

theorem defn_of_built (hu : u.toValue.Built r) (hunion : r.union? u.ty = some d) : u.defn = d := by
  have hself : r.union? u.defn.ty = some u.defn := hu.wellFormed.self.1
  exact Option.some.inj (hself.symm.trans hunion)

theorem creatable (reachable : r.Reachable) (hunion : r.union? ty = some d) :
    Creatable r ty d := by
  have hkind := Registry.union?_eq_some_iff.mp hunion
  have hty : d.ty = ty := reachable.consistent.ty_of_kind? hkind rfl
  have hlater (operations) : (r.run operations).union? ty = some d :=
    Registry.union?_eq_some_iff.mpr ((Registry.run_extends r operations).kind? hkind nofun)
  have hnew (hvalid : r.isValid = true) (hpolicy : d.policy.cellPolicy = .fallbackToEmpty)
      (operations) {u : UnionValue} (hdefn : u.defn = d) :
      ∃ c, UnionCell.new (r.run operations) .fallbackToEmpty u = .ok c ∧ c.get = .ok u := by
    subst hdefn
    obtain ⟨empty, hempty⟩ : ∃ empty, u.defn.policy = .fallbackToEmpty empty := by
      cases hdeclared : u.defn.policy with
      | propagate | abort => simp [hdeclared, AssignPolicy.cellPolicy] at hpolicy
      | fallbackToEmpty empty => exact ⟨empty, rfl⟩
    obtain ⟨index, a, hindex, ha, -, hdefault⟩ :=
      UnionDef.emptyIndex?_of_isValid hvalid hkind hempty
    exact new_fallback (by rw [hty, hlater]) hpolicy hindex ha
      (Registry.isDefaultConstructible_of_extends (Registry.run_extends r operations) hdefault)
  constructor
  case mismatch =>
    rintro u policy hu rfl hpolicy
    rw [← defn_of_built hu hunion] at hpolicy ⊢
    exact new_mismatch hpolicy
  case holds =>
    rintro hvalid hpolicy operations u hu rfl
    exact hnew hvalid hpolicy operations (defn_of_built hu (hlater operations))
  case withDefault_iff =>
    intro hvalid hpolicy operations
    have hknown : r.knows ty = true := Registry.knows_iff.mpr ⟨_, hkind⟩
    rw [← Registry.isDefaultConstructible_run_iff hvalid operations hknown,
      ← exists_unionDefault_iff (hlater operations)]
    constructor
    · rintro ⟨c, hc⟩
      obtain ⟨initial, hinitial, -⟩ := withDefault_eq_ok hc
      exact ⟨initial, hinitial⟩
    · rintro ⟨initial, hinitial⟩
      obtain ⟨a, payload, -, -, rfl⟩ := defaultAlternative_eq_ok_iff.mp
        ((unionDefault_eq_ok_iff (hlater operations)).mp hinitial)
      obtain ⟨c, hc, -⟩ := hnew hvalid hpolicy operations (u := ⟨d, 0, payload⟩) rfl
      exact ⟨c, bind_eq_ok.mpr ⟨_, hinitial, hc⟩⟩

theorem built_command : (UnionValue.toValue ⟨command, 0, .int 0⟩).Built commandRegistry := by
  have hdeclared : Session.Reachable ⟨Registry.fresh.apply (.fallbackTo "Idle"), [], []⟩ :=
    .step .start (.operate _)
  have hstart : Session.Reachable ⟨commandRegistry, [], []⟩ :=
    .step hdeclared (.operate (.union "Command" [("Score", TypeId.int), ("Idle", TypeId.unit)]
      (.fallbackToEmpty ⟨1⟩)))
  have hmade : UnionValue.default commandRegistry ⟨5⟩ = .ok ⟨command, 0, .int 0⟩ := by
    with_unfolding_all rfl
  exact ⟨_, .step hstart (.hold (.unionDefault hmade)), rfl, List.mem_cons_self⟩

/-- The command is held also by a cell that is made when there is one more type, though not by a
cell that propagates failures. -/
theorem creatable_command :
    commandRegistry.Reachable ∧ commandRegistry.union? ⟨5⟩ = some command ∧
      (∃ c, UnionCell.new (commandRegistry.run [.pointer ⟨5⟩]) .fallbackToEmpty ⟨command, 0, .int 0⟩
        = .ok c ∧ c.get = .ok ⟨command, 0, .int 0⟩) ∧
      UnionCell.new commandRegistry .propagate ⟨command, 0, .int 0⟩ =
        .error (.of (.policyMismatch "Command" "fallback-to-empty" "propagate")) := by
  have reachable : commandRegistry.Reachable := ⟨_, rfl⟩
  have hunion : commandRegistry.union? ⟨5⟩ = some command := by with_unfolding_all rfl
  have hcreatable : Creatable commandRegistry ⟨5⟩ command := creatable reachable hunion
  have hvalid : commandRegistry.isValid = true := by with_unfolding_all rfl
  refine ⟨reachable, hunion, ?_, ?_⟩
  · exact hcreatable.holds hvalid rfl _ _ (built_command.run _) rfl
  · have hname : commandRegistry.text command.name = "Command" := by with_unfolding_all rfl
    rw [← hname]
    exact hcreatable.mismatch _ .propagate built_command rfl (by decide)

end UnionCell

end TaggedMatch
