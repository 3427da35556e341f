import TaggedMatch.Proofs.Value.Construct

/-!
# When a type has a default

A default is built without keeping track of the types on the way down. Only at the top, and again
before the payload of a union, it is asked whether there is a default at all; below, the types are
followed wherever they lead, and a type may well lead back to itself. `Value.expand` is this way to
build one, with a bound on how deep it goes.

That it ends rests on the question that was asked first. If the answer was yes, then it was found by
going down without meeting a type twice, and going down the same way again, there is no type to meet
a second time either; nor can the question about a payload be answered otherwise than before, since
it is asked with more types to go through (`defaultWithin?_extends`). So as many levels as there are
types are enough (`nested_eq_default`), and what is built is what `Value.default` says.
-/

namespace TaggedMatch

namespace Value

variable {r : Registry} {ty : TypeId}

/-! ## The question and the construction -/

/-- The construction succeeds just where the answer is yes. -/
theorem isSome_defaultWithin? {fresh : List TypeId} :
    (defaultWithin? r fresh ty).isSome = r.isConstructibleWithin fresh ty := by
  fun_induction defaultWithin? r fresh ty with
  | case1 fresh ty hmem hkind | case2 fresh ty hmem hkind | case3 fresh ty hmem hkind
  | case4 fresh ty hmem hkind | case5 fresh ty hmem hkind | case6 fresh ty hmem _ hkind =>
      rw [Registry.isConstructibleWithin, dif_pos hmem, hkind]
      rfl
  | case7 fresh ty hmem d hkind hempty =>
      rw [Registry.isConstructibleWithin, dif_pos hmem, hkind]
      simp [hempty]
  | case8 fresh ty hmem d hkind hsome =>
      rw [Registry.isConstructibleWithin, dif_pos hmem, hkind]
      simp [hsome]
  | case9 fresh ty hmem d hkind halternatives =>
      rw [Registry.isConstructibleWithin, dif_pos hmem, hkind]
      simp [halternatives]
  | case10 fresh ty hmem rest d hkind first tail halternatives =>
      rename_i ih
      rw [Registry.isConstructibleWithin, dif_pos hmem, hkind]
      simp [halternatives, rest, ← ih]
  | case11 fresh ty hmem rest d hkind =>
      rename_i ih
      rw [Registry.isConstructibleWithin, dif_pos hmem, hkind]
      simp only [Option.isSome_map, isSome_mapM, ih, rest]
  | case12 fresh ty hmem rest elements hkind =>
      rename_i ih
      rw [Registry.isConstructibleWithin, dif_pos hmem, hkind]
      simp only [Option.isSome_map, isSome_mapM, ih, rest]
  | case13 fresh ty hmem _ hkind | case14 fresh ty hmem hkind | case15 fresh ty hmem hkind =>
      rw [Registry.isConstructibleWithin, dif_pos hmem, hkind]
      rfl
  | case16 fresh ty hmem => rw [Registry.isConstructibleWithin, dif_neg hmem, Option.isSome_none]

theorem isSome_default (r : Registry) (ty : TypeId) :
    (defaultWithin? r r.ids ty).isSome = r.isDefaultConstructible ty :=
  isSome_defaultWithin?

/-! ## The construction without a record -/

/-- Builds only what has a default. -/
def ifConstructible (r : Registry) (ty : TypeId) (build : ExceptT EvalError Option Value) :
    ExceptT EvalError Option Value :=
  if r.isDefaultConstructible ty then build
  else throw (.of (.notDefaultConstructible (r.display ty)))

/-- Builds the default of a type by following the types that it is made of; there is no outcome where
they lead further down than `depth`. -/
def expand (r : Registry) : Nat → TypeId → ExceptT EvalError Option Value
  | 0, _ => .mk none
  | depth + 1, ty =>
      match r.kind? ty with
      | some .int => pure (.int 0)
      | some .bool => pure (.bool false)
      | some .char => pure (.char '\x00')
      | some .str => pure (.str "")
      | some .unit => pure .unit
      | some (.pointer _) => pure .null
      | some (.enumeration d) => pure (.constant d 0)
      | some (.union d) =>
          match d.alternatives with
          | [] => throw (.of (.notDefaultConstructible (r.text d.name)))
          | first :: _ => do
              let payload ← ifConstructible r first.payload (expand r depth first.payload)
              pure (.union d 0 payload)
      | some (.aggregate d) => do
          let fields ← d.fields.mapM fun field => expand r depth field.ty
          pure (.aggregate d fields)
      | some (.tuple elements) => do
          let items ← elements.mapM fun element => expand r depth element
          pure (.tuple items)
      | some (.extension _) | some .declared | none =>
          throw (.of (.notDefaultConstructible (r.display ty)))

/-- Builds the default of a type, if it has one, by following the types that it is made of. -/
def nested (r : Registry) (depth : Nat) (ty : TypeId) : ExceptT EvalError Option Value :=
  ifConstructible r ty (expand r depth ty)

/-- A type to enter takes one level, and leaves enough for the types left. -/
theorem exists_depth {fresh : List TypeId} (hmem : ty ∈ fresh) {depth : Nat}
    (hdepth : fresh.length ≤ depth) :
    ∃ less, depth = less + 1 ∧ (fresh.erase ty).length ≤ less := by
  have hpos := List.length_pos_of_mem hmem
  refine ⟨depth - 1, by omega, ?_⟩
  rw [List.length_erase_of_mem hmem]
  omega

/-- What was found from the types of `fresh` is built without a record, and no deeper than `fresh` is
long. -/
theorem expand_eq_pure {fresh : List TypeId} (hnodup : fresh.Nodup) (hsub : fresh ⊆ r.ids)
    {v : Value} (hv : defaultWithin? r fresh ty = some v) {depth : Nat}
    (hdepth : fresh.length ≤ depth) : expand r depth ty = pure v := by
  fun_induction defaultWithin? r fresh ty generalizing v depth with
  | case1 fresh ty hmem hkind | case2 fresh ty hmem hkind | case3 fresh ty hmem hkind
  | case4 fresh ty hmem hkind | case5 fresh ty hmem hkind | case6 fresh ty hmem _ hkind =>
      obtain ⟨less, rfl, -⟩ := exists_depth hmem hdepth
      cases hv
      rw [expand, hkind]
  | case7 fresh ty hmem d hkind hempty => cases hv
  | case8 fresh ty hmem d hkind hsome =>
      obtain ⟨less, rfl, -⟩ := exists_depth hmem hdepth
      cases hv
      rw [expand, hkind]
  | case9 fresh ty hmem d hkind halternatives => cases hv
  | case10 fresh ty hmem rest d hkind first tail halternatives =>
      rename_i ih
      obtain ⟨less, rfl, hless⟩ := exists_depth hmem hdepth
      obtain ⟨payload, hpayload, rfl⟩ := Option.map_eq_some_iff.mp hv
      have hrest : rest ⊆ r.ids := List.Subset.trans List.erase_subset hsub
      -- Asked anew, the question about the payload has more types to go through than before.
      have hyes : r.isDefaultConstructible first.payload = true := by
        rw [← isSome_default, defaultWithin?_extends (.refl r) (hnodup.erase ty) hrest hpayload]
        rfl
      simp only [expand, hkind, halternatives, ifConstructible, hyes, if_true,
        ih (hnodup.erase ty) hrest hpayload hless, pure_bind]
  | case11 fresh ty hmem rest d hkind =>
      rename_i ih
      obtain ⟨less, rfl, hless⟩ := exists_depth hmem hdepth
      obtain ⟨fields, hfields, rfl⟩ := Option.map_eq_some_iff.mp hv
      have hbuilt : (d.fields.mapM fun field => expand r less field.ty) = pure fields :=
        mapM_eq_pure (fun field _ v hfield =>
          ih field (hnodup.erase ty) (List.Subset.trans List.erase_subset hsub) hfield hless) hfields
      simp only [expand, hkind, hbuilt, pure_bind]
  | case12 fresh ty hmem rest elements hkind =>
      rename_i ih
      obtain ⟨less, rfl, hless⟩ := exists_depth hmem hdepth
      obtain ⟨items, hitems, rfl⟩ := Option.map_eq_some_iff.mp hv
      have hbuilt : (elements.mapM fun element => expand r less element) = pure items :=
        mapM_eq_pure (fun element _ v hitem =>
          ih element (hnodup.erase ty) (List.Subset.trans List.erase_subset hsub) hitem hless) hitems
      simp only [expand, hkind, hbuilt, pure_bind]
  | case13 | case14 | case15 | case16 => cases hv

theorem length_ids (r : Registry) : r.ids.length = r.size := by
  rw [Registry.ids, List.length_map, List.length_range]

/-- There is a bound on how deep the construction goes, and it comes to the default. -/
theorem nested_eq_default {depth : Nat} (hdepth : r.size ≤ depth) :
    (nested r depth ty).run = some (Value.default r ty) := by
  rw [nested, ifConstructible, ← isSome_default, Value.default]
  cases hv : defaultWithin? r r.ids ty with
  | none => rfl
  | some v =>
      have hbuilt := expand_eq_pure (nodup_ids r) (List.Subset.refl _) hv
        (Nat.le_trans (Nat.le_of_eq (length_ids r)) hdepth)
      rw [hbuilt]
      rfl

/-! ## What defaults consist of -/

theorem default_eq_ok_iff {v : Value} :
    Value.default r ty = .ok v ↔ defaultWithin? r r.ids ty = some v := by
  rw [Value.default]
  cases defaultWithin? r r.ids ty <;> simp

theorem exists_default_iff :
    (∃ v, Value.default r ty = .ok v) ↔ r.isDefaultConstructible ty = true := by
  simp only [default_eq_ok_iff, ← isSome_default, Option.isSome_iff_exists]

theorem default_error (h : r.isDefaultConstructible ty = false) :
    Value.default r ty = .error (.of (.notDefaultConstructible (r.display ty))) := by
  rw [← isSome_default, Option.isSome_eq_false_iff, Option.isNone_iff_eq_none] at h
  rw [Value.default, h]

/-- No pointer leads anywhere and no host object is held; a union has its first alternative and an
enum its first constant. -/
def Initial : Value → Prop
  | .pointer _ | .extension .. => False
  | .union _ discriminator _ => discriminator = 0
  | .constant _ index => index = 0
  | .int _ | .bool _ | .char _ | .unit | .str _ | .tuple _ | .null | .aggregate .. => True

theorem IsDefault.initial {v : Value} (h : IsDefault r ty v) : v.Everywhere Initial := by
  induction h with
  | int | bool | char | str | unit | pointer =>
      exact everywhere_iff.mpr ⟨trivial, fun p hp => nomatch hp⟩
  | enumeration => exact everywhere_iff.mpr ⟨rfl, fun p hp => nomatch hp⟩
  | union _ _ _ ih =>
      refine everywhere_iff.mpr ⟨rfl, fun p hp => ?_⟩
      rw [List.mem_singleton.mp hp]
      exact ih
  | aggregate _ hlength _ ih | tuple _ hlength _ ih =>
      refine everywhere_iff.mpr ⟨trivial, fun p hp => ?_⟩
      obtain ⟨place, hmem⟩ := exists_mem_zip hlength hp
      exact ih place p hmem

end Value

/-! ## Defaults of registries -/

variable {r : Registry}

theorem defaultAlternative_eq_ok_iff {d : UnionDef} {discriminator : Nat} {u : UnionValue} :
    d.defaultAlternative r discriminator = .ok u ↔
      ∃ a payload, d.alternatives[discriminator]? = some a ∧
        Value.default r a.payload = .ok payload ∧ u = ⟨d, discriminator, payload⟩ := by
  refine ⟨defaultAlternative_eq_ok, ?_⟩
  rintro ⟨a, payload, ha, hpayload, rfl⟩
  have ha' : d.alternative? discriminator = some a := ha
  rw [UnionDef.defaultAlternative, ha']
  exact bind_eq_ok.mpr ⟨payload, hpayload, rfl⟩

/-- What can be relied on when asking a registry for defaults. -/
structure DefaultsAgree (r : Registry) : Prop where
  /-- The construction ends, even where types lead back to themselves. -/
  ends : ∀ ty depth, r.size ≤ depth →
    (Value.nested r depth ty).run = some (Value.default r ty)
  exists_iff : ∀ ty, (∃ v, Value.default r ty = .ok v) ↔ r.isDefaultConstructible ty = true
  error : ∀ ty, r.isDefaultConstructible ty = false →
    ∃ type, Value.default r ty = .error (.of (.notDefaultConstructible type))
  conforms : ∀ ty v, Value.default r ty = .ok v → v.conforms r ty = true
  initial : ∀ ty v, Value.default r ty = .ok v → v.Everywhere Value.Initial
  alternative_iff : ∀ (d : UnionDef) discriminator,
    (∃ u, d.defaultAlternative r discriminator = .ok u) ↔
      ∃ a, d.alternatives[discriminator]? = some a ∧ r.isDefaultConstructible a.payload = true
  active : ∀ (d : UnionDef) discriminator u, d.defaultAlternative r discriminator = .ok u →
    u.defn = d ∧ u.discriminator = discriminator ∧
      ∃ a, d.alternatives[discriminator]? = some a ∧ u.activeName = a.name ∧
        Value.default r a.payload = .ok u.payload

theorem run_defaultsAgree (history : List Operation) :
    DefaultsAgree (Registry.fresh.run history) := by
  have hr : (Registry.fresh.run history).Consistent := Registry.Reachable.consistent ⟨history, rfl⟩
  generalize Registry.fresh.run history = r at hr
  constructor
  case ends => exact fun ty depth hdepth => Value.nested_eq_default hdepth
  case exists_iff => exact fun ty => Value.exists_default_iff
  case error => exact fun ty hnone => ⟨_, Value.default_error hnone⟩
  case conforms => exact fun ty v hv => (isDefault_of_default hv).conforms hr
  case initial => exact fun ty v hv => (isDefault_of_default hv).initial
  case alternative_iff =>
    intro d discriminator
    simp only [defaultAlternative_eq_ok_iff, ← Value.exists_default_iff]
    constructor
    · rintro ⟨u, a, payload, ha, hpayload, -⟩
      exact ⟨a, ha, payload, hpayload⟩
    · rintro ⟨a, ha, payload, hpayload⟩
      exact ⟨_, a, payload, ha, hpayload, rfl⟩
  case active =>
    intro d discriminator u hu
    obtain ⟨a, payload, ha, hpayload, rfl⟩ := defaultAlternative_eq_ok_iff.mp hu
    refine ⟨rfl, rfl, a, ha, ?_, hpayload⟩
    simp [UnionValue.activeName, UnionDef.alternativeName, UnionDef.alternative?, ha]

/-- A list that refers to itself through a pointer has a default, an aggregate that is its own field
has none. -/
theorem defaultsAgree_recursive :
    let r := Registry.fresh.run [.declareAt "List" Span.dummy, .pointer ⟨5⟩,
      .tuple [TypeId.int, ⟨6⟩], .defineUnion ⟨5⟩ [("Cons", ⟨7⟩)] .propagate,
      .declareAt "Loop" Span.dummy, .defineAggregate ⟨8⟩ [⟨Name.empty, ⟨8⟩, .isPublic, Span.dummy⟩]]
    (∃ v, Value.default r ⟨5⟩ = .ok v) ∧
      ∃ type, Value.default r ⟨8⟩ = .error (.of (.notDefaultConstructible type)) := by
  intro r
  have hagree : DefaultsAgree r := run_defaultsAgree _
  refine ⟨(hagree.exists_iff ⟨5⟩).mpr ?_, hagree.error ⟨8⟩ ?_⟩
  · with_unfolding_all rfl
  · with_unfolding_all rfl

end TaggedMatch
