import TaggedMatch.Proofs.Value.Default

/-!
# What the factories build is well formed

A constant is looked up before it is built, the fields of an aggregate are counted and compared with
their types, and a payload is compared with the payload type of the alternative that was looked up.
So each of these values is sound by the definition that the registry has, if that definition stands
at the id it names. Defaults are built without a comparison; for them the derivation of
`Value.IsDefault` takes its place.
-/

namespace TaggedMatch

variable {r : Registry}

/-- A computation in two steps succeeds if both do. -/
theorem bind_eq_ok {α β : Type} {m : Except EvalError α} {f : α → Except EvalError β} {b : β} :
    m >>= f = .ok b ↔ ∃ a, m = .ok a ∧ f a = .ok b := by
  cases m with
  | error e => simp [bind, Except.bind]
  | ok a => simp [bind, Except.bind]

namespace Value

theorem wellFormed_ofConstant (hr : r.Consistent) {ty : TypeId} {constant : String} {v : Value}
    (h : ofConstant r ty constant = .ok v) : v.WellFormed r := by
  rw [ofConstant] at h
  split at h
  · cases h
  · next d hd =>
      split at h
      · cases h
      · next index hindex =>
          cases h
          refine .of_parts ⟨?_, ?_⟩ fun p hp => nomatch hp
          · have hkind := Registry.enum?_eq_some_iff.mp hd
            exact Registry.enum?_eq_some_iff.mpr (hr.kind?_owner hkind rfl)
          · exact (List.findIdx?_eq_some_iff_getElem.mp hindex).1

theorem forall₂_of_misfit?_eq_none {fields : List FieldDef} {values : List Value}
    (hlength : fields.length = values.length) (h : misfit? r fields values = none) :
    List.Forall₂ (fun value field => value.conforms r field.ty = true) values fields := by
  have hfits : List.Forall₂ (fun field value => Value.conforms r value field.ty = true)
      fields values := by
    refine List.forall₂_iff_zip.mpr ⟨hlength, fun {field value} hmem => ?_⟩
    simpa using List.find?_eq_none.mp h (field, value) hmem
  exact hfits.flip

theorem wellFormed_ofFields (hr : r.Consistent) {ty : TypeId} {values : List Value} {v : Value}
    (hvalues : ∀ value ∈ values, value.WellFormed r) (h : ofFields r ty values = .ok v) :
    v.WellFormed r := by
  rw [ofFields] at h
  split at h
  · cases h
  · next d hd =>
      split at h
      · cases h
      · next hlength =>
          split at h
          · cases h
          · next hmisfit =>
              cases h
              have hlength' : d.fields.length = values.length := by simpa using hlength
              have hkind := Registry.aggregate?_eq_some_iff.mp hd
              refine .of_parts ⟨?_, forall₂_of_misfit?_eq_none hlength' hmisfit⟩ hvalues
              exact Registry.aggregate?_eq_some_iff.mpr (hr.kind?_owner hkind rfl)

end Value

/-! ## Union values -/

theorem unionDef_eq_ok {ty : TypeId} {d : UnionDef} :
    r.unionDef ty = .ok d ↔ r.union? ty = some d := by
  rw [Registry.unionDef]
  split
  · next d' hd => simp [hd]
  · next hnone => simp [hnone]

theorem union?_of_unionDef (hr : r.Consistent) {ty : TypeId} {d : UnionDef}
    (h : r.unionDef ty = .ok d) : r.union? d.ty = some d := by
  have hkind := Registry.union?_eq_some_iff.mp (unionDef_eq_ok.mp h)
  exact Registry.union?_eq_some_iff.mpr (hr.kind?_owner hkind rfl)

/-- A constructor is one of an alternative that its union has. -/
theorem constructor_alternative {d : UnionDef} {alternative : String} {c : UnionDef.Constructor}
    (h : d.constructor r alternative = .ok c) :
    c.defn = d ∧ ∃ a, d.alternatives[c.discriminator]? = some a := by
  rw [UnionDef.constructor] at h
  split at h
  · next index hindex =>
      cases h
      obtain ⟨hi, -⟩ := List.findIdx?_eq_some_iff_getElem.mp hindex
      exact ⟨rfl, d.alternatives[index], List.getElem?_eq_getElem hi⟩
  · cases h

theorem wellFormed_union {d : UnionDef} {discriminator : Nat} {a : AlternativeDef} {v : Value}
    (hd : r.union? d.ty = some d) (ha : d.alternatives[discriminator]? = some a)
    (hv : v.WellFormed r) (hfits : v.conforms r a.payload = true) :
    (Value.union d discriminator v).WellFormed r := by
  refine .of_parts ⟨hd, a, ha, hfits⟩ fun p hp => ?_
  rw [List.mem_singleton.mp hp]
  exact hv

theorem wellFormed_build (hr : r.Consistent) {ty : TypeId} {d : UnionDef} {alternative : String}
    {c : UnionDef.Constructor} {payload : Value} {u : UnionValue} (hd : r.unionDef ty = .ok d)
    (hc : d.constructor r alternative = .ok c) (hpayload : payload.WellFormed r)
    (h : c.build r payload = .ok u) : u.toValue.WellFormed r := by
  obtain ⟨hdefn, a, ha⟩ := constructor_alternative hc
  rw [UnionDef.Constructor.build] at h
  split at h
  · next hfits =>
      cases h
      subst hdefn
      have hty : c.payloadType = a.payload := by
        simp [UnionDef.Constructor.payloadType, UnionDef.payloadType, UnionDef.alternative?, ha]
      rw [hty] at hfits
      exact wellFormed_union (union?_of_unionDef hr hd) ha hpayload hfits
  · cases h

theorem wellFormed_construct (hr : r.Consistent) {ty : TypeId} {alternative : String}
    {payload : Value} {u : UnionValue} (hpayload : payload.WellFormed r)
    (h : UnionValue.construct r ty alternative payload = .ok u) : u.toValue.WellFormed r := by
  rw [UnionValue.construct] at h
  obtain ⟨d, hd, h⟩ := bind_eq_ok.mp h
  obtain ⟨c, hc, h⟩ := bind_eq_ok.mp h
  exact wellFormed_build hr hd hc hpayload h

/-! ## Defaults -/

theorem isDefault_of_default {ty : TypeId} {v : Value} (h : Value.default r ty = .ok v) :
    Value.IsDefault r ty v := by
  rw [Value.default] at h
  split at h
  · next hv =>
      cases h
      exact Value.isDefault_of_defaultWithin? hv
  · cases h

theorem wellFormed_default (hr : r.Consistent) {ty : TypeId} {v : Value}
    (h : Value.default r ty = .ok v) : v.WellFormed r :=
  (isDefault_of_default h).wellFormed hr

theorem defaultAlternative_eq_ok {d : UnionDef} {discriminator : Nat} {u : UnionValue}
    (h : d.defaultAlternative r discriminator = .ok u) :
    ∃ a payload, d.alternative? discriminator = some a ∧
      Value.default r a.payload = .ok payload ∧ u = ⟨d, discriminator, payload⟩ := by
  rw [UnionDef.defaultAlternative] at h
  split at h
  · cases h
  · next a ha =>
      obtain ⟨payload, hpayload, h⟩ := bind_eq_ok.mp h
      cases h
      exact ⟨a, payload, ha, hpayload, rfl⟩

theorem wellFormed_defaultAlternative (hr : r.Consistent) {d : UnionDef} {discriminator : Nat}
    {u : UnionValue} (hd : r.union? d.ty = some d)
    (h : d.defaultAlternative r discriminator = .ok u) : u.toValue.WellFormed r := by
  obtain ⟨a, payload, ha, hpayload, rfl⟩ := defaultAlternative_eq_ok h
  have hdefault := isDefault_of_default hpayload
  exact wellFormed_union hd ha (hdefault.wellFormed hr) (hdefault.conforms hr)

theorem wellFormed_unionDefault (hr : r.Consistent) {ty : TypeId} {u : UnionValue}
    (h : UnionValue.default r ty = .ok u) : u.toValue.WellFormed r := by
  rw [UnionValue.default] at h
  obtain ⟨d, hd, h⟩ := bind_eq_ok.mp h
  exact wellFormed_defaultAlternative hr (union?_of_unionDef hr hd) h

end TaggedMatch
