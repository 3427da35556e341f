import Mathlib.Data.List.Nodup
import TaggedMatch.Proofs.Traversal
import TaggedMatch.Proofs.Value.Growth
import TaggedMatch.Value.Default

/-!
# What default values look like

`IsDefault` says of a type and a value that the value is the type's default, by the kinds of types
alone: nothing is carried along and no type is forbidden on the way. The construction carries the
types it may still enter, but only to know when to give up; what it does build is a default in this
sense. That a default belongs to its type and is well formed is then an induction over the
derivation, although its payloads and fields were never checked against their types.
-/

namespace TaggedMatch.Value

inductive IsDefault (r : Registry) : TypeId → Value → Prop
  | int {ty} (h : r.kind? ty = some .int) : IsDefault r ty (.int 0)
  | bool {ty} (h : r.kind? ty = some .bool) : IsDefault r ty (.bool false)
  | char {ty} (h : r.kind? ty = some .char) : IsDefault r ty (.char '\x00')
  | str {ty} (h : r.kind? ty = some .str) : IsDefault r ty (.str "")
  | unit {ty} (h : r.kind? ty = some .unit) : IsDefault r ty .unit
  | pointer {ty pointee} (h : r.kind? ty = some (.pointer pointee)) : IsDefault r ty .null
  | enumeration {ty d} (h : r.kind? ty = some (.enumeration d)) (hsome : 0 < d.constants.length) :
      IsDefault r ty (.constant d 0)
  | union {ty d first v} (h : r.kind? ty = some (.union d))
      (hfirst : d.alternatives[0]? = some first) (hpayload : IsDefault r first.payload v) :
      IsDefault r ty (.union d 0 v)
  | aggregate {ty d fields} (h : r.kind? ty = some (.aggregate d))
      (hlength : d.fields.length = fields.length)
      (hfields : ∀ field v, (field, v) ∈ d.fields.zip fields → IsDefault r field.ty v) :
      IsDefault r ty (.aggregate d fields)
  | tuple {ty elements items} (h : r.kind? ty = some (.tuple elements))
      (hlength : elements.length = items.length)
      (hitems : ∀ element v, (element, v) ∈ elements.zip items → IsDefault r element v) :
      IsDefault r ty (.tuple items)

/-! ## The construction builds defaults -/

theorem isDefault_of_defaultWithin? {r : Registry} {fresh : List TypeId} {ty : TypeId} {v : Value}
    (h : defaultWithin? r fresh ty = some v) : IsDefault r ty v := by
  fun_induction defaultWithin? r fresh ty generalizing v with
  | case1 fresh ty _ hkind => cases h; exact .int hkind
  | case2 fresh ty _ hkind => cases h; exact .bool hkind
  | case3 fresh ty _ hkind => cases h; exact .char hkind
  | case4 fresh ty _ hkind => cases h; exact .str hkind
  | case5 fresh ty _ hkind => cases h; exact .unit hkind
  | case6 fresh ty _ pointee hkind => cases h; exact .pointer hkind
  | case7 fresh ty _ d hkind hempty => cases h
  | case8 fresh ty _ d hkind hsome =>
      cases h
      exact .enumeration hkind (List.length_pos_iff.mpr (by simpa using hsome))
  | case9 fresh ty _ d hkind halternatives => cases h
  | case10 fresh ty _ rest d hkind first tail halternatives =>
      rename_i ih
      obtain ⟨payload, hpayload, rfl⟩ := Option.map_eq_some_iff.mp h
      exact .union hkind (by rw [halternatives]; rfl) (ih hpayload)
  | case11 fresh ty _ rest d hkind =>
      rename_i ih
      obtain ⟨fields, hfields, rfl⟩ := Option.map_eq_some_iff.mp h
      obtain ⟨hlength, heach⟩ := List.forall₂_iff_zip.mp (mapM_eq_some_iff.mp hfields)
      exact .aggregate hkind hlength fun field v hmem => ih field (heach hmem)
  | case12 fresh ty _ rest elements hkind =>
      rename_i ih
      obtain ⟨items, hitems, rfl⟩ := Option.map_eq_some_iff.mp h
      obtain ⟨hlength, heach⟩ := List.forall₂_iff_zip.mp (mapM_eq_some_iff.mp hitems)
      exact .tuple hkind hlength fun element v hmem => ih element (heach hmem)
  | case13 | case14 | case15 | case16 => cases h

/-! ## What a default is worth -/

theorem IsDefault.conforms {r : Registry} (hr : r.Consistent) {ty : TypeId} {v : Value}
    (h : IsDefault r ty v) : v.conforms r ty = true := by
  induction h with
  | int h | bool h | char h | str h | unit h => simp [Value.conforms, h]
  | pointer h => exact conforms_null_iff.mpr ⟨_, h⟩
  | enumeration h | union h | aggregate h =>
      simpa [Value.conforms] using hr.ty_of_kind? h rfl
  | tuple h hlength _ ih =>
      refine conforms_tuple_iff.mpr ⟨_, h, ?_⟩
      exact (List.forall₂_iff_zip.mpr ⟨hlength, fun hmem => ih _ _ hmem⟩).flip

/-- In a list beside another of its length every member has a counterpart. -/
theorem exists_mem_zip {α β : Type} {as : List α} {bs : List β} (h : as.length = bs.length)
    {b : β} (hb : b ∈ bs) : ∃ a, (a, b) ∈ as.zip bs := by
  obtain ⟨i, hi, rfl⟩ := List.mem_iff_getElem.mp hb
  refine ⟨as[i], List.mem_iff_getElem.mpr ⟨i, by simp [h, hi], by simp⟩⟩

theorem IsDefault.wellFormed {r : Registry} (hr : r.Consistent) {ty : TypeId} {v : Value}
    (h : IsDefault r ty v) : v.WellFormed r := by
  induction h with
  | int | bool | char | str | unit | pointer =>
      exact .of_parts trivial fun p hp => nomatch hp
  | enumeration h hsome =>
      refine .of_parts ⟨?_, hsome⟩ fun p hp => nomatch hp
      exact Registry.enum?_eq_some_iff.mpr (hr.kind?_owner h rfl)
  | union h hfirst hpayload ih =>
      refine .of_parts ⟨?_, _, hfirst, hpayload.conforms hr⟩ fun p hp => ?_
      · exact Registry.union?_eq_some_iff.mpr (hr.kind?_owner h rfl)
      · rw [List.mem_singleton.mp hp]
        exact ih
  | aggregate h hlength hfields ih =>
      refine .of_parts ⟨?_, ?_⟩ fun p hp => ?_
      · exact Registry.aggregate?_eq_some_iff.mpr (hr.kind?_owner h rfl)
      · exact (List.forall₂_iff_zip.mpr
          ⟨hlength, fun hmem => (hfields _ _ hmem).conforms hr⟩).flip
      · obtain ⟨field, hmem⟩ := exists_mem_zip hlength hp
        exact ih field p hmem
  | tuple h hlength hitems ih =>
      refine .of_parts trivial fun p hp => ?_
      obtain ⟨element, hmem⟩ := exists_mem_zip hlength hp
      exact ih element p hmem

/-! ## Defaults outlive the registry they were built against

In a registry that grew there are more types to enter, so the construction gives up no sooner. It goes
the same way, because it only ever went through types whose kinds were known. -/

/-- Taking one type away on both sides leaves the one list within the other. -/
theorem erase_subset_erase {fresh fresh' : List TypeId} {ty : TypeId} (hnodup : fresh.Nodup)
    (hsub : fresh ⊆ fresh') : fresh.erase ty ⊆ fresh'.erase ty := by
  intro other hother
  obtain ⟨hne, hmem⟩ := hnodup.mem_erase_iff.mp hother
  exact (List.mem_erase_of_ne hne).mpr (hsub hmem)

theorem defaultWithin?_extends {r r' : Registry} (h : Registry.Extends r r')
    {fresh fresh' : List TypeId} (hnodup : fresh.Nodup) (hsub : fresh ⊆ fresh') {ty : TypeId}
    {v : Value} (hv : defaultWithin? r fresh ty = some v) :
    defaultWithin? r' fresh' ty = some v := by
  fun_induction defaultWithin? r fresh ty generalizing v fresh' with
  | case1 fresh ty hmem hkind | case2 fresh ty hmem hkind | case3 fresh ty hmem hkind
  | case4 fresh ty hmem hkind | case5 fresh ty hmem hkind | case6 fresh ty hmem _ hkind =>
      rw [defaultWithin?, dif_pos (hsub hmem), h.kind? hkind (by simp)]
      exact hv
  | case7 fresh ty hmem d hkind hempty => cases hv
  | case8 fresh ty hmem d hkind hsome =>
      rw [defaultWithin?, dif_pos (hsub hmem), h.kind? hkind (by simp)]
      simp only [hsome]
      exact hv
  | case9 fresh ty hmem d hkind halternatives => cases hv
  | case10 fresh ty hmem rest d hkind first tail halternatives =>
      rename_i ih
      rw [defaultWithin?, dif_pos (hsub hmem), h.kind? hkind (by simp)]
      simp only [halternatives]
      obtain ⟨payload, hpayload, rfl⟩ := Option.map_eq_some_iff.mp hv
      rw [ih (hnodup.erase ty) (erase_subset_erase hnodup hsub) hpayload]
      rfl
  | case11 fresh ty hmem rest d hkind =>
      rename_i ih
      rw [defaultWithin?, dif_pos (hsub hmem), h.kind? hkind (by simp)]
      obtain ⟨fields, hfields, rfl⟩ := Option.map_eq_some_iff.mp hv
      have heach := mapM_eq_pure (fun field _ v hfield =>
        ih field (hnodup.erase ty) (erase_subset_erase hnodup hsub) hfield) hfields
      simp only [heach, Option.pure_def, Option.map_some]
  | case12 fresh ty hmem rest elements hkind =>
      rename_i ih
      rw [defaultWithin?, dif_pos (hsub hmem), h.kind? hkind (by simp)]
      obtain ⟨items, hitems, rfl⟩ := Option.map_eq_some_iff.mp hv
      have heach := mapM_eq_pure (fun element _ v hitem =>
        ih element (hnodup.erase ty) (erase_subset_erase hnodup hsub) hitem) hitems
      simp only [heach, Option.pure_def, Option.map_some]
  | case13 | case14 | case15 | case16 => cases hv

theorem ids_subset_of_extends {r r' : Registry} (h : Registry.Extends r r') : r.ids ⊆ r'.ids := by
  refine List.map_subset _ fun index hindex => ?_
  rw [List.mem_range] at hindex ⊢
  exact Nat.lt_of_lt_of_le hindex h.size_le

theorem nodup_ids (r : Registry) : r.ids.Nodup :=
  List.Nodup.map (fun _ _ h => TypeId.mk.inj h) List.nodup_range

theorem default_extends {r r' : Registry} (h : Registry.Extends r r') {ty : TypeId} {v : Value}
    (hv : default r ty = .ok v) : default r' ty = .ok v := by
  rw [default] at hv ⊢
  split at hv
  · next hbuilt =>
      rw [defaultWithin?_extends h (nodup_ids r) (ids_subset_of_extends h) hbuilt]
      exact hv
  · cases hv

end TaggedMatch.Value
