import TaggedMatch.Proofs.Host.Contract
import TaggedMatch.Proofs.Value.Form

/-!
# The inhabitants of a type

`Value.Inhabits` says which values a type has, by what the registry holds under its id and down to
the last part: a union value needs its type to be a union there, and an active alternative that its
payload inhabits. Conformance asks for less. It takes a nominal value's word for its type and does
not look inside. For values that a program has built the two agree all the same, because the
factories looked when they built them; only the values that wrap host objects are made without
looking at the registry. So the two agree exactly on the built values in which every such value has
an extension type (`Built.inhabits_iff`), and on no others: the integer type has no host object
among its inhabitants, but one can conform to it (`host_object_conforms_to_int`).
-/

namespace TaggedMatch

variable {r : Registry} {v : Value} {ty : TypeId}

namespace Value

/-- `v.Inhabits r ty`: the value is one of those that the registered kind of the type describes. -/
inductive Inhabits (r : Registry) : Value → TypeId → Prop
  | int {n : Int64} {ty : TypeId} (kind : r.kind? ty = some .int) : Inhabits r (.int n) ty
  | bool {b : Bool} {ty : TypeId} (kind : r.kind? ty = some .bool) : Inhabits r (.bool b) ty
  | char {c : Char} {ty : TypeId} (kind : r.kind? ty = some .char) : Inhabits r (.char c) ty
  | str {s : String} {ty : TypeId} (kind : r.kind? ty = some .str) : Inhabits r (.str s) ty
  | unit {ty : TypeId} (kind : r.kind? ty = some .unit) : Inhabits r .unit ty
  | null {ty pointee : TypeId} (kind : r.kind? ty = some (.pointer pointee)) :
      Inhabits r .null ty
  | pointer {v : Value} {ty pointee : TypeId} (kind : r.kind? ty = some (.pointer pointee))
      (inner : Inhabits r v pointee) : Inhabits r (.pointer v) ty
  | tuple {items : List Value} {ty : TypeId} {elements : List TypeId}
      (kind : r.kind? ty = some (.tuple elements)) (length : elements.length = items.length)
      (each : ∀ element item, (element, item) ∈ elements.zip items → Inhabits r item element) :
      Inhabits r (.tuple items) ty
  | constant {own d : EnumDef} {index : Nat} (kind : r.kind? own.ty = some (.enumeration d))
      (bound : index < d.constants.length) : Inhabits r (.constant own index) own.ty
  | aggregate {own d : AggregateDef} {fields : List Value}
      (kind : r.kind? own.ty = some (.aggregate d)) (length : d.fields.length = fields.length)
      (each : ∀ field value, (field, value) ∈ d.fields.zip fields → Inhabits r value field.ty) :
      Inhabits r (.aggregate own fields) own.ty
  | union {own d : UnionDef} {discriminator : Nat} {a : AlternativeDef} {payload : Value}
      (kind : r.kind? own.ty = some (.union d)) (active : d.alternatives[discriminator]? = some a)
      (inner : Inhabits r payload a.payload) :
      Inhabits r (.union own discriminator payload) own.ty
  | extension {own : TypeId} {d : ExtensionDef} {object : ObjectId}
      (kind : r.kind? own = some (.extension d)) : Inhabits r (.extension own object) own

/-- Of a value that wraps a host object: its type is an extension type. -/
def HasExtensionType (r : Registry) : Value → Prop
  | .extension own _ => ∃ d, r.kind? own = some (.extension d)
  | _ => True

namespace Inhabits

/-- Conformance rejects no inhabitant, built or not. -/
theorem conforms (h : v.Inhabits r ty) : v.conforms r ty = true := by
  induction h with
  | int kind | bool kind | char kind | str kind | unit kind => simp [Value.conforms, kind]
  | null kind => exact conforms_null_iff.mpr ⟨_, kind⟩
  | pointer kind _ ih => exact conforms_pointer_iff.mpr ⟨_, kind, ih⟩
  | tuple kind length _ ih =>
      refine conforms_tuple_iff.mpr ⟨_, kind, ?_⟩
      exact (List.forall₂_iff_zip.mpr ⟨length, fun hmem => ih _ _ hmem⟩).flip
  | constant | aggregate | union | extension => simp [Value.conforms]

theorem hasExtensionType (h : v.Inhabits r ty) : v.Everywhere (HasExtensionType r) := by
  induction h with
  | int | bool | char | str | unit | null | constant =>
      exact everywhere_iff.mpr ⟨trivial, fun p hp => nomatch hp⟩
  | extension kind => exact everywhere_iff.mpr ⟨⟨_, kind⟩, fun p hp => nomatch hp⟩
  | pointer _ _ ih | union _ _ _ ih =>
      refine everywhere_iff.mpr ⟨trivial, fun p hp => ?_⟩
      rw [List.mem_singleton.mp hp]
      exact ih
  | tuple _ length _ ih | aggregate _ length _ ih =>
      refine everywhere_iff.mpr ⟨trivial, fun p hp => ?_⟩
      obtain ⟨place, hmem⟩ := exists_mem_zip length hp
      exact ih place p hmem

end Inhabits

/-- What conformance does not look at was looked at when the value was built. -/
theorem inhabits_of_conforms (hv : v.WellFormed r) (htyped : v.Everywhere (HasExtensionType r))
    (h : v.conforms r ty = true) : v.Inhabits r ty := by
  induction v using induct generalizing ty with
  | step v ih =>
      have inner {p : Value} (hp : p ∈ v.parts) {ty : TypeId} (hty : p.conforms r ty = true) :
          p.Inhabits r ty :=
        ih p hp (hv.part hp) (htyped.part hp) hty
      obtain ⟨kind, hkind, hfits⟩ := exists_fits hv.sound
        (fun own object heq => by subst heq; exact htyped.self) h
      cases hfits with
      | int => exact .int hkind
      | bool => exact .bool hkind
      | char => exact .char hkind
      | str => exact .str hkind
      | unit => exact .unit hkind
      | null => exact .null hkind
      | pointer hpointee => exact .pointer hkind (inner (List.mem_singleton.mpr rfl) hpointee)
      | tuple hitems =>
          refine .tuple hkind hitems.length_eq.symm fun element item hmem => ?_
          exact inner (List.of_mem_zip hmem).2 ((List.forall₂_iff_zip.mp hitems.flip).2 hmem)
      | constant hbound =>
          obtain rfl : _ = ty := by simpa [Value.conforms] using h
          exact .constant hkind hbound
      | aggregate hfields =>
          obtain rfl : _ = ty := by simpa [Value.conforms] using h
          refine .aggregate hkind hfields.length_eq.symm fun field value hmem => ?_
          exact inner (List.of_mem_zip hmem).2 ((List.forall₂_iff_zip.mp hfields.flip).2 hmem)
      | union hactive hpayload =>
          obtain rfl : _ = ty := by simpa [Value.conforms] using h
          exact .union hkind hactive (inner (List.mem_singleton.mpr rfl) hpayload)
      | extension => exact .extension hkind

/-- A built value inhabits the types that it conforms to, if all host objects in it are wrapped under
extension types; and no value inhabits any other type. -/
theorem Built.inhabits_iff (hv : v.Built r) :
    v.Inhabits r ty ↔ v.conforms r ty = true ∧ v.Everywhere (HasExtensionType r) := by
  constructor
  · exact fun h => ⟨h.conforms, h.hasExtensionType⟩
  · exact fun ⟨h, htyped⟩ => inhabits_of_conforms hv.wellFormed htyped h

end Value

/-- The registry of a program with one extension type and the pointers to its objects. -/
def keyRegistry : Registry :=
  Registry.fresh.run [.extension "Key" none none, .pointer ⟨5⟩]

def key : Value := .extension ⟨5⟩ ⟨0⟩

theorem built_key : (Value.pointer key).Built keyRegistry := by
  have hdeclared : Session.Reachable ⟨Registry.fresh.apply (.extension "Key" none none), [], []⟩ :=
    .step .start (.operate _)
  have hstart : Session.Reachable ⟨keyRegistry, [], []⟩ := .step hdeclared (.operate (.pointer ⟨5⟩))
  have hkey : Session.Reachable ⟨keyRegistry, [key], []⟩ :=
    .step hstart (.hold (.extension ⟨5⟩ ⟨0⟩))
  exact ⟨_, .step hkey (.hold (.pointer List.mem_cons_self)), rfl, List.mem_cons_self⟩

theorem inhabits_key : (Value.pointer key).Built keyRegistry ∧
    (Value.pointer key).Inhabits keyRegistry ⟨6⟩ := by
  refine ⟨built_key, built_key.inhabits_iff.mpr ⟨by decide +kernel, ?_⟩⟩
  have hkey : key.Everywhere (Value.HasExtensionType keyRegistry) :=
    Value.everywhere_iff.mpr ⟨⟨⟨⟨1⟩, ⟨5⟩, none, none⟩, by decide +kernel⟩, fun p hp => nomatch hp⟩
  refine Value.everywhere_iff.mpr ⟨trivial, fun p hp => ?_⟩
  rw [List.mem_singleton.mp hp]
  exact hkey

/-- Any program can wrap a host object as an integer, and conformance takes it for one. -/
theorem host_object_conforms_to_int :
    let v : Value := .extension TypeId.int ⟨0⟩
    v.Built Registry.fresh ∧ v.conforms Registry.fresh TypeId.int = true ∧
      ¬ v.Inhabits Registry.fresh TypeId.int := by
  intro v
  have hreachable : Session.Reachable ⟨Registry.fresh, [v], []⟩ :=
    .step .start (.hold (.extension TypeId.int ⟨0⟩))
  refine ⟨⟨_, hreachable, rfl, List.mem_cons_self⟩, by decide +kernel, fun h => ?_⟩
  obtain ⟨d, hd⟩ := h.hasExtensionType.self
  have hint : Registry.fresh.kind? TypeId.int = some .int := by decide +kernel
  cases hint.symm.trans hd

end TaggedMatch
