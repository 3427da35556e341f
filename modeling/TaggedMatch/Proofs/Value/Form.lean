import TaggedMatch.Proofs.Registry.Growth
import TaggedMatch.Proofs.Value.Growth

/-!
# The form of a value of a type

A value that belongs to a type by conformance has the form that the kind of the type asks for, if
it is sound. This is where the invariant of all built values pays off: a nominal value only says
that it is of the type, and its soundness says which kind the type then has. An extension value
says even less, so of these it has to be known that their types are extension types.
-/

namespace TaggedMatch

theorem forall₂_getElem? {α β : Type} {R : α → β → Prop} {as : List α} {bs : List β}
    (h : List.Forall₂ R as bs) {i : Nat} {b : β} (hb : bs[i]? = some b) :
    ∃ a, as[i]? = some a ∧ R a b := by
  induction h generalizing i with
  | nil => simp at hb
  | @cons a _ as bs hhead _ ih =>
      cases i with
      | zero =>
          rw [List.getElem?_cons_zero, Option.some.injEq] at hb
          subst hb
          exact ⟨a, rfl, hhead⟩
      | succ i =>
          rw [List.getElem?_cons_succ] at hb ⊢
          exact ih hb

namespace Value

/-- Values of a type of this kind, and what is known of their parts. -/
inductive Fits (r : Registry) (ty : TypeId) : TypeKind → Value → Prop
  | int (n : Int64) : Fits r ty .int (.int n)
  | bool (b : Bool) : Fits r ty .bool (.bool b)
  | char (c : Char) : Fits r ty .char (.char c)
  | str (s : String) : Fits r ty .str (.str s)
  | unit : Fits r ty .unit .unit
  | null (pointee : TypeId) : Fits r ty (.pointer pointee) .null
  | pointer {pointee : TypeId} {v : Value} (h : v.conforms r pointee = true) :
      Fits r ty (.pointer pointee) (.pointer v)
  | tuple {elements : List TypeId} {items : List Value}
      (h : List.Forall₂ (fun v ty => v.conforms r ty = true) items elements) :
      Fits r ty (.tuple elements) (.tuple items)
  | constant {d : EnumDef} {index : Nat} (h : index < d.constants.length) :
      Fits r ty (.enumeration d) (.constant d index)
  | aggregate {d : AggregateDef} {fields : List Value}
      (h : List.Forall₂ (fun v (f : FieldDef) => v.conforms r f.ty = true) fields d.fields) :
      Fits r ty (.aggregate d) (.aggregate d fields)
  | union {d : UnionDef} {discriminator : Nat} {a : AlternativeDef} {payload : Value}
      (active : d.alternatives[discriminator]? = some a)
      (h : payload.conforms r a.payload = true) :
      Fits r ty (.union d) (.union d discriminator payload)
  | extension (d : ExtensionDef) (object : ObjectId) :
      Fits r ty (.extension d) (.extension ty object)

/-- The kind of a type that a value belongs to, and the form that the value then has. -/
theorem exists_fits {r : Registry} {ty : TypeId} {v : Value} (hv : v.Sound r)
    (hextension : ∀ own object, v = .extension own object →
      ∃ d, r.kind? own = some (.extension d))
    (h : v.conforms r ty = true) : ∃ kind, r.kind? ty = some kind ∧ v.Fits r ty kind := by
  cases v with
  | int n => exact ⟨_, by simpa [conforms] using h, .int n⟩
  | bool b => exact ⟨_, by simpa [conforms] using h, .bool b⟩
  | char c => exact ⟨_, by simpa [conforms] using h, .char c⟩
  | str s => exact ⟨_, by simpa [conforms] using h, .str s⟩
  | unit => exact ⟨_, by simpa [conforms] using h, .unit⟩
  | null =>
      obtain ⟨pointee, hty⟩ := conforms_null_iff.mp h
      exact ⟨_, hty, .null pointee⟩
  | pointer v =>
      obtain ⟨pointee, hty, hpointee⟩ := conforms_pointer_iff.mp h
      exact ⟨_, hty, .pointer hpointee⟩
  | tuple items =>
      obtain ⟨elements, hty, hitems⟩ := conforms_tuple_iff.mp h
      exact ⟨_, hty, .tuple hitems⟩
  | constant d index =>
      obtain rfl : d.ty = ty := by simpa [conforms] using h
      exact ⟨_, Registry.enum?_eq_some_iff.mp hv.1, .constant hv.2⟩
  | aggregate d fields =>
      obtain rfl : d.ty = ty := by simpa [conforms] using h
      exact ⟨_, Registry.aggregate?_eq_some_iff.mp hv.1, .aggregate hv.2⟩
  | union d discriminator payload =>
      obtain rfl : d.ty = ty := by simpa [conforms] using h
      obtain ⟨hd, a, ha, hpayload⟩ := hv
      exact ⟨_, Registry.union?_eq_some_iff.mp hd, .union ha hpayload⟩
  | extension own object =>
      obtain rfl : own = ty := by simpa [conforms] using h
      obtain ⟨d, hd⟩ := hextension own object rfl
      exact ⟨_, hd, .extension d object⟩

theorem fits_of_conforms {r : Registry} {ty : TypeId} {kind : TypeKind} {v : Value}
    (hv : v.Sound r)
    (hextension : ∀ own object, v = .extension own object →
      ∃ d, r.kind? own = some (.extension d))
    (hkind : r.kind? ty = some kind) (h : v.conforms r ty = true) : v.Fits r ty kind := by
  obtain ⟨kind', hkind', hfits⟩ := exists_fits hv hextension h
  cases hkind.symm.trans hkind'
  exact hfits

end Value

end TaggedMatch
