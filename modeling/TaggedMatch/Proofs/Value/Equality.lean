import Mathlib.Data.List.Forall2
import TaggedMatch.Proofs.Host.Contract

/-!
# Equality of values

Two values are equal if they are of the same form and their parts are equal in turn. `Alike` is one
such step, with the relation of the parts left open: the facts about equality are shown one step
deep and carried to whole values by induction on their parts.

Equality does not read the definitions that nominal values carry, only their type ids. Since a
registry gives a type one definition and sound values carry that one, it does not have to: sound
values that are equal are the same value.
-/

namespace TaggedMatch

/-- Relations in a row, place by place. -/
theorem forall₂_trans {α β δ : Type} {R : α → β → Prop} {S : β → δ → Prop} {T : α → δ → Prop}
    {as : List α} {bs : List β} {ds : List δ} (h : List.Forall₂ R as bs)
    (h' : List.Forall₂ S bs ds) (hT : ∀ a ∈ as, ∀ b d, R a b → S b d → T a d) :
    List.Forall₂ T as ds := by
  induction h generalizing ds with
  | nil =>
      cases h'
      exact .nil
  | cons hhead _ ih =>
      cases h' with
      | cons hhead' htail' =>
          refine .cons (hT _ List.mem_cons_self _ _ hhead hhead') (ih htail' fun a ha => ?_)
          exact hT a (List.mem_cons_of_mem _ ha)

theorem forall₂_imp {α β : Type} {R T : α → β → Prop} {as : List α} {bs : List β}
    (h : List.Forall₂ R as bs) (hT : ∀ a ∈ as, ∀ b, R a b → T a b) : List.Forall₂ T as bs :=
  ((List.forall₂_and_left as bs).mpr ⟨hT, h⟩).imp fun _ b hab => hab.1 b hab.2

/-- Lists whose members are the same, place by place. -/
theorem eq_of_forall₂ {α : Type} {R : α → α → Prop} {as bs : List α} (h : List.Forall₂ R as bs)
    (hR : ∀ a ∈ as, ∀ b ∈ bs, R a b → a = b) : as = bs := by
  induction h with
  | nil => rfl
  | cons hhead _ ih =>
      congr 1
      · exact hR _ List.mem_cons_self _ List.mem_cons_self hhead
      · exact ih fun a ha b hb => hR a (List.mem_cons_of_mem _ ha) b (List.mem_cons_of_mem _ hb)

namespace Value

/-- `Alike R v w`: the values are of the same form and say the same of themselves, and their parts
are related by `R`, place by place. -/
inductive Alike (R : Value → Value → Prop) : Value → Value → Prop
  | int (n : Int64) : Alike R (.int n) (.int n)
  | bool (b : Bool) : Alike R (.bool b) (.bool b)
  | char (c : Char) : Alike R (.char c) (.char c)
  | unit : Alike R .unit .unit
  | str (s : String) : Alike R (.str s) (.str s)
  | tuple {vs ws : List Value} (h : List.Forall₂ R vs ws) : Alike R (.tuple vs) (.tuple ws)
  | null : Alike R .null .null
  | pointer {v w : Value} (h : R v w) : Alike R (.pointer v) (.pointer w)
  | constant {d e : EnumDef} (index : Nat) (hty : d.ty = e.ty) :
      Alike R (.constant d index) (.constant e index)
  | aggregate {d e : AggregateDef} {vs ws : List Value} (hty : d.ty = e.ty)
      (h : List.Forall₂ R vs ws) : Alike R (.aggregate d vs) (.aggregate e ws)
  | union {d e : UnionDef} (discriminator : Nat) {v w : Value} (hty : d.ty = e.ty) (h : R v w) :
      Alike R (.union d discriminator v) (.union e discriminator w)
  | extension (ty : TypeId) (object : ObjectId) :
      Alike R (.extension ty object) (.extension ty object)

namespace Alike

variable {R S T : Value → Value → Prop} {v w u : Value}

theorem refl (hR : ∀ p ∈ v.parts, R p p) : Alike R v v := by
  cases v with
  | int | bool | char | unit | str | null | extension => constructor
  | tuple items => exact .tuple (List.forall₂_same.mpr hR)
  | pointer pointee => exact .pointer (hR pointee List.mem_cons_self)
  | constant d index => exact .constant index rfl
  | aggregate d fields => exact .aggregate rfl (List.forall₂_same.mpr hR)
  | union d discriminator payload =>
      exact .union discriminator rfl (hR payload List.mem_cons_self)

theorem imp (h : Alike R v w) (hT : ∀ p ∈ v.parts, ∀ q, R p q → T p q) : Alike T v w := by
  cases h with
  | int | bool | char | unit | str | null | extension => constructor
  | tuple h => exact .tuple (forall₂_imp h hT)
  | pointer h => exact .pointer (hT _ List.mem_cons_self _ h)
  | constant index hty => exact .constant index hty
  | aggregate hty h => exact .aggregate hty (forall₂_imp h hT)
  | union discriminator hty h => exact .union discriminator hty (hT _ List.mem_cons_self _ h)

theorem flip (h : Alike R v w) : Alike (flip R) w v := by
  cases h with
  | int | bool | char | unit | str | null | extension => constructor
  | tuple h => exact .tuple (List.Forall₂.flip h)
  | pointer h => exact .pointer h
  | constant index hty => exact .constant index hty.symm
  | aggregate hty h => exact .aggregate hty.symm (List.Forall₂.flip h)
  | union discriminator hty h => exact .union discriminator hty.symm h

theorem trans (h : Alike R v w) (h' : Alike S w u)
    (hT : ∀ p ∈ v.parts, ∀ q x, R p q → S q x → T p x) : Alike T v u := by
  cases h with
  | int | bool | char | unit | str | null | extension =>
      cases h'
      constructor
  | tuple h =>
      cases h' with
      | tuple h' => exact .tuple (forall₂_trans h h' hT)
  | pointer h =>
      cases h' with
      | pointer h' => exact .pointer (hT _ List.mem_cons_self _ _ h h')
  | constant index hty =>
      cases h' with
      | constant _ hty' => exact .constant index (hty.trans hty')
  | aggregate hty h =>
      cases h' with
      | aggregate hty' h' => exact .aggregate (hty.trans hty') (forall₂_trans h h' hT)
  | union discriminator hty h =>
      cases h' with
      | union _ hty' h' =>
          exact .union discriminator (hty.trans hty') (hT _ List.mem_cons_self _ _ h h')

end Alike

/-- Equality of values as a relation. -/
abbrev Equal (v w : Value) : Prop := (v == w) = true

theorem beqAll_iff {vs ws : List Value} : beqAll vs ws = true ↔ List.Forall₂ Equal vs ws := by
  induction vs generalizing ws with
  | nil => cases ws <;> simp [beqAll]
  | cons v vs ih =>
      cases ws with
      | nil => simp [beqAll]
      | cons w ws => simp [beqAll, ih, Equal, beq_eq]

/-- Values are equal if they are of the same form and their parts are equal. -/
theorem equal_iff_alike {v w : Value} : v.Equal w ↔ Alike Equal v w := by
  constructor
  · intro h
    rw [Equal, beq_eq] at h
    cases v <;> cases w <;>
      simp only [beq, Bool.false_eq_true, Bool.and_eq_true, beq_iff_eq, beqAll_iff, ← beq_eq] at h
    case int => exact h ▸ .int _
    case bool => exact h ▸ .bool _
    case char => exact h ▸ .char _
    case unit => exact .unit
    case str => exact h ▸ .str _
    case tuple => exact .tuple h
    case null => exact .null
    case pointer => exact .pointer h
    case constant => exact h.2 ▸ .constant _ h.1
    case aggregate => exact .aggregate h.1 h.2
    case union => exact h.1.2 ▸ .union _ h.1.1 h.2
    case extension => exact h.1 ▸ h.2 ▸ .extension _ _
  · intro h
    rw [Equal, beq_eq]
    cases h with
    | tuple h => simpa [beq] using beqAll_iff.mpr h
    | aggregate hty h => simpa [beq, hty] using beqAll_iff.mpr h
    | pointer h => simpa [beq, ← beq_eq] using h
    | union _ hty h => simpa [beq, hty, ← beq_eq] using h
    | _ => simp_all [beq]

theorem Equal.alike {v w : Value} (h : v.Equal w) : Alike Equal v w := equal_iff_alike.mp h

theorem Equal.refl (v : Value) : v.Equal v := by rw [Equal, beq_eq, beq_self]

theorem Equal.symm {v w : Value} (h : v.Equal w) : w.Equal v := by
  induction v using induct generalizing w with
  | step v ih =>
      have hparts : Alike (fun p q => q.Equal p) v w := h.alike.imp fun p hp _ hpq => ih p hp hpq
      exact equal_iff_alike.mpr hparts.flip

theorem Equal.trans {v w u : Value} (h : v.Equal w) (h' : w.Equal u) : v.Equal u := by
  induction v using induct generalizing w u with
  | step v ih =>
      exact equal_iff_alike.mpr (h.alike.trans h'.alike fun p hp _ _ hpq hqx => ih p hp hpq hqx)

/-- An extension value is equal to the same object of the same type and to nothing else. -/
theorem equal_extension_iff {ty : TypeId} {object : ObjectId} {v : Value} :
    (extension ty object).Equal v ↔ v = .extension ty object := by
  constructor
  · intro h
    cases h.alike
    rfl
  · rintro rfl
    exact .refl _

/-- Equal values belong to the same types. -/
theorem Equal.conforms {v w : Value} (h : v.Equal w) {r : Registry} {ty : TypeId}
    (hw : w.conforms r ty = true) : v.conforms r ty = true := by
  induction v using induct generalizing w ty with
  | step v ih =>
      cases h.alike with
      | int | bool | char | unit | str | null | extension => exact hw
      | tuple hitems =>
          obtain ⟨elements, hty, hfits⟩ := conforms_tuple_iff.mp hw
          refine conforms_tuple_iff.mpr ⟨elements, hty, ?_⟩
          exact forall₂_trans hitems hfits fun p hp _ _ hpq hq => ih p hp hpq hq
      | pointer hpointee =>
          obtain ⟨pointee, hty, hfits⟩ := conforms_pointer_iff.mp hw
          exact conforms_pointer_iff.mpr
            ⟨pointee, hty, ih _ List.mem_cons_self hpointee hfits⟩
      | constant _ hty | aggregate hty _ | union _ hty _ =>
          simpa [Value.conforms, hty] using hw

/-! ## Values of one registry -/

/-- A definition is found again at the type that it names. -/
theorem eq_of_ty_eq {δ : Type} {find? : TypeId → Option δ} {ty : δ → TypeId} {d e : δ}
    (hd : find? (ty d) = some d) (he : find? (ty e) = some e) (hty : ty d = ty e) : d = e := by
  rw [hty, he] at hd
  exact (Option.some.inj hd).symm

/-- Well-formed values of a registry that are equal are the same. -/
theorem WellFormed.eq_of_equal {r : Registry} {v w : Value} (hv : v.WellFormed r)
    (hw : w.WellFormed r) (h : v.Equal w) : v = w := by
  induction v using induct generalizing w with
  | step v ih =>
      have hparts : ∀ p ∈ v.parts, ∀ q ∈ w.parts, p.Equal q → p = q :=
        fun p hp q hq => ih p hp (hv.part hp) (hw.part hq)
      have hv := hv.sound
      have hw := hw.sound
      cases h.alike with
      | int | bool | char | unit | str | null | extension => rfl
      | tuple hitems => rw [eq_of_forall₂ hitems hparts]
      | pointer hpointee => rw [hparts _ List.mem_cons_self _ List.mem_cons_self hpointee]
      | constant _ hty => rw [eq_of_ty_eq hv.1 hw.1 hty]
      | aggregate hty hfields =>
          rw [eq_of_ty_eq hv.1 hw.1 hty, eq_of_forall₂ hfields hparts]
      | union _ hty hpayload =>
          rw [eq_of_ty_eq hv.1 hw.1 hty, hparts _ List.mem_cons_self _ List.mem_cons_self hpayload]

end Value

end TaggedMatch
