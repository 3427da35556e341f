import Mathlib.Data.List.Forall2
import TaggedMatch.Value.Conformance

/-!
# What a value is made of

Conformance looks at a nominal value only from outside: the type it was built for is the type it
belongs to. What such a value is worth rests on its parts, at every depth. `Occurs` is the relation
of a value to all values inside it, itself included; a property holds `Everywhere` in a value when
it holds of all of these. `Sound` is what is to be said of one value: an active alternative that
exists with a payload that fits it, fields that fit the fields declared, a constant that is
declared, and all this by the definition that the registry has. `WellFormed` is `Sound` everywhere.
-/

namespace TaggedMatch.Value

/-- The values that a value directly consists of. -/
def parts : Value → List Value
  | .tuple items => items
  | .pointer pointee => [pointee]
  | .aggregate _ fields => fields
  | .union _ _ payload => [payload]
  | .int _ | .bool _ | .char _ | .unit | .str _ | .null | .constant .. | .extension .. => []

/-- `Occurs w v`: the value `w` is `v` or lies somewhere inside it. -/
inductive Occurs (w : Value) : Value → Prop
  | here : Occurs w w
  | inside {p v : Value} (part : p ∈ v.parts) (deeper : Occurs w p) : Occurs w v

theorem Occurs.trans {u v w : Value} (h : Occurs u v) (h' : Occurs v w) : Occurs u w := by
  induction h' with
  | here => exact h
  | inside part _ ih => exact .inside part ih

theorem Occurs.of_part {p v : Value} (h : p ∈ v.parts) : Occurs p v := .inside h .here

/-- A property of a value and of all values inside it. -/
def Everywhere (P : Value → Prop) (v : Value) : Prop := ∀ w, Occurs w v → P w

theorem everywhere_iff {P : Value → Prop} {v : Value} :
    v.Everywhere P ↔ P v ∧ ∀ p ∈ v.parts, p.Everywhere P := by
  constructor
  · intro h
    exact ⟨h v .here, fun p hp w hw => h w (.inside hp hw)⟩
  · rintro ⟨hself, hparts⟩ w hw
    cases hw with
    | here => exact hself
    | inside part deeper => exact hparts _ part w deeper

theorem Everywhere.self {P : Value → Prop} {v : Value} (h : v.Everywhere P) : P v := h v .here

theorem Everywhere.occurs {P : Value → Prop} {v w : Value} (h : v.Everywhere P)
    (hw : Occurs w v) : w.Everywhere P :=
  fun u hu => h u (hu.trans hw)

theorem Everywhere.part {P : Value → Prop} {v p : Value} (h : v.Everywhere P)
    (hp : p ∈ v.parts) : p.Everywhere P :=
  h.occurs (.of_part hp)

theorem Everywhere.imp {P Q : Value → Prop} {v : Value} (hPQ : ∀ w, P w → Q w)
    (h : v.Everywhere P) : v.Everywhere Q :=
  fun w hw => hPQ w (h w hw)

/-- What is shown of a value from its parts is shown of every value. -/
theorem induct {motive : Value → Prop} (step : ∀ v, (∀ p ∈ v.parts, motive p) → motive v)
    (v : Value) : motive v := by
  have none {v : Value} (hparts : v.parts = []) : motive v := by
    refine step v fun p hp => ?_
    rw [hparts] at hp
    cases hp
  have one {v p : Value} (hp : motive p) (hparts : v.parts = [p]) : motive v := by
    refine step v fun q hq => ?_
    rw [hparts] at hq
    rw [List.mem_singleton.mp hq]
    exact hp
  refine @Value.rec motive (fun items => ∀ p ∈ items, motive p) ?int ?bool ?char ?unit ?str ?tuple
    ?null ?pointer ?constant ?aggregate ?union ?extension ?nil ?cons v
  case int | bool | char | str => exact fun _ => none rfl
  case unit | null => exact none rfl
  case constant | extension => exact fun _ _ => none rfl
  case pointer => exact fun _ hp => one hp rfl
  case union => exact fun _ _ _ hp => one hp rfl
  case tuple => exact fun items h => step (.tuple items) h
  case aggregate => exact fun d fields h => step (.aggregate d fields) h
  case nil => exact fun p hp => nomatch hp
  case cons => exact fun _ _ hp hps => List.forall_mem_cons.mpr ⟨hp, hps⟩

/-! ## Nominal values -/

/-- What has to be true of a nominal value, its parts looked at from outside. -/
def Sound (r : Registry) : Value → Prop
  | .constant d index => r.enum? d.ty = some d ∧ index < d.constants.length
  | .aggregate d fields =>
      r.aggregate? d.ty = some d ∧
        List.Forall₂ (fun value field => value.conforms r field.ty = true) fields d.fields
  | .union d discriminator payload =>
      r.union? d.ty = some d ∧ ∃ alternative, d.alternatives[discriminator]? = some alternative ∧
        payload.conforms r alternative.payload = true
  | _ => True

/-- Every nominal value, at whatever depth, is sound. -/
def WellFormed (r : Registry) (v : Value) : Prop := v.Everywhere (Sound r)

theorem wellFormed_iff {r : Registry} {v : Value} :
    v.WellFormed r ↔ v.Sound r ∧ ∀ p ∈ v.parts, p.WellFormed r :=
  everywhere_iff

theorem WellFormed.sound {r : Registry} {v : Value} (h : v.WellFormed r) : v.Sound r := h.self

/-- A sound value of well-formed parts is well-formed. -/
theorem WellFormed.of_parts {r : Registry} {v : Value} (hv : v.Sound r)
    (hparts : ∀ p ∈ v.parts, p.WellFormed r) : v.WellFormed r :=
  wellFormed_iff.mpr ⟨hv, hparts⟩

/-- Overwriting what pointers lead to leaves no trace of what was there before. -/
theorem WellFormed.overwrite {r : Registry} {new : Value} (hnew : new.WellFormed r) :
    ∀ {depth : Nat} {v v' : Value}, overwrite new depth v = some v' → v'.WellFormed r := by
  intro depth
  induction depth with
  | zero =>
      intro v v' h
      simp only [Value.overwrite, Option.some.injEq] at h
      rw [← h]
      exact hnew
  | succ depth ih =>
      intro v v' h
      cases v with
      | pointer pointee =>
          simp only [Value.overwrite, Option.map_eq_some_iff] at h
          obtain ⟨pointee', hpointee, rfl⟩ := h
          refine .of_parts trivial fun p hp => ?_
          rw [List.mem_singleton.mp hp]
          exact ih hpointee
      | _ => simp [Value.overwrite] at h

end TaggedMatch.Value
