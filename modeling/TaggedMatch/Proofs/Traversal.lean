import Mathlib.Data.List.Forall2

/-!
# Going through a list with a partial function

A list that is gone through with a partial function gives a list of results, one for each member, or
nothing if there is a member without a result.
-/

namespace TaggedMatch

variable {α β : Type} {f : α → Option β} {as : List α} {bs : List β}

theorem mapM_eq_some_iff :
    as.mapM f = some bs ↔ List.Forall₂ (fun a b => f a = some b) as bs := by
  induction as generalizing bs with
  | nil => simp [eq_comm]
  | cons a as ih =>
      rw [List.mapM_cons, Option.bind_eq_bind, Option.bind_eq_some_iff, List.forall₂_cons_left_iff]
      refine exists_congr fun b => ?_
      simp only [Option.bind_eq_bind, Option.bind_eq_some_iff, Option.pure_def,
        Option.some.injEq, ih]
      grind

theorem mapM_eq_some_map_iff {P : α → Prop} {g : α → β} (h : ∀ a b, f a = some b ↔ P a ∧ b = g a) :
    as.mapM f = some bs ↔ (∀ a ∈ as, P a) ∧ bs = as.map g := by
  induction as generalizing bs with
  | nil => simp [eq_comm]
  | cons a as ih =>
      simp only [List.mapM_cons, Option.bind_eq_bind, Option.bind_eq_some_iff, Option.pure_def,
        Option.some.injEq, h, ih, List.forall_mem_cons, List.map_cons]
      grind

/-- Where the results are those of a total function, only whether there are any is left to ask. -/
theorem map_mapM_eq_some_iff {γ : Type} {P : α → Prop} {g : α → β} {collect : List β → γ} {c : γ}
    (h : ∀ a b, f a = some b ↔ P a ∧ b = g a) :
    (as.mapM f).map collect = some c ↔ (∀ a ∈ as, P a) ∧ c = collect (as.map g) := by
  rw [Option.map_eq_some_iff]
  constructor
  · rintro ⟨bs, hbs, rfl⟩
    obtain ⟨hall, rfl⟩ := (mapM_eq_some_map_iff h).mp hbs
    exact ⟨hall, rfl⟩
  · rintro ⟨hall, rfl⟩
    exact ⟨as.map g, (mapM_eq_some_map_iff h).mpr ⟨hall, rfl⟩, rfl⟩

theorem isSome_mapM : (as.mapM f).isSome = as.all fun a => (f a).isSome := by
  induction as with
  | nil => rfl
  | cons a as ih =>
      rw [List.mapM_cons, List.all_cons, ← ih]
      cases f a with
      | none => rfl
      | some b => cases as.mapM f <;> rfl

/-- Where the partial function has a result, another function may come to it by its own means. -/
theorem mapM_eq_pure {m : Type → Type} [Monad m] [LawfulMonad m] {g : α → m β}
    (h : ∀ a ∈ as, ∀ b, f a = some b → g a = pure b) (has : as.mapM f = some bs) :
    as.mapM g = pure bs := by
  induction as generalizing bs with
  | nil =>
      cases has
      rfl
  | cons a as ih =>
      simp only [List.mapM_cons, Option.bind_eq_bind, Option.bind_eq_some_iff] at has
      obtain ⟨b, hb, bs', hbs, heq⟩ := has
      cases heq
      rw [List.forall_mem_cons] at h
      rw [List.mapM_cons, h.1 b hb, ih h.2 hbs, pure_bind, pure_bind]

end TaggedMatch
