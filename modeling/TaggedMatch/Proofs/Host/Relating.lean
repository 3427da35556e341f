import Mathlib.Data.List.Forall2
import TaggedMatch.Proofs.Host.Ending
import TaggedMatch.Proofs.Value.Equality

/-!
# Two programs side by side

A pattern can be run twice: by two programs, or by one from two states, and on two values. Whether
it then ends in the same way is a matter of what the programs answer in turn. `Parallel` is a
statement about one call on both sides and `Agree` about two computations that may fail; both start
in related states and have to end in related states, so nothing is said of any single state.
`Host.Agrees` is what two programs have to do for each question that comes up on both sides.
-/

namespace TaggedMatch

/-- Two ends of computations: the same error, or results that are related. -/
inductive SameEnd {α α' : Type} (Q : α → α' → Prop) :
    Except EvalError α → Except EvalError α' → Prop
  | ok {a : α} {a' : α'} (h : Q a a') : SameEnd Q (.ok a) (.ok a')
  | error (e : EvalError) : SameEnd Q (.error e) (.error e)

theorem SameEnd.eq {α : Type} {Q : α → α → Prop} (hQ : ∀ a b, Q a b → a = b)
    {x y : Except EvalError α} (h : SameEnd Q x y) : x = y := by
  cases h with
  | ok hab => rw [hQ _ _ hab]
  | error e => rfl

theorem SameEnd.refl {α : Type} {Q : α → α → Prop} (hQ : ∀ a, Q a a) (x : Except EvalError α) :
    SameEnd Q x x := by
  cases x with
  | ok a => exact .ok (hQ a)
  | error e => exact .error e

variable {σ σ' α α' β β' : Type} {S : σ → σ' → Prop}

/-- From related states the calls give related answers and leave related states. -/
def Parallel (S : σ → σ' → Prop) (Q : α → α' → Prop) (m : StateM σ α) (m' : StateM σ' α') : Prop :=
  ∀ s s', S s s' → Q (m.run s).1 (m'.run s').1 ∧ S (m.run s).2 (m'.run s').2

/-- From related states the computations end in the same way and leave related states. -/
def Agree (S : σ → σ' → Prop) (Q : α → α' → Prop) (m : HostM σ α) (m' : HostM σ' α') : Prop :=
  ∀ s s', S s s' → SameEnd Q (m.run s).1 (m'.run s').1 ∧ S (m.run s).2 (m'.run s').2

namespace Agree

variable {P : α → α' → Prop} {Q : β → β' → Prop}

theorem pure {a : α} {a' : α'} (h : P a a') : Agree S P (Pure.pure a) (Pure.pure a') :=
  fun _ _ hS => ⟨.ok h, hS⟩

theorem throw (e : EvalError) : Agree S P (MonadExcept.throw e) (MonadExcept.throw e) :=
  fun _ _ hS => ⟨.error e, hS⟩

theorem misshapen (expected got : String) :
    Agree S P (TaggedMatch.misshapen expected got) (TaggedMatch.misshapen expected got) :=
  .throw _

theorem lift {m : StateM σ α} {m' : StateM σ' α'} (h : Parallel S P m m') :
    Agree S P (liftM m) (liftM m') :=
  fun s s' hS => ⟨.ok (h s s' hS).1, (h s s' hS).2⟩

theorem bind {m : HostM σ α} {m' : HostM σ' α'} {f : α → HostM σ β} {f' : α' → HostM σ' β'}
    (hm : Agree S P m m') (hf : ∀ a a', P a a' → Agree S Q (f a) (f' a')) :
    Agree S Q (m >>= f) (m' >>= f') := by
  intro s s' hS
  obtain ⟨hend, hleft⟩ := hm s s' hS
  rw [run_bind, run_bind]
  rcases hrun : m.run s with ⟨result, t⟩
  rcases hrun' : m'.run s' with ⟨result', t'⟩
  rw [hrun, hrun'] at hend hleft
  cases hend with
  | ok ha => exact hf _ _ ha t t' hleft
  | error e => exact ⟨.error e, hleft⟩

/-- Where both sides go on with the same answer. -/
theorem bind_same {m : HostM σ α} {m' : HostM σ' α} {f : α → HostM σ β} {f' : α → HostM σ' β'}
    (hm : Agree S Eq m m') (hf : ∀ a, Agree S Q (f a) (f' a)) : Agree S Q (m >>= f) (m' >>= f') :=
  hm.bind fun a _ heq => heq ▸ hf a

/-- A call that has had related answers and left related states, with what comes after it. -/
theorem lift_bind {m : StateM σ α} {m' : StateM σ' α'} {f : α → HostM σ β} {f' : α' → HostM σ' β'}
    {s : σ} {s' : σ'} (hanswer : P (m.run s).1 (m'.run s').1) (hleft : S (m.run s).2 (m'.run s').2)
    (hf : ∀ a a', P a a' → Agree S Q (f a) (f' a')) :
    SameEnd Q ((liftM m >>= f : HostM σ β).run s).1 ((liftM m' >>= f' : HostM σ' β').run s').1 ∧
      S ((liftM m >>= f : HostM σ β).run s).2 ((liftM m' >>= f' : HostM σ' β').run s').2 := by
  rw [run_lift_bind, run_lift_bind]
  exact hf _ _ hanswer _ _ hleft

theorem expectType (ty : TypeId) (typeName : String) (got : TypeId) :
    Agree S Eq (TaggedMatch.expectType ty typeName got)
      (TaggedMatch.expectType ty typeName got) := by
  unfold TaggedMatch.expectType
  split
  · exact .pure rfl
  · exact .throw _

end Agree

/-! ## Related scopes -/

section Scopes

variable {R : Value → Value → Prop}

theorem optionRel_eq {α : Type} {v w : Option α} : Option.Rel Eq v w ↔ v = w := by
  constructor
  · rintro (rfl | _)
    · rfl
    · rfl
  · rintro rfl
    cases v with
    | none => exact .none
    | some v => exact .some rfl

theorem optionRel_imp {α β : Type} {R Q : α → β → Prop} {v : Option α} {w : Option β}
    (h : Option.Rel R v w) (hQ : ∀ a b, v = some a → R a b → Q a b) : Option.Rel Q v w := by
  cases h with
  | some hab => exact .some (hQ _ _ rfl hab)
  | none => exact .none

theorem optionRel_or {v w v' w' : Option Value} (h : Option.Rel R v w) (h' : Option.Rel R v' w') :
    Option.Rel R (v.or v') (w.or w') := by
  cases h with
  | some hab => exact .some hab
  | none => exact h'

theorem optionRel_getElem? {vs ws : List Value} (h : List.Forall₂ R vs ws) (index : Nat) :
    Option.Rel R vs[index]? ws[index]? := by
  induction h generalizing index with
  | nil => exact .none
  | cons hhead _ ih =>
      cases index with
      | zero => exact .some hhead
      | succ index => exact ih index

/-- The same names have values, and these are related. -/
def Lookup.Related (R : Value → Value → Prop) (outer outer' : Lookup) : Prop :=
  ∀ name, Option.Rel R (outer name) (outer' name)

/-- The same names are bound in the same order, to related values. -/
abbrev Bindings.Related (R : Value → Value → Prop) : Bindings → Bindings → Prop :=
  List.Forall₂ fun x y => x.1 = y.1 ∧ R x.2 y.2

theorem Bindings.Related.lookup {bindings bindings' : Bindings}
    (h : bindings.Related R bindings') (name : Name) :
    Option.Rel R (bindings.lookup name) (bindings'.lookup name) := by
  induction h with
  | nil => exact .none
  | @cons x y _ _ hhead _ ih =>
      obtain ⟨name', v⟩ := x
      obtain ⟨_, w⟩ := y
      obtain ⟨rfl, hvw⟩ := hhead
      cases hname : name == name' with
      | true => simpa only [List.lookup_cons, hname] using .some hvw
      | false => simpa only [List.lookup_cons, hname] using ih

theorem Bindings.Related.eq {bindings bindings' : Bindings} (h : bindings.Related Eq bindings') :
    bindings = bindings' :=
  eq_of_forall₂ h fun _ _ _ _ hxy => Prod.ext hxy.1 hxy.2

theorem Bindings.Related.scope {bindings bindings' : Bindings} {outer outer' : Lookup}
    (h : bindings.Related R bindings') (houter : outer.Related R outer') :
    (bindings.scope outer).Related R (bindings'.scope outer') := by
  have hreverse : Bindings.Related R bindings.reverse bindings'.reverse :=
    List.forall₂_reverse_iff.mpr h
  exact fun name => optionRel_or (hreverse.lookup name) (houter name)

theorem Bindings.Related.snoc {bindings bindings' : Bindings} {v w : Value}
    (h : bindings.Related R bindings') (name : Name) (hvw : R v w) :
    Bindings.Related R (bindings ++ [(name, v)]) (bindings' ++ [(name, w)]) :=
  List.rel_append h (.cons ⟨rfl, hvw⟩ .nil)

end Scopes

/-- What two programs have to do to take part in the same match. Values related by `R` come up in
the same places and are bound as values related by `Q`; of the guards those in `asked` are
tested. -/
structure Host.Agrees {γ : Type} (host : Host γ σ) (host' : Host γ σ') (S : σ → σ' → Prop)
    (R Q : Value → Value → Prop) (asked : γ → Prop) : Prop where
  alike : ∀ {v w}, R v w → Value.Alike R v w
  bound : ∀ {v w}, R v w → Q v w
  test : ∀ {guard}, asked guard → ∀ {scope scope'}, Lookup.Related Q scope scope' →
    Agree S Eq (host.test guard scope) (host'.test guard scope')
  givesPieces : ∀ {ty object}, R (.extension ty object) (.extension ty object) →
    Parallel S Eq (host.givesPieces object) (host'.givesPieces object)
  piece : ∀ {ty object}, R (.extension ty object) (.extension ty object) →
    ∀ index, Parallel S (Option.Rel R) (host.piece object index) (host'.piece object index)
  givesVariant : ∀ {ty object}, R (.extension ty object) (.extension ty object) →
    Parallel S Eq (host.givesVariant object) (host'.givesVariant object)
  discriminator : ∀ {ty object}, R (.extension ty object) (.extension ty object) →
    Parallel S Eq (host.discriminator object) (host'.discriminator object)
  /-- Under the discriminator that both have just reported. -/
  alternative : ∀ {ty object}, R (.extension ty object) (.extension ty object) →
    ∀ {s t s' t' active}, (host.discriminator object).run s = (active, t) →
      (host'.discriminator object).run s' = (active, t') → S t t' →
        Option.Rel R ((host.alternative object active).run t).1
          ((host'.alternative object active).run t').1 ∧
        S ((host.alternative object active).run t).2 ((host'.alternative object active).run t').2

end TaggedMatch
