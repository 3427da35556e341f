import TaggedMatch.Pattern.Match

/-!
# How a computation of the surrounding program ends

A run of a pattern is a computation that works on a state it knows nothing about and may end with an
error at many places. `Ends` says what is true when it ends: something of its result, or something
of its error, and of the state then. The equations below follow the way a computation is put
together, so that `simp` takes a goal about a whole computation apart into what has to hold of each
call to the program.
-/

namespace TaggedMatch

variable {σ α β : Type}

/-- From the state `s` the computation ends with a result and a state in `Q`, or with an error and
a state in `E`. -/
def Ends (m : HostM σ α) (s : σ) (Q : α → σ → Prop) (E : EvalError → σ → Prop) : Prop :=
  match m.run s with
  | (.ok a, s') => Q a s'
  | (.error e, s') => E e s'

variable {s : σ} {E : EvalError → σ → Prop}

@[simp] theorem ends_pure {a : α} {Q : α → σ → Prop} :
    Ends (pure a : HostM σ α) s Q E ↔ Q a s := Iff.rfl

@[simp] theorem ends_throw {e : EvalError} {Q : α → σ → Prop} :
    Ends (throw e : HostM σ α) s Q E ↔ E e s := Iff.rfl

@[simp] theorem ends_misshapen {expected got : String} {Q : α → σ → Prop} :
    Ends (misshapen expected got : HostM σ α) s Q E ↔ E (.shapeMismatch expected got) s := Iff.rfl

@[simp] theorem ends_lift {m : StateM σ α} {Q : α → σ → Prop} :
    Ends (liftM m : HostM σ α) s Q E ↔ Q (m.run s).1 (m.run s).2 := Iff.rfl

theorem run_bind (m : HostM σ α) (f : α → HostM σ β) (s : σ) :
    (m >>= f).run s = match m.run s with
      | (.ok a, s') => (f a).run s'
      | (.error e, s') => (.error e, s') := by
  rw [ExceptT.run_bind]
  rcases h : m.run s with ⟨_ | _, s'⟩
  · simp [bind, StateT.bind, h]
    rfl
  · simp [bind, StateT.bind, h]

/-- A computation that begins with a call to the host goes on with what the host answers. -/
theorem run_lift_bind (m : StateM σ α) (f : α → HostM σ β) (s : σ) :
    (liftM m >>= f : HostM σ β).run s = (f (m.run s).1).run (m.run s).2 := by
  rw [run_bind]
  rfl

theorem run_map (f : α → β) (m : HostM σ α) (s : σ) :
    (f <$> m).run s = ((m.run s).1.map f, (m.run s).2) := by
  rw [map_eq_pure_bind, run_bind]
  rcases m.run s with ⟨_ | _, s'⟩
  · rfl
  · rfl

@[simp] theorem ends_bind {m : HostM σ α} {f : α → HostM σ β} {Q : β → σ → Prop} :
    Ends (m >>= f) s Q E ↔ Ends m s (fun a s' => Ends (f a) s' Q E) E := by
  rw [Ends, Ends, run_bind]
  rcases m.run s with ⟨_ | _, s'⟩
  · rfl
  · rfl

theorem Ends.imp {m : HostM σ α} {Q Q' : α → σ → Prop} {E' : EvalError → σ → Prop}
    (h : Ends m s Q E) (hQ : ∀ a s', Q a s' → Q' a s') (hE : ∀ e s', E e s' → E' e s') :
    Ends m s Q' E' := by
  rw [Ends] at h ⊢
  split at h
  · exact hQ _ _ h
  · exact hE _ _ h

/-- A computation goes on where another ended. -/
theorem Ends.bind {m : HostM σ α} {f : α → HostM σ β} {Q : α → σ → Prop} {Q' : β → σ → Prop}
    (h : Ends m s Q E) (hf : ∀ a s', Q a s' → Ends (f a) s' Q' E) : Ends (m >>= f) s Q' E :=
  ends_bind.mpr (h.imp hf fun _ _ he => he)

/-- Every computation ends. -/
theorem ends_somehow (m : HostM σ α) (s : σ) : Ends m s (fun _ _ => True) fun _ _ => True := by
  rw [Ends]
  split
  · trivial
  · trivial

theorem HostM.ext {m m' : HostM σ α} (h : ∀ s, m.run s = m'.run s) : m = m' := funext h

end TaggedMatch
