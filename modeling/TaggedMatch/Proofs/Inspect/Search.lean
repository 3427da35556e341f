import TaggedMatch.Inspect.Run
import TaggedMatch.Proofs.Environment.Bindings
import TaggedMatch.Proofs.Host.Ending

/-!
# The search for an arm

A run tries the arms from the top, each in the environment that the call began with and in the state
that the arms before it left behind. `Passes` is a stretch of arms that do not match, `Decides` the
arm at which the search ends, because it matches or because its match fails. There is one or the
other for any arms, and what a call does from there on does not depend on the arms that were not
reached.

Nothing is assumed of the host: guards and objects may change the state at every call. That is why
an arm is not said to match or not to match once and for all, but in the state in which its turn
comes.
-/

namespace TaggedMatch

variable {γ σ α β ρ : Type}

namespace InspectHost

/-- The state after the watcher of the run was shown a new state. -/
def shown (host : InspectHost γ σ α β) (previous : Option MatchState) (state : MatchState) (s : σ) :
    σ :=
  ((host.observe previous state).run s).2

/-- `host.Passes outer subject i arms s s'`: from the state `s` none of the arms, the first of which
is arm `i`, matches the subject, and the state is `s'` when the turn of the next one comes. -/
inductive Passes (host : InspectHost γ σ α β) (outer : Lookup) (subject : Value) :
    Nat → List (Arm γ α) → σ → σ → Prop
  | nil {i : Nat} {s : σ} : Passes host outer subject i [] s s
  | cons {i : Nat} {arm : Arm γ α} {rest : List (Arm γ α)} {s after s' : σ}
      (missed : (arm.pattern.run host.toHost subject outer).run s = (.ok none, after))
      (others : Passes host outer subject (i + 1) rest
        (host.shown (some (.scanning i)) (.scanning (i + 1)) after) s') :
      Passes host outer subject i (arm :: rest) s s'

/-- `host.Decides outer subject arms s i arm result s'`: the search for a match among the arms
begins in the state `s` and ends at arm `i`, whose match has this result and leaves the state `s'`.
-/
def Decides (host : InspectHost γ σ α β) (outer : Lookup) (subject : Value)
    (arms : List (Arm γ α)) (s : σ) (i : Nat) (arm : Arm γ α)
    (result : Except EvalError (Option Bindings)) (s' : σ) : Prop :=
  ∃ before after s₀, arms = before ++ arm :: after ∧ before.length = i ∧
    host.Passes outer subject 0 before s s₀ ∧
    (arm.pattern.run host.toHost subject outer).run s₀ = (result, s') ∧ result ≠ .ok none

/-- What is left when the action of arm `i` has ended. -/
def finished (host : InspectHost γ σ α β) (i : Nat) (answer : β → ρ) :
    Except EvalError β × Environment × σ → Except EvalError ρ × Environment × σ
  | (.ok value, env, s) => (.ok (answer value), env.pop, host.shown (some (.matched i)) .done s)
  | (.error e, env, s) => (.error e, env.pop, s)

variable {host : InspectHost γ σ α β} {outer : Lookup} {subject : Value} {arms : List (Arm γ α)}
variable {arm : Arm γ α} {s s' : σ} {env : Environment} {i : Nat}

theorem Passes.append {before after : List (Arm γ α)} {s₀ : σ}
    (h : host.Passes outer subject i before s s₀)
    (h' : host.Passes outer subject (i + before.length) after s₀ s') :
    host.Passes outer subject i (before ++ after) s s' := by
  induction h with
  | nil => exact h'
  | cons missed _ ih =>
      refine .cons missed (ih ?_)
      rw [List.length_cons, Nat.add_comm _ 1, ← Nat.add_assoc] at h'
      exact h'

/-- Either all arms pass or one of them ends the search. -/
theorem passes_or_decides (host : InspectHost γ σ α β) (outer : Lookup) (subject : Value)
    (arms : List (Arm γ α)) (s : σ) :
    (∃ s', host.Passes outer subject 0 arms s s') ∨
      ∃ i arm result s', host.Decides outer subject arms s i arm result s' := by
  -- The arms that have passed so far are put in front again.
  suffices h : ∀ (before rest : List (Arm γ α)) (s₀ : σ), arms = before ++ rest →
      host.Passes outer subject 0 before s s₀ →
      (∃ s', host.Passes outer subject 0 arms s s') ∨
        ∃ i arm result s', host.Decides outer subject arms s i arm result s' from
    h [] arms s rfl .nil
  intro before rest
  induction rest generalizing before with
  | nil =>
      intro s₀ hsplit hpasses
      rw [List.append_nil] at hsplit
      exact .inl ⟨s₀, hsplit ▸ hpasses⟩
  | cons arm rest ih =>
      intro s₀ hsplit hpasses
      rcases hrun : (arm.pattern.run host.toHost subject outer).run s₀ with ⟨result, s₁⟩
      by_cases hnone : result = .ok none
      · subst hnone
        have hpassed := hpasses.append (Passes.cons hrun .nil)
        exact ih (before ++ [arm]) _ (by simp [hsplit]) hpassed
      · exact .inr ⟨_, arm, result, s₁, before, rest, s₀, hsplit, rfl, hpasses, hrun, hnone⟩

/-! ## What the parts of a run do -/

theorem run_enter (previous : Option MatchState) (state : MatchState) :
    (host.enter previous state).run (env, s) = (.ok (), (env, host.shown previous state s)) := rfl

theorem run_tryArm :
    (host.tryArm arm subject).run (env, s) =
      (((arm.pattern.run host.toHost subject env.lookup).run s).1,
        (env, ((arm.pattern.run host.toHost subject env.lookup).run s).2)) := rfl

theorem run_perform (action : α) (bindings : Bindings) :
    (host.perform action bindings).run (env, s) =
      (((host.act action).run (env.within bindings, s)).1,
        (((host.act action).run (env.within bindings, s)).2.1.pop,
          ((host.act action).run (env.within bindings, s)).2.2)) := rfl

theorem scan_nil (form : Form) :
    (host.scan form subject i []).run (env, s) =
      (.ok none, (env, host.shown (some (.scanning i)) form.exhausted s)) := rfl

variable {form : Form} {rest : List (Arm γ α)}

theorem scan_missed
    (h : (arm.pattern.run host.toHost subject env.lookup).run s = (.ok none, s')) :
    (host.scan form subject i (arm :: rest)).run (env, s) =
      (host.scan form subject (i + 1) rest).run
        (env, host.shown (some (.scanning i)) (.scanning (i + 1)) s') := by
  rw [scan, run_bind, run_tryArm, h]
  rfl

theorem scan_failed {e : EvalError}
    (h : (arm.pattern.run host.toHost subject env.lookup).run s = (.error e, s')) :
    (host.scan form subject i (arm :: rest)).run (env, s) = (.error e, (env, s')) := by
  rw [scan, run_bind, run_tryArm, h]

theorem scan_found {bindings : Bindings}
    (h : (arm.pattern.run host.toHost subject env.lookup).run s = (.ok (some bindings), s')) :
    (host.scan form subject i (arm :: rest)).run (env, s) =
      host.finished i (fun value => some (i, value)) ((host.act arm.action).run
        (env.within bindings, host.shown (some (.scanning i)) (.matched i) s')) := by
  rw [scan, run_bind, run_tryArm, h]
  simp only [run_bind, run_enter, run_perform]
  rcases (host.act arm.action).run
      (env.within bindings, host.shown (some (.scanning i)) (.matched i) s') with ⟨_ | _, env', s''⟩
  · rfl
  · rfl

/-- Arms that pass are left behind. -/
theorem scan_passes {before : List (Arm γ α)}
    (h : host.Passes env.lookup subject i before s s') (form : Form) (rest : List (Arm γ α)) :
    (host.scan form subject i (before ++ rest)).run (env, s) =
      (host.scan form subject (i + before.length) rest).run (env, s') := by
  induction h with
  | nil => rfl
  | @cons i arm before s after s' missed _ ih =>
      rw [List.cons_append, scan_missed missed, ih, List.length_cons, Nat.add_assoc,
        Nat.add_comm 1]

end InspectHost

end TaggedMatch
