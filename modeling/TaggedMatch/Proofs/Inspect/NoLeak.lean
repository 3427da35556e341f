import TaggedMatch.Proofs.Environment.Frame
import TaggedMatch.Proofs.Inspect.FirstMatch

/-!
# Bindings do not leak

An action gets a scope for its bindings and may work on the environment as it likes, as long as it
pops what it pushed: define names, assign to them, define globals, go through other inspects.
`Edits` is what such a sequence can do, with the writes that it made to scopes of others in their
order. It disturbs nothing below the scope it runs in but by these writes, since each operation on
its own does not, and since the scopes that inspects and nested blocks run in are gone at their end.

So when a call returns, the scopes that were there before are as they were but for the writes, and
it does not matter how the call ended: the scope of the action is popped after a failure too, and a
call in which no action ran made no scope at all.
-/

namespace TaggedMatch

variable {γ σ α β ρ : Type}

namespace Inspect

/-- `inspect.Performs host subjects env s arm bindings s'`: a call with these subjects runs the
action of the arm, with these bindings and from the state `s'`. -/
def Performs (host : InspectHost γ σ α β) (inspect : Inspect γ α) (subjects : List Value)
    (env : Environment) (s : σ) (arm : Arm γ α) (bindings : Bindings) (s' : σ) : Prop :=
  subjects.length = inspect.subjectCount ∧
    ∃ i after, inspect.FirstAt host subjects env s i arm (.ok (some bindings)) after ∧
      s' = host.shown (some (.scanning i)) (.matched i) after

variable {host : InspectHost γ σ α β} {inspect : Inspect γ α} {subjects : List Value}
variable {env : Environment} {s s' : σ} {arm : Arm γ α} {bindings : Bindings}

/-- The scope of the action is popped, however the action ended. -/
theorem env_of_performs (form : Form)
    (h : inspect.Performs host subjects env s arm bindings s') :
    ((inspect.run host form subjects).run (env, s)).2.1 =
      ((host.act arm.action).run (env.within bindings, s')).2.1.pop := by
  obtain ⟨hlength, i, after, hfirst, rfl⟩ := h
  rw [run_found hlength hfirst]
  rcases (host.act arm.action).run
      (env.within bindings, host.shown (some (.scanning i)) (.matched i) after)
    with ⟨e | value, env', s''⟩
  · rfl
  · rfl

theorem env_of_idle (form : Form)
    (h : ∀ arm bindings s', ¬ inspect.Performs host subjects env s arm bindings s') :
    ((inspect.run host form subjects).run (env, s)).2.1 = env := by
  by_cases hlength : subjects.length = inspect.subjectCount
  · rcases InspectHost.passes_or_decides host env.lookup (Value.joint subjects) inspect.arms
      (host.shown none (.scanning 0) s) with ⟨s', hpass⟩ | ⟨i, arm, result, s', hfirst⟩
    · rw [run_exhausted hlength hpass]
    · match result with
      | .error e => rw [run_failed hlength hfirst]
      | .ok (some bindings) => exact absurd ⟨hlength, i, s', hfirst, rfl⟩ (h arm bindings _)
      | .ok none => exact absurd rfl (FirstAt.ne_none hfirst)
  · rw [run_miscounted hlength]

end Inspect

namespace Environment

/-- `Edits env writes env'`: code that began with `env` as its environment left `env'`, having made
these writes. Looking up and assignments that are refused leave no trace.

An inspect is gone through with any host of its own and from any state; what a call leaves of the
environment is what its run leaves (`Inspect.run_evaluate`, `Inspect.run_execute`). -/
inductive Edits : Environment → List Write → Environment → Prop
  | done (env : Environment) : Edits env [] env
  | define {env env' : Environment} {writes : List Write} (name : Name) (value : Value)
      (mutability : Mutability) (rest : Edits (env.define name value mutability) writes env') :
      Edits env writes env'
  | defineGlobal {env env' : Environment} {writes : List Write} (name : Name) (value : Value)
      (rest : Edits (env.defineGlobal name value) writes env') :
      Edits env (.global name value :: writes) env'
  | assign {env env₁ env' : Environment} {writes : List Write} {name : Name} {value : Value}
      (accepted : env.assign name value = .ok env₁) (rest : Edits env₁ writes env') :
      Edits env (.assigned (env.levelOf name) name value :: writes) env'
  | block {env inner env' : Environment} {writes writes' : List Write}
      (inside : Edits env.push writes inner) (rest : Edits inner.pop writes' env') :
      Edits env (writes ++ writes') env'
  | performed {γ σ α β : Type} {host : InspectHost γ σ α β} {inspect : Inspect γ α} (form : Form)
      {subjects : List Value} {env env' : Environment} {s s' : σ} {arm : Arm γ α}
      {bindings : Bindings} {writes writes' : List Write}
      (ran : inspect.Performs host subjects env s arm bindings s')
      (inside : Edits (env.within bindings) writes
        ((host.act arm.action).run (env.within bindings, s')).2.1)
      (rest : Edits ((inspect.run host form subjects).run (env, s)).2.1 writes' env') :
      Edits env (writes ++ writes') env'
  | idle {γ σ α β : Type} {host : InspectHost γ σ α β} {inspect : Inspect γ α} (form : Form)
      {subjects : List Value} {env env' : Environment} {s : σ} {writes : List Write}
      (none : ∀ arm bindings s', ¬ inspect.Performs host subjects env s arm bindings s')
      (rest : Edits ((inspect.run host form subjects).run (env, s)).2.1 writes env') :
      Edits env writes env'

/-- What was done in a scope of bindings is, for the scopes below, nothing but its writes. -/
theorem Frame.performed {env after : Environment} {bindings : Bindings} {writes : List Write}
    (h : Frame ((env.within bindings).depth - 1) (env.within bindings) writes after) :
    Frame env.depth env writes after.pop := by
  have hwithin := frame_within env bindings
  rw [hwithin.depth] at h
  exact (hwithin.trans h).scoped

/-- Whatever code does, it leaves the scopes below its own alone but for its writes. -/
theorem Edits.frame {env env' : Environment} {writes : List Write} (h : Edits env writes env') :
    Frame (env.depth - 1) env writes env' := by
  induction h with
  | done env => exact .refl _ env
  | @define env env' writes name value mutability _ ih =>
      rw [depth_define] at ih
      exact (frame_define env name value mutability).trans ih
  | @defineGlobal env env' writes name value _ ih =>
      exact (frame_defineGlobal (env.depth - 1) env name value).trans ih
  | @assign env env₁ env' writes name value accepted _ ih =>
      have hassign := frame_assign (env.depth - 1) accepted
      rw [hassign.depth] at ih
      exact hassign.trans ih
  | @block env inner env' writes writes' _ _ ihInside ihRest =>
      have hblock : Frame env.depth env writes inner.pop := ihInside.scoped
      rw [hblock.depth] at ihRest
      exact (hblock.mono (Nat.sub_le _ _)).trans ihRest
  | @performed _ _ _ _ _ _ form _ env _ _ _ _ _ writes _ ran _ _ ihInside ihRest =>
      -- The call ends where the action does, whose scope is on top of `env`: one pop down.
      have hperformed := ihInside.performed
      rw [← Inspect.env_of_performs form ran] at hperformed
      rw [hperformed.depth] at ihRest
      exact (hperformed.mono (Nat.sub_le _ _)).trans ihRest
  | @idle _ _ _ _ _ _ form _ _ _ _ _ none _ ih =>
      rw [Inspect.env_of_idle form none] at ih
      exact ih

end Environment

namespace Inspect

open Environment (Edits Frame Write)

/-- What it is for a call of the inspect to let no binding out. -/
structure NoLeak (host : InspectHost γ σ α β) (call : Inspect γ α → List Value → Action σ ρ)
    (inspect : Inspect γ α) : Prop where
  framed : ∀ subjects env s arm bindings s' writes,
    inspect.Performs host subjects env s arm bindings s' →
    Edits (env.within bindings) writes
      ((host.act arm.action).run (env.within bindings, s')).2.1 →
    Frame env.depth env writes ((call inspect subjects).run (env, s)).2.1
  untouched : ∀ subjects env s,
    (∀ arm bindings s', ¬ inspect.Performs host subjects env s arm bindings s') →
    ((call inspect subjects).run (env, s)).2.1 = env

theorem noLeak_run (host : InspectHost γ σ α β) (form : Form) (inspect : Inspect γ α) :
    NoLeak host (fun inspect => inspect.run host form) inspect where
  framed subjects env s arm bindings s' writes ran edits := by
    rw [env_of_performs form ran]
    exact edits.frame.performed
  untouched _ _ _ := env_of_idle form

theorem NoLeak.of_call {ρ' : Type} {call : Inspect γ α → List Value → Action σ ρ}
    {call' : Inspect γ α → List Value → Action σ ρ'} (h : NoLeak host call inspect)
    (hcall : ∀ subjects x,
      ((call' inspect subjects).run x).2 = ((call inspect subjects).run x).2) :
    NoLeak host call' inspect where
  framed subjects env s arm bindings s' writes ran edits := by
    rw [hcall]
    exact h.framed subjects env s arm bindings s' writes ran edits
  untouched subjects env s idle := by
    rw [hcall]
    exact h.untouched subjects env s idle

/-- No call of an inspect lets a binding out, in either form. -/
theorem noLeak (host : InspectHost γ σ α β) (unitHost : InspectHost γ σ α Unit)
    (inspect : Inspect γ α) :
    NoLeak host (evaluate host) inspect ∧ NoLeak unitHost (execute unitHost) inspect := by
  constructor
  · refine (noLeak_run host .expression inspect).of_call fun subjects x => ?_
    rw [run_evaluate]
  · refine (noLeak_run unitHost .statement inspect).of_call fun subjects x => ?_
    rw [run_execute]

/-- A program with one variable that may be assigned to. -/
def outerEnvironment : Environment := Environment.initial.define ⟨2⟩ (.int 5) .isMutable

/-- What an action does that leaves nothing out. -/
def meddled (env : Environment) : Environment :=
  let env := env.define ⟨3⟩ .unit .isMutable
  let env := match env.assign ⟨2⟩ (.int 9) with
    | .ok env => env
    | .error _ => env
  let env := env.defineGlobal ⟨4⟩ (.bool true)
  (env.push.define ⟨5⟩ .null .isImmutable).pop

/-- It also fails in the end. -/
def meddlingHost : InspectHost Unit Nat Nat Nat :=
  tallyHost fun _ => ExceptT.mk fun (env, n) => (.error (.custom "stop"), (meddled env, n))

theorem noLeak_meddling :
    NoLeak meddlingHost (evaluate meddlingHost) numbers ∧
      Frame 1 outerEnvironment [.assigned 0 ⟨2⟩ (.int 9), .global ⟨4⟩ (.bool true)]
        ((numbers.evaluate meddlingHost [.int 7]).run (outerEnvironment, 0)).2.1 := by
  have hkept := (noLeak meddlingHost (tallyHost fun _ => pure ()) numbers).1
  have hran : numbers.Performs meddlingHost [.int 7] outerEnvironment 0
      ⟨⟨.guarded (.binding ⟨1⟩ .wildcard) (), TypeId.int, [⟨1⟩], Span.dummy⟩, 20⟩
      [(⟨1⟩, .int 7)] 1 := by
    refine ⟨rfl, 1, 1, ⟨[_], [_], 0, rfl, rfl, .cons ?_ .nil, ?_, nofun⟩, rfl⟩
    · with_unfolding_all rfl
    · with_unfolding_all rfl
  let inner := (outerEnvironment.within [(⟨1⟩, .int 7)]).define ⟨3⟩ .unit .isMutable
  have hlevel : inner.levelOf ⟨2⟩ = 0 := by with_unfolding_all rfl
  obtain ⟨env₁, haccepted⟩ : ∃ env₁, inner.assign ⟨2⟩ (.int 9) = .ok env₁ :=
    ⟨_, by with_unfolding_all rfl⟩
  have hedits : Edits (outerEnvironment.within [(⟨1⟩, .int 7)])
      [.assigned (inner.levelOf ⟨2⟩) ⟨2⟩ (.int 9), .global ⟨4⟩ (.bool true)]
      ((env₁.defineGlobal ⟨4⟩ (.bool true)).push.define ⟨5⟩ .null .isImmutable).pop :=
    .define ⟨3⟩ .unit .isMutable (.assign haccepted (.defineGlobal ⟨4⟩ (.bool true)
      (.block (.define ⟨5⟩ .null .isImmutable (.done _)) (.done _))))
  have hmeddled : meddled (outerEnvironment.within [(⟨1⟩, .int 7)]) =
      ((env₁.defineGlobal ⟨4⟩ (.bool true)).push.define ⟨5⟩ .null .isImmutable).pop := by
    simp only [meddled, inner] at haccepted ⊢
    rw [haccepted]
  rw [hlevel, ← hmeddled] at hedits
  exact ⟨hkept, hkept.framed _ _ _ _ _ _ _ hran hedits⟩

end Inspect

end TaggedMatch
