import Mathlib.Data.List.Induction
import TaggedMatch.Proofs.Session

/-!
# The life of a cell

A cell is made once and assigned to again and again, with values that are there and with values that
are still to be built. Nothing of how a value is built reaches the cell but the result: an error, a
value of the cell's union, or a value of another one. So there are three things that a request can
do to the cell, and `step_cases` has them: the cell comes to hold the value offered, it stays as it
is, or it turns to its policy.

Only `current` ever changes. What a cell falls back to was prepared when it was made, and that this
preparation cannot have been left out is why such a cell always holds a value. It rests on the
registry too: the empty alternative is looked up anew under the id of the union, and has to be of
that union for the cell to hold a value of its own type afterwards.
-/

namespace TaggedMatch

/-- `d.EmptyValue r u`: `u` is what a union falls back to, the first alternative of the name that it
declares for this, with the default of its payload. -/
structure UnionDef.EmptyValue (r : Registry) (d : UnionDef) (u : UnionValue) : Prop where
  registered : r.union? d.ty = some u.defn
  declared : ∃ empty, d.policy = .fallbackToEmpty empty ∧
    d.alternativeIndex? empty = some u.discriminator
  payload : ∃ alternative, u.defn.alternative? u.discriminator = some alternative ∧
    Value.default r alternative.payload = .ok u.payload

theorem UnionDef.emptyIndex?_eq_some {d : UnionDef} {index : Nat}
    (h : d.emptyIndex? = some index) :
    ∃ empty, d.policy = .fallbackToEmpty empty ∧ d.alternativeIndex? empty = some index := by
  unfold emptyIndex? at h
  split at h
  · next empty hpolicy => exact ⟨empty, hpolicy, h⟩
  · cases h
  · cases h

namespace UnionCell

/-- One assignment to a cell. -/
inductive Request where
  | assign (u : UnionValue)
  | assignWith (built : Except EvalError UnionValue)

/-- The cell after a request. -/
def step (c : UnionCell) : Request → UnionCell
  | .assign u =>
      match c.assign u with
      | .ok c' => c'
      | .error _ => c
  | .assignWith built => (c.assignWith built).2

/-- The cell after requests, the first of the list first. -/
def run (c : UnionCell) (requests : List Request) : UnionCell := requests.foldl step c

/-- The cells as they are made, with a given value or with the default of a union type. -/
def Created (r : Registry) (policy : CellPolicy) (c : UnionCell) : Prop :=
  (∃ initial, UnionCell.new r policy initial = .ok c) ∨
    ∃ ty, UnionCell.withDefault r policy ty = .ok c

/-- The error for a value of a union other than `union`. -/
def foreignError (union : String) (u : UnionValue) : EvalError :=
  .shapeMismatch s!"a value of union `{union}`" s!"a value of union {u.defn.name.tag}"

/-- What a cell of the type `ty` cannot take, and the error that it blames. -/
inductive Refused (ty : TypeId) (union : String) : Except EvalError UnionValue → EvalError → Prop
  | failed (cause : EvalError) : Refused ty union (.error cause) cause
  | foreign {u : UnionValue} (h : u.ty ≠ ty) : Refused ty union (.ok u) (foreignError union u)

/-- The last request that changed the cell was to take what it cannot take. A value of another union
that is assigned changes nothing. -/
def LastRefused (ty : TypeId) (union : String) (requests : List Request) : Prop :=
  ∃ before built cause after, requests = before ++ .assignWith built :: after ∧
    Refused ty union built cause ∧ ∀ q ∈ after, ∃ u, q = .assign u ∧ u.ty ≠ ty

/-! ## Requests -/

variable {r : Registry} {policy : CellPolicy} {c : UnionCell} {u : UnionValue}

theorem get_eq_ok : c.get = .ok u ↔ c.current = some u := by
  unfold get
  split <;> simp_all

theorem isValueless_iff : c.isValueless = true ↔ c.current = none :=
  Option.isNone_iff_eq_none

theorem assign_own (h : u.ty = c.ty) : c.assign u = .ok { c with current := some u } := by
  simp [assign, accept, h, Except.map]

theorem assign_foreign (h : u.ty ≠ c.ty) : c.assign u = .error (foreignError c.name u) := by
  simp [assign, accept, h, Except.map, foreignError]

theorem assignWith_own (h : u.ty = c.ty) :
    c.assignWith (.ok u) = (.assigned, { c with current := some u }) := by
  simp [assignWith, accept, h, Except.bind]

theorem accept_refused {built : Except EvalError UnionValue} {cause : EvalError}
    (h : Refused c.ty c.name built cause) : built.bind c.accept = .error cause := by
  cases h with
  | failed => rfl
  | foreign h => simp [Except.bind, accept, h, foreignError]

theorem refused_propagate {built : Except EvalError UnionValue} {cause : EvalError}
    (hpolicy : c.policy = .propagate) (h : Refused c.ty c.name built cause) :
    c.assignWith built = (.failed cause, { c with current := none }) := by
  simp only [assignWith, accept_refused h, hpolicy, CellPolicy.recover]

theorem refused_abort {built : Except EvalError UnionValue} {cause : EvalError}
    (hpolicy : c.policy = .abort) (h : Refused c.ty c.name built cause) :
    c.assignWith built = (.halted cause, { c with current := none }) := by
  simp only [assignWith, accept_refused h, hpolicy, CellPolicy.recover]

theorem refused_fallback {built : Except EvalError UnionValue} {cause : EvalError}
    {empty : UnionValue} (hpolicy : c.policy = .fallbackToEmpty)
    (hfallback : c.fallback = some empty) (h : Refused c.ty c.name built cause) :
    c.assignWith built = (.fellBack cause, { c with current := some empty }) := by
  simp only [assignWith, accept_refused h, hpolicy, hfallback, CellPolicy.recover]

theorem step_foreign (h : u.ty ≠ c.ty) : c.step (.assign u) = c := by
  rw [step, assign_foreign h]

/-- A request offers a value that the cell takes, or assigns one of another union, or ends in
something to be refused. -/
theorem step_cases (c : UnionCell) (q : Request) :
    (∃ u, u.ty = c.ty ∧ (q = .assign u ∨ q = .assignWith (.ok u)) ∧
        c.step q = { c with current := some u }) ∨
      (∃ u, u.ty ≠ c.ty ∧ q = .assign u ∧ c.step q = c) ∨
      ∃ built cause, Refused c.ty c.name built cause ∧ q = .assignWith built ∧
        c.step q = (c.assignWith built).2 := by
  cases q with
  | assign u =>
      by_cases h : u.ty = c.ty
      · exact .inl ⟨u, h, .inl rfl, by rw [step, assign_own h]⟩
      · exact .inr (.inl ⟨u, h, rfl, step_foreign h⟩)
  | assignWith built =>
      cases built with
      | error cause => exact .inr (.inr ⟨_, cause, .failed cause, rfl, rfl⟩)
      | ok u =>
          by_cases h : u.ty = c.ty
          · exact .inl ⟨u, h, .inr rfl, by rw [step, assignWith_own h]⟩
          · exact .inr (.inr ⟨_, _, .foreign h, rfl, rfl⟩)

theorem run_concat (c : UnionCell) (requests : List Request) (q : Request) :
    c.run (requests ++ [q]) = (c.run requests).step q := by
  simp [run]

theorem assignWith_defn (c : UnionCell) (built : Except EvalError UnionValue) :
    (c.assignWith built).2.defn = c.defn := by
  unfold assignWith
  split
  · rfl
  · split <;> rfl

theorem step_defn (c : UnionCell) (q : Request) : (c.step q).defn = c.defn := by
  rcases step_cases c q with ⟨u, -, -, hstep⟩ | ⟨u, -, -, hstep⟩ | ⟨built, cause, -, -, hstep⟩
  · rw [hstep]
  · rw [hstep]
  · rw [hstep]
    exact assignWith_defn c built

theorem run_defn (c : UnionCell) (requests : List Request) : (c.run requests).defn = c.defn := by
  induction requests generalizing c with
  | nil => rfl
  | cons q rest ih => exact (ih (c.step q)).trans (step_defn c q)

theorem run_ty (c : UnionCell) (requests : List Request) : (c.run requests).ty = c.ty :=
  congrArg UnionDef.ty (run_defn c requests)

/-! ## What every request keeps -/

/-- What holds of a cell from the time it is made. -/
structure Invariant (r : Registry) (policy : CellPolicy) (c : UnionCell) : Prop where
  policy_eq : c.policy = policy
  name_eq : c.name = r.text c.defn.name
  typed : ∀ u, c.current = some u → u.ty = c.ty
  /-- Only failures that are propagated leave a cell without a value. -/
  holds : c.current = none → policy ≠ .fallbackToEmpty
  fallback : policy = .fallbackToEmpty →
    ∃ empty, c.fallback = some empty ∧ c.defn.EmptyValue r empty ∧ empty.ty = c.ty

theorem Created.new (h : Created r policy c) :
    ∃ initial, UnionCell.new r policy initial = .ok c := by
  rcases h with h | ⟨ty, h⟩
  · exact h
  · obtain ⟨initial, -, hnew⟩ := withDefault_eq_ok h
    exact ⟨initial, hnew⟩

theorem Created.start (reachable : r.Reachable) (h : Created r policy c) :
    Invariant r policy c ∧ c.current ≠ none := by
  obtain ⟨initial, hnew⟩ := h.new
  obtain ⟨fallback, hprepare, rfl⟩ := new_eq_ok hnew
  refine ⟨⟨rfl, rfl, fun u hu => ?_, nofun, fun hpolicy => ?_⟩, nofun⟩
  · cases hu
    rfl
  · rcases prepare_eq_ok hprepare with
      ⟨hother, -⟩ | ⟨index, current, empty, hindex, hcurrent, hempty, hsome⟩
    · exact absurd hpolicy hother
    · obtain ⟨alternative, payload, halternative, hpayload, rfl⟩ := defaultAlternative_eq_ok hempty
      have hunion := unionDef_eq_ok.mp hcurrent
      have hty : current.ty = initial.defn.ty :=
        reachable.consistent.ty_of_kind? (Registry.union?_eq_some_iff.mp hunion) rfl
      have hdeclared := UnionDef.emptyIndex?_eq_some hindex
      exact ⟨_, hsome, ⟨hunion, hdeclared, alternative, halternative, hpayload⟩, hty⟩

theorem Invariant.assigned (hc : Invariant r policy c) (h : u.ty = c.ty) :
    Invariant r policy { c with current := some u } := by
  refine ⟨hc.policy_eq, hc.name_eq, fun u' hu' => ?_, nofun, hc.fallback⟩
  cases hu'
  exact h

theorem Invariant.emptied (hc : Invariant r policy c) (h : policy ≠ .fallbackToEmpty) :
    Invariant r policy { c with current := none } :=
  ⟨hc.policy_eq, hc.name_eq, nofun, fun _ => h, hc.fallback⟩

theorem Invariant.step (hc : Invariant r policy c) (q : Request) :
    Invariant r policy (c.step q) := by
  rcases step_cases c q with ⟨u, hty, -, hstep⟩ | ⟨u, -, -, hstep⟩ | ⟨built, cause, h, -, hstep⟩
  · rw [hstep]
    exact hc.assigned hty
  · rw [hstep]
    exact hc
  · rw [hstep]
    cases policy with
    | propagate =>
        rw [refused_propagate hc.policy_eq h]
        exact hc.emptied nofun
    | abort =>
        rw [refused_abort hc.policy_eq h]
        exact hc.emptied nofun
    | fallbackToEmpty =>
        obtain ⟨empty, hfallback, -, hty⟩ := hc.fallback rfl
        rw [refused_fallback hc.policy_eq hfallback h]
        exact hc.assigned hty

theorem Invariant.run (hc : Invariant r policy c) (requests : List Request) :
    Invariant r policy (c.run requests) := by
  induction requests generalizing c with
  | nil => exact hc
  | cons q rest ih => exact ih (hc.step q)

/-! ## When a cell has no value -/

theorem lastRefused_concat {ty : TypeId} {union : String} {requests : List Request} {q : Request} :
    LastRefused ty union (requests ++ [q]) ↔
      (∃ built cause, q = .assignWith built ∧ Refused ty union built cause) ∨
        ∃ u, q = .assign u ∧ u.ty ≠ ty ∧ LastRefused ty union requests := by
  constructor
  · rintro ⟨before, built, cause, after, hsplit, hrefused, hafter⟩
    rcases List.eq_nil_or_concat after with rfl | ⟨after, last, rfl⟩
    · obtain ⟨-, hlast⟩ := List.append_inj' hsplit rfl
      exact .inl ⟨built, cause, List.head_eq_of_cons_eq hlast, hrefused⟩
    · have hsplit : requests ++ [q] = (before ++ .assignWith built :: after) ++ [last] := by
        simpa using hsplit
      obtain ⟨hrequests, hlast⟩ := List.append_inj' hsplit rfl
      obtain ⟨u, hq, hty⟩ := hafter last (by simp)
      refine .inr ⟨u, (List.head_eq_of_cons_eq hlast).trans hq, hty, ?_⟩
      exact ⟨before, built, cause, after, hrequests, hrefused, fun q hq => hafter q (by simp [hq])⟩
  · rintro (⟨built, cause, rfl, hrefused⟩ |
      ⟨u, rfl, hty, before, built, cause, after, rfl, h, hafter⟩)
    · exact ⟨requests, built, cause, [], rfl, hrefused, nofun⟩
    · refine ⟨before, built, cause, after ++ [.assign u], by simp, h, fun q hq => ?_⟩
      rcases List.mem_append.mp hq with hq | hq
      · exact hafter q hq
      · exact ⟨u, List.mem_singleton.mp hq, hty⟩

theorem not_lastRefused_concat {ty : TypeId} {union : String} {requests : List Request}
    {q : Request} (hown : u.ty = ty) (hq : q = .assign u ∨ q = .assignWith (.ok u)) :
    ¬ LastRefused ty union (requests ++ [q]) := by
  rw [lastRefused_concat]
  rcases hq with rfl | rfl
  · rintro (⟨built, cause, hq, -⟩ | ⟨u', hq, hforeign, -⟩)
    · cases hq
    · cases hq
      exact hforeign hown
  · rintro (⟨built, cause, hq, hrefused⟩ | ⟨u', hq, -⟩)
    · cases hq
      cases hrefused with
      | foreign hforeign => exact hforeign hown
    · cases hq

/-- A cell that propagates failures has no value exactly after one. -/
theorem run_valueless_iff (hc : Invariant r .propagate c) (hholds : c.current ≠ none)
    (requests : List Request) :
    (c.run requests).current = none ↔ LastRefused c.ty (r.text c.defn.name) requests := by
  -- From the end: what the cell holds now is decided by the last request that was not passed over.
  induction requests using List.reverseRecOn with
  | nil =>
      refine ⟨fun h => absurd h hholds, ?_⟩
      rintro ⟨before, built, cause, after, hsplit, -, -⟩
      cases (List.append_eq_nil_iff.mp hsplit.symm).2
  | append_singleton requests q ih =>
      have hnow := hc.run requests
      have hty := run_ty c requests
      have hname : (c.run requests).name = r.text c.defn.name := by
        rw [hnow.name_eq, run_defn]
      rw [run_concat]
      rcases step_cases (c.run requests) q with
        ⟨u, hown, hq, hstep⟩ | ⟨u, hforeign, rfl, hstep⟩ | ⟨built, cause, h, rfl, hstep⟩
      · rw [hty] at hown
        rw [hstep]
        exact ⟨nofun, fun h => absurd h (not_lastRefused_concat hown hq)⟩
      · rw [hty] at hforeign
        rw [hstep, ih, lastRefused_concat]
        refine ⟨fun h => .inr ⟨u, rfl, hforeign, h⟩, ?_⟩
        rintro (⟨built, cause, hq, -⟩ | ⟨u', -, -, h⟩)
        · cases hq
        · exact h
      · rw [hstep, refused_propagate hnow.policy_eq h, lastRefused_concat]
        rw [hty, hname] at h
        exact ⟨fun _ => .inl ⟨built, cause, rfl, h⟩, fun _ => rfl⟩

/-! ## The whole life -/

/-- `Lawful r policy c requests now`: `now`, which the cell `c` has become through `requests`, is as
a cell of the policy has to be, and so are the cells that the next request can make of it. -/
structure Lawful (r : Registry) (policy : CellPolicy) (c : UnionCell) (requests : List Request)
    (now : UnionCell) : Prop where
  typed : now.ty = c.ty ∧ ∀ u, now.get = .ok u → u.ty = c.ty
  assign_own : ∀ u, u.ty = c.ty → ∃ c', now.assign u = .ok c' ∧
    now.step (.assign u) = c' ∧ c'.get = .ok u
  assign_foreign : ∀ u, u.ty ≠ c.ty →
    now.assign u = .error (foreignError (r.text c.defn.name) u) ∧ now.step (.assign u) = now
  assignWith_own : ∀ u, u.ty = c.ty →
    (now.assignWith (.ok u)).1 = .assigned ∧ (now.assignWith (.ok u)).2.get = .ok u
  propagate : policy = .propagate →
    (∀ built cause, Refused c.ty (r.text c.defn.name) built cause →
      (now.assignWith built).1 = .failed cause ∧ (now.assignWith built).2.isValueless = true) ∧
    (now.isValueless = true ↔ LastRefused c.ty (r.text c.defn.name) requests)
  valueless : now.isValueless = true →
    let error := EvalError.of (.valueless (r.text c.defn.name))
    now.get = .error error ∧ now.toValue = .error error ∧ now.active = .error error ∧
      ∀ r' alternative, now.payloadAs r' alternative = .error error
  fallback : policy = .fallbackToEmpty → now.isValueless = false ∧
    ∃ empty, c.defn.EmptyValue r empty ∧
      ∀ built cause, Refused c.ty (r.text c.defn.name) built cause →
        (now.assignWith built).1 = .fellBack cause ∧ (now.assignWith built).2.get = .ok empty

/-- Whatever a cell is asked to take in its life, and in whatever order. -/
theorem Created.lawful (reachable : r.Reachable) (created : Created r policy c)
    (requests : List Request) : Lawful r policy c requests (c.run requests) := by
  obtain ⟨hc, hholds⟩ := created.start reachable
  have hnow := hc.run requests
  have hdefn := run_defn c requests
  have hty := run_ty c requests
  have hlast (hpolicy : policy = .propagate) :
      (c.run requests).current = none ↔ LastRefused c.ty (r.text c.defn.name) requests := by
    subst hpolicy
    exact run_valueless_iff hc hholds requests
  generalize c.run requests = now at *
  have hname : now.name = r.text c.defn.name := by rw [hnow.name_eq, hdefn]
  rw [← hname] at hlast
  constructor
  case typed => exact ⟨hty, fun u hu => (hnow.typed u (get_eq_ok.mp hu)).trans hty⟩
  case assign_own =>
    intro u hu
    have hassign := assign_own (hu.trans hty.symm)
    exact ⟨_, hassign, by rw [step, hassign], rfl⟩
  case assign_foreign =>
    intro u hu
    rw [← hty] at hu
    exact ⟨by rw [assign_foreign hu, hname], step_foreign hu⟩
  case assignWith_own =>
    intro u hu
    rw [assignWith_own (hu.trans hty.symm)]
    exact ⟨rfl, rfl⟩
  case propagate =>
    intro hpolicy
    rw [← hname, isValueless_iff]
    refine ⟨fun built cause h => ?_, hlast hpolicy⟩
    rw [← hty] at h
    rw [refused_propagate (hnow.policy_eq.trans hpolicy) h]
    exact ⟨rfl, rfl⟩
  case valueless =>
    intro hvalueless
    have hget : now.get = .error (.of (.valueless (r.text c.defn.name))) := by
      rw [get, isValueless_iff.mp hvalueless, hname]
    refine ⟨hget, ?_, ?_, fun r' alternative => ?_⟩
    · rw [toValue, hget]
      rfl
    · rw [active, hget]
      rfl
    · rw [payloadAs, hget]
      rfl
  case fallback =>
    intro hpolicy
    have hsome : now.isValueless = false := by
      rw [← Bool.not_eq_true, isValueless_iff]
      exact fun hnone => hnow.holds hnone hpolicy
    obtain ⟨empty, hfallback, hempty, -⟩ := hnow.fallback hpolicy
    rw [hdefn] at hempty
    refine ⟨hsome, empty, hempty, fun built cause h => ?_⟩
    rw [← hty, ← hname] at h
    rw [refused_fallback (hnow.policy_eq.trans hpolicy) hfallback h]
    exact ⟨rfl, rfl⟩

/-- The registry of a program with one union, which falls back to a marker. -/
def commandRegistry : Registry :=
  Registry.fresh.run [.fallbackTo "Idle",
    .union "Command" [("Score", TypeId.int), ("Idle", TypeId.unit)] (.fallbackToEmpty ⟨1⟩)]

def command : UnionDef :=
  ⟨⟨2⟩, ⟨5⟩, [⟨⟨3⟩, TypeId.int, Span.dummy⟩, ⟨⟨1⟩, TypeId.unit, Span.dummy⟩], .fallbackToEmpty ⟨1⟩⟩

/-- The cell made with the default of the union. -/
def commandCell : UnionCell :=
  ⟨.fallbackToEmpty, command, "Command", some ⟨command, 0, .int 0⟩, some ⟨command, 1, .unit⟩⟩

theorem lawful_commandCell : commandRegistry.Reachable ∧
    Created commandRegistry .fallbackToEmpty commandCell ∧
    Lawful commandRegistry .fallbackToEmpty commandCell
      [.assign ⟨command, 0, .int 7⟩, .assignWith (.error (.custom "copy failed"))]
      (commandCell.run
        [.assign ⟨command, 0, .int 7⟩, .assignWith (.error (.custom "copy failed"))]) := by
  have reachable : commandRegistry.Reachable := ⟨_, rfl⟩
  have created : Created commandRegistry .fallbackToEmpty commandCell :=
    .inr ⟨⟨5⟩, by with_unfolding_all rfl⟩
  exact ⟨reachable, created, created.lawful reachable _⟩

end UnionCell

end TaggedMatch
