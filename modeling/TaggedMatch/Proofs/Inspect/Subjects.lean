import TaggedMatch.Proofs.Host.Recording
import TaggedMatch.Proofs.Inspect.FirstMatch
import TaggedMatch.Proofs.Pattern.BinderTypes
import TaggedMatch.Proofs.Pattern.Enclosing
import TaggedMatch.Proofs.Pattern.Growth
import TaggedMatch.Proofs.Registry.Indexes

/-!
# Several subjects

Several subjects are matched as one: their patterns become a sequence, their types a tuple type that
the building issues, their values a tuple. Nothing of this shows. A row of patterns is accepted just if
each would be for its own subject, and no identifier is bound in two of them; it matches as the patterns
would one by one, each in the scope of what those before it have bound.

The tuple type is new in general, and the patterns are checked in a registry that has it. That a pattern
for one of the subjects passes there just if it did before is where the registry has to be valid. A
single subject is matched as it is, and comes to the same.
-/

namespace TaggedMatch

variable {γ σ α : Type}

/-! ## Patterns in turn -/

/-- `InTurn host cs vs outer s result calls s'`: the patterns are matched against as many values one by
one, each in the scope of the bindings of those before it. The first that does not match ends it; if all
match, their bindings are joined in order. The calls are those of the single matches. -/
inductive InTurn (host : Host γ σ) : List (Compiled γ) → List Value → Lookup → σ →
    Except EvalError (Option Bindings) → List (Call γ) → σ → Prop
  | done {outer : Lookup} {s : σ} : InTurn host [] [] outer s (.ok (some [])) [] s
  | next {c : Compiled γ} {cs : List (Compiled γ)} {v : Value} {vs : List Value} {outer : Lookup}
      {s s₁ s' : σ} {bindings : Bindings} {result : Except EvalError (Option Bindings)}
      {calls : List (Call γ)} (matched : (c.run host v outer).run s = (.ok (some bindings), s₁))
      (rest : InTurn host cs vs (bindings.scope outer) s₁ result calls s') :
      InTurn host (c :: cs) (v :: vs) outer s (result.map (Option.map (bindings ++ ·)))
        (c.calls host v outer s ++ calls) s'
  | stopped {c : Compiled γ} {cs : List (Compiled γ)} {v : Value} {vs : List Value} {outer : Lookup}
      {s s' : σ} {result : Except EvalError (Option Bindings)}
      (ended : (c.run host v outer).run s = (result, s'))
      (unmatched : ∀ bindings, result ≠ .ok (some bindings)) :
      InTurn host (c :: cs) (v :: vs) outer s result (c.calls host v outer s) s'

variable {host : Host γ σ} {outer : Lookup} {before : Bindings} {s s' : σ} {calls : List (Call γ)}
  {result : Except EvalError (Option Bindings)} {cs : List (Compiled γ)} {vs : List Value}

/-- Patterns in turn always come to an end. -/
theorem exists_inTurn (host : Host γ σ) (outer : Lookup) (s : σ) (h : cs.length = vs.length) :
    ∃ result calls s', InTurn host cs vs outer s result calls s' := by
  induction cs generalizing vs outer s with
  | nil =>
      obtain rfl := List.length_eq_zero_iff.mp h.symm
      exact ⟨_, _, _, .done⟩
  | cons c cs ih =>
      cases vs with
      | nil => cases h
      | cons v vs =>
          rcases hrun : (c.run host v outer).run s with ⟨e | _ | bindings, s₁⟩
          · exact ⟨_, _, _, .stopped hrun nofun⟩
          · exact ⟨_, _, _, .stopped hrun nofun⟩
          · obtain ⟨result, calls, s', hrest⟩ := ih (bindings.scope outer) s₁ (Nat.succ.inj h)
            exact ⟨_, _, _, .next hrun hrest⟩

/-- A pattern matched after others, with its calls recorded after theirs. -/
theorem Compiled.run_after (c : Compiled γ) (host : Host γ σ) (v : Value) (outer : Lookup)
    (before : Bindings) (s : σ) (earlier : List (Call γ)) :
    (c.root.run host.recorded outer v before).run (s, earlier) =
      (((c.run host v (before.scope outer)).run s).1.map (Option.map (before ++ ·)),
        (((c.run host v (before.scope outer)).run s).2,
          earlier ++ c.calls host v (before.scope outer) s)) := by
  have henclosed : c.root.run host.recorded outer v before =
      Option.map (before ++ ·) <$> c.run host.recorded v (before.scope outer) := by
    have hnode : Prefixed before (c.root.run host.recorded outer v (before ++ [])) _ :=
      Node.run_enclosed c.root v before []
    rwa [List.append_nil] at hnode
  rw [henclosed, run_map, c.run_recorded_after]

theorem map_append_append (before bindings : Bindings)
    (result : Except EvalError (Option Bindings)) :
    (result.map (Option.map (bindings ++ ·))).map (Option.map (before ++ ·)) =
      result.map (Option.map (before ++ bindings ++ ·)) := by
  rcases result with e | _ | found
  · rfl
  · rfl
  · simp [Except.map]

theorem map_nil_append (result : Except EvalError (Option Bindings)) :
    result.map (Option.map ([] ++ ·)) = result := by
  rcases result with e | _ | found
  · rfl
  · rfl
  · rfl

/-- What patterns do in turn, the items of a tuple do, after bindings that enclose them. -/
theorem InTurn.runItems (h : InTurn host cs vs (before.scope outer) s result calls s')
    (earlier : List (Call γ)) :
    (Node.runItems host.recorded outer (cs.map (·.root)) vs before).run (s, earlier) =
      (result.map (Option.map (before ++ ·)), (s', earlier ++ calls)) := by
  generalize hscope : before.scope outer = scope at h
  induction h generalizing before earlier with
  | done =>
      simp only [List.map_nil, Node.runItems, Except.map, Option.map_some, List.append_nil]
      rfl
  | @next c cs v vs scope s s₁ s' bindings result calls matched _ ih =>
      subst hscope
      have hitem := c.run_after host v outer before s earlier
      rw [matched] at hitem
      have hrest := ih (earlier ++ c.calls host v (before.scope outer) s)
        (Bindings.scope_append before bindings outer)
      rw [List.map_cons, Node.runItems, run_bind, hitem, map_append_append, ← List.append_assoc]
      exact hrest
  | @stopped c cs v vs scope s s' result ended unmatched =>
      subst hscope
      have hitem := c.run_after host v outer before s earlier
      rw [ended] at hitem
      rw [List.map_cons, Node.runItems, run_bind, hitem]
      rcases result with e | _ | bindings
      · rfl
      · rfl
      · exact absurd rfl (unmatched bindings)

/-- What does as the items of a tuple do, does as the patterns do in turn. -/
theorem Compiled.ended_iff_inTurn {whole : Compiled γ}
    (hwhole : ∀ {σ : Type} (host : Host γ σ) (outer : Lookup),
      whole.run host (Value.joint vs) outer = Node.runItems host outer (cs.map (·.root)) vs [])
    (hlength : cs.length = vs.length) (host : Host γ σ) (outer : Lookup) (s : σ) :
    ((whole.run host (Value.joint vs) outer).run s = (result, s') ∧
      whole.calls host (Value.joint vs) outer s = calls) ↔
        InTurn host cs vs outer s result calls s' := by
  have hended {result : Except EvalError (Option Bindings)} {calls : List (Call γ)} {s' : σ}
      (h : InTurn host cs vs outer s result calls s') :
      (whole.run host (Value.joint vs) outer).run s = (result, s') ∧
        whole.calls host (Value.joint vs) outer s = calls := by
    have hitems : (Node.runItems host.recorded outer (cs.map (·.root)) vs []).run (s, []) =
        (result.map (Option.map ([] ++ ·)), (s', [] ++ calls)) := InTurn.runItems h []
    have hrecorded := whole.run_recorded host (Value.joint vs) outer s
    rw [hwhole, hitems, map_nil_append] at hrecorded
    obtain ⟨hresult, hstate⟩ := Prod.ext_iff.mp hrecorded
    obtain ⟨hstate, hcalls⟩ := Prod.ext_iff.mp hstate
    exact ⟨Prod.ext hresult.symm hstate.symm, hcalls.symm⟩
  refine ⟨?_, hended⟩
  rintro ⟨hrun, hcalls⟩
  obtain ⟨result', calls', s'', h⟩ := exists_inTurn host outer s hlength
  obtain ⟨hrun', hcalls'⟩ := hended h
  rw [hrun] at hrun'
  cases hrun'
  rw [← hcalls, hcalls']
  exact h

/-! ## Sequences -/

namespace Pattern

variable {r r' : Registry} {ty : TypeId} {tys : List TypeId} {items : List (Pattern γ)} {span : Span}

theorem legal_sequence_iff (hkind : r.kind? ty = some (.tuple tys))
    (arity : items.length = tys.length) :
    (sequence span items).Legal r ty ↔ ∀ x ∈ items.zip tys, x.1.Legal r x.2 := by
  have hzip : items.zip (tys.map (PieceDef.mk none)) =
      (items.zip tys).map fun x => (x.1, PieceDef.mk none x.2) := List.zip_map_right ..
  constructor
  · rintro (_ | _ | _ | _ | _ | _ | _ | ⟨shown, -, inner⟩)
    obtain rfl := shown.unique (.tuple hkind)
    intro x hx
    exact inner x.1 ⟨none, x.2⟩ (hzip ▸ List.mem_map.mpr ⟨x, hx, rfl⟩)
  · intro h
    refine .sequence (.tuple hkind) (by simpa using arity) fun item part hmem => ?_
    rw [hzip] at hmem
    obtain ⟨x, hx, heq⟩ := List.mem_map.mp hmem
    cases heq
    exact h x hx

/-- The check of a sequence against a tuple type. -/
theorem check_sequence_eq_ok_iff (hkind : r.kind? ty = some (.tuple tys))
    (arity : items.length = tys.length) {c : Compiled γ} :
    (sequence span items).check r ty = .ok c ↔
      (∀ x ∈ items.zip tys, x.1.Legal r x.2) ∧ (items.flatMap binders).Nodup ∧
        c = ⟨.tuple ((items.zip tys).map fun x => (x.1.draft r x.2).node), ty,
          items.flatMap binders, span⟩ := by
  have hnode : ((sequence span items).draft r ty).node =
      .tuple ((items.zip tys).map fun x => (x.1.draft r x.2).node) := by
    have hlayout : r.layout (.tuple tys) ty span = .ok ⟨.tuple, tys.map (⟨none, ·⟩)⟩ := rfl
    rw [draft_sequence hkind hlayout (by simpa using arity), draftItems_eq]
    simp only [Layout.ofItems, List.map_map, ← List.map_uncurry_zip_eq_zipWith]
    simp only [Function.comp_def, List.map_id']
    rfl
  rw [check_eq_ok_iff_legal, legal_sequence_iff hkind arity, binders_sequence, hnode]
  rfl

end Pattern

/-! ## Rows of patterns -/

theorem Value.joint_of_several (several : vs.length ≠ 1) : Value.joint vs = .tuple vs := by
  rcases vs with _ | ⟨first, _ | ⟨second, rest⟩⟩
  · rfl
  · exact absurd rfl several
  · rfl

namespace Inspect.Builder

variable {r r' : Registry} {ty : TypeId} {tys : List TypeId} {patterns : List (Pattern γ)}
  {c : Compiled γ}

/-- Each pattern passes the check for its own subject, and no identifier is bound twice in all. -/
def Accepted (r : Registry) (tys : List TypeId) (patterns : List (Pattern γ)) : Prop :=
  (∀ x ∈ patterns.zip tys, ∃ c, x.1.check r x.2 = .ok c) ∧
    (patterns.flatMap Pattern.binders).Nodup

/-- Matched as one, the patterns do what the patterns for the single subjects do in turn. -/
def Together (r : Registry) (tys : List TypeId) (patterns : List (Pattern γ))
    (whole : Compiled γ) : Prop :=
  ∃ cs, List.Forall₂ (fun x c => x.1.check r x.2 = .ok c) (patterns.zip tys) cs ∧
    ∀ vs : List Value, vs.length = tys.length → ∀ {σ : Type} (host : Host γ σ) (outer : Lookup),
      whole.run host (Value.joint vs) outer = Node.runItems host outer (cs.map (·.root)) vs []

theorem runItems_one (host : Host γ σ) (outer : Lookup) (node : Node γ) (v : Value)
    (bindings : Bindings) :
    Node.runItems host outer [node] [v] bindings = node.run host outer v bindings := by
  rw [Node.runItems]
  conv_rhs => rw [← bind_pure (node.run host outer v bindings)]
  refine bind_congr fun result => ?_
  cases result with
  | none => rfl
  | some found => simp only [Node.runItems]

theorem accepted_one {p : Pattern γ} {ty : TypeId} :
    (∃ c, p.check r ty = .ok c) ↔ Accepted r [ty] [p] := by
  simp only [Accepted, List.zip_cons_cons, List.zip_nil_right, List.forall_mem_singleton,
    List.flatMap_singleton]
  refine ⟨?_, And.left⟩
  rintro ⟨c, hc⟩
  exact ⟨⟨c, hc⟩, (Pattern.check_eq_ok_iff_legal.mp hc).2.1⟩

theorem together_one {p : Pattern γ} {ty : TypeId} (checked : p.check r ty = .ok c) :
    Together r [ty] [p] c := by
  refine ⟨[c], .cons checked .nil, fun vs hvs σ host outer => ?_⟩
  obtain ⟨v, rfl⟩ := List.length_eq_one_iff.mp hvs
  exact (runItems_one host outer c.root v []).symm

section Several

variable (valid : r.isValid = true) (h : Registry.Extends r r') (htexts : Registry.SameTexts r r')
  (known : ∀ ty ∈ tys, r.knows ty = true) (hkind : r'.kind? ty = some (.tuple tys))
  (arity : patterns.length = tys.length)
include valid h htexts known hkind arity

theorem accepted_several {span : Span} :
    (∃ c, (Pattern.sequence span patterns).check r' ty = .ok c) ↔ Accepted r tys patterns := by
  simp only [Pattern.check_sequence_eq_ok_iff hkind arity, Accepted]
  have hsame (x) (hx : x ∈ patterns.zip tys) :
      (∃ c, x.1.check r' x.2 = .ok c) ↔ ∃ c, x.1.check r x.2 = .ok c :=
    exists_congr fun c =>
      Pattern.check_eq_ok_iff_of_extends valid h htexts (known x.2 (List.of_mem_zip hx).2)
  constructor
  · rintro ⟨c, hlegal, hnodup, -⟩
    refine ⟨fun x hx => (hsame x hx).mp ?_, hnodup⟩
    have hbinders := (List.nodup_flatMap.mp hnodup).1 x.1 (List.of_mem_zip hx).1
    exact ⟨_, Pattern.check_eq_ok_iff_legal.mpr ⟨hlegal x hx, hbinders, rfl⟩⟩
  · rintro ⟨hall, hnodup⟩
    refine ⟨_, fun x hx => ?_, hnodup, rfl⟩
    obtain ⟨c, hc⟩ := (hsame x hx).mpr (hall x hx)
    exact (Pattern.check_eq_ok_iff_legal.mp hc).1

theorem together_several {span : Span} (checked : (Pattern.sequence span patterns).check r' ty = .ok c)
    (several : tys.length ≠ 1) : Together r tys patterns c := by
  have haccepted := (accepted_several valid h htexts known hkind arity).mp ⟨c, checked⟩
  obtain ⟨-, -, rfl⟩ := (Pattern.check_sequence_eq_ok_iff hkind arity).mp checked
  obtain ⟨cs, hcs⟩ := exists_forall₂_iff.mpr haccepted.1
  have hroots : (patterns.zip tys).map (fun x => (x.1.draft r' x.2).node) = cs.map (·.root) := by
    have hroot : List.Forall₂ (fun x c => (x.1.draft r' x.2).node = c.root) (patterns.zip tys) cs := by
      refine hcs.imp fun x c hc => ?_
      obtain ⟨hlegal, -, rfl⟩ := Pattern.check_eq_ok_iff_legal.mp hc
      rw [hlegal.draft_extends h htexts]
    rw [← List.forall₂_eq_eq_eq, List.forall₂_map_left_iff, List.forall₂_map_right_iff]
    exact hroot
  refine ⟨cs, hcs, fun vs hvs σ host outer => ?_⟩
  have hlength : vs.length = (cs.map (·.root)).length := by
    rw [← hroots, List.length_map, List.length_zip, arity, Nat.min_self, hvs]
  rw [Value.joint_of_several (hvs ▸ several), Compiled.run, hroots, Node.run, if_pos hlength]

end Several

/-- What the subjects are matched as, whether there is one or several. -/
theorem exists_subjectType (reachable : r.Reachable) (valid : r.isValid = true) (hne : tys ≠ [])
    (known : ∀ ty ∈ tys, r.knows ty = true) :
    ∃ ty r', subjectType r tys = some (ty, r') ∧
      ∀ patterns : List (Pattern γ), patterns.length = tys.length →
        ((∃ c, (joint patterns).check r' ty = .ok c) ↔ Accepted r tys patterns) ∧
          ∀ c, (joint patterns).check r' ty = .ok c → Together r tys patterns c := by
  match tys with
  | [ty] =>
      refine ⟨ty, r, rfl, fun patterns arity => ?_⟩
      obtain ⟨p, rfl⟩ := List.length_eq_one_iff.mp arity
      exact ⟨accepted_one, fun c => together_one⟩
  | first :: second :: rest =>
      generalize htys : first :: second :: rest = tys at known
      have several : tys.length ≠ 1 := by simp [← htys]
      have hextends : Registry.Extends r (r.tuple tys).2 := r.apply_extends (.tuple tys)
      have htexts : Registry.SameTexts r (r.tuple tys).2 := reachable.sameTexts_run [.tuple tys]
      have hkind := reachable.indexed.kind?_tuple tys
      refine ⟨(r.tuple tys).1, (r.tuple tys).2, by rw [← htys]; rfl, fun patterns arity => ?_⟩
      rw [joint_of_several (arity ▸ several)]
      exact ⟨accepted_several valid hextends htexts known hkind arity, fun c checked =>
        together_several valid hextends htexts known hkind arity checked several⟩

/-- The arm matches the subjects as the patterns of the row match them in turn. -/
def InRow (r : Registry) (tys : List TypeId) (inspect : Inspect γ α)
    (row : List (Pattern γ) × α) (arm : Arm γ α) : Prop :=
  arm.action = row.2 ∧
    ∃ cs, List.Forall₂ (fun x c => x.1.check r x.2 = .ok c) (row.1.zip tys) cs ∧
      ∀ vs : List Value, vs.length = tys.length →
        ∃ subject, inspect.subjectValue vs = .ok subject ∧
          ∀ {σ : Type} (host : Host γ σ) (outer : Lookup) (s : σ)
            (result : Except EvalError (Option Bindings)) (calls : List (Call γ)) (s' : σ),
            ((arm.pattern.run host subject outer).run s = (result, s') ∧
              arm.pattern.calls host subject outer s = calls) ↔
                InTurn host cs vs outer s result calls s'

theorem Together.inRow {inspect : Inspect γ α} {row : List (Pattern γ) × α} {arm : Arm γ α}
    (h : Together r tys row.1 arm.pattern) (haction : arm.action = row.2)
    (arity : row.1.length = tys.length) (hcount : inspect.subjectCount = tys.length) :
    InRow r tys inspect row arm := by
  obtain ⟨cs, hcs, hrun⟩ := h
  refine ⟨haction, cs, hcs, fun vs hvs => ?_⟩
  have hlength : cs.length = vs.length := by
    rw [← hcs.length_eq, List.length_zip, arity, Nat.min_self, hvs]
  exact ⟨Value.joint vs, subjectValue_eq_ok (hvs.trans hcount.symm), fun host outer s _ _ _ =>
    Compiled.ended_iff_inTurn (hrun vs hvs) hlength host outer s⟩

/-- Rows of patterns over several subjects, or one, are accepted and matched as their patterns are one
by one. -/
theorem rows_in_turn (reachable : r.Reachable) (valid : r.isValid = true) (hne : tys ≠ [])
    (known : ∀ ty ∈ tys, r.knows ty = true) {rows : List (List (Pattern γ) × α)}
    (arity : ∀ row ∈ rows, row.1.length = tys.length) :
    ((∃ inspect, (((ofSubjects tys).withRows rows).build r).1 = .ok inspect) ↔
        ∀ row ∈ rows, Accepted r tys row.1) ∧
      ∀ inspect, (((ofSubjects tys).withRows rows).build r).1 = .ok inspect →
        List.Forall₂ (InRow r tys inspect) rows inspect.arms := by
  obtain ⟨ty, r', hsubject, hjoint⟩ := exists_subjectType (γ := γ) reachable valid hne known
  have hbuilder : (ofSubjects tys).withRows rows =
      ⟨tys, rows.map fun row => (joint row.1, row.2), []⟩ := by
    rw [withRows_eq arity, withArms_eq]
    rfl
  rw [hbuilder]
  constructor
  · rw [exists_build_iff hsubject]
    simp only [List.forall_mem_map, true_and]
    exact forall₂_congr fun row hrow => (hjoint row.1 (arity row hrow)).1
  · intro inspect built
    obtain ⟨-, -, hcount, harms⟩ := (build_eq_ok_iff hsubject).mp built
    rw [List.forall₂_map_left_iff] at harms
    refine ((List.forall₂_and_left rows inspect.arms).mpr ⟨arity, harms⟩).imp ?_
    rintro row arm ⟨hrow, hcheck, haction⟩
    exact ((hjoint row.1 hrow).2 arm.pattern hcheck).inRow haction hrow hcount

/-- One arm over two numbers, with a guard on the second. -/
def numberRows : List (List (Pattern Unit) × Nat) :=
  [([.bind Span.dummy ⟨1⟩, .guarded Span.dummy (.bind Span.dummy ⟨2⟩) ()], 10)]

def twoNumbers : Inspect Unit Nat where
  subject := ⟨5⟩
  subjectCount := 2
  arms := [⟨⟨.tuple [.binding ⟨1⟩ .wildcard, .guarded (.binding ⟨2⟩ .wildcard) ()], ⟨5⟩, [⟨1⟩, ⟨2⟩],
    Span.dummy⟩, 10⟩]

theorem rows_in_turn_of_numbers :
    let tys := [TypeId.int, TypeId.int]
    (((ofSubjects tys).withRows numberRows).build Registry.fresh).1 = .ok twoNumbers ∧
      (∀ row ∈ numberRows, Accepted Registry.fresh tys row.1) ∧
        List.Forall₂ (InRow Registry.fresh tys twoNumbers) numberRows twoNumbers.arms := by
  intro tys
  have built : (((ofSubjects tys).withRows numberRows).build Registry.fresh).1 = .ok twoNumbers := by
    with_unfolding_all rfl
  have valid : Registry.fresh.isValid = true := by decide +kernel
  have known : ∀ ty ∈ tys, Registry.fresh.knows ty = true := by decide +kernel
  have arity : ∀ row ∈ numberRows, row.1.length = tys.length := by decide +kernel
  obtain ⟨haccepted, hrows⟩ :=
    rows_in_turn Registry.reachable_fresh valid (List.cons_ne_nil _ _) known arity
  exact ⟨built, haccepted.mp ⟨_, built⟩, hrows twoNumbers built⟩

end Inspect.Builder

end TaggedMatch
