import TaggedMatch.Proofs.Environment.Bindings
import TaggedMatch.Proofs.Host.Recording
import TaggedMatch.Proofs.Pattern.Binders

/-!
# What a guard sees

A guard is asked in the middle of a match. What it is shown is a scope made from a list that is still
being written, and what the action gets is the list at the end. That the two agree rests on one
invariant: a part of a match adds to the bindings it was begun with and takes nothing away.

`Stage` is the moment at which a node is about to be run, `Enters` the step from a node to the part of
it that is run next, once the parts before have matched. Along these steps three things are followed:
which names are bound already and which are still to come (`Enters.binders`), what becomes of the
bindings if the whole matches (`Enters.matched`), and who asks a guard (`Node.records_run`).
-/

namespace TaggedMatch

variable {γ σ α : Type}

/-- A node about to be run on a value, after bindings were made, in a state. -/
structure Stage (γ σ : Type) where
  node : Node γ
  value : Value
  bindings : Bindings
  state : σ

/-- How the run of a stage ends. -/
def Stage.run (host : Host γ σ) (outer : Lookup) (S : Stage γ σ) :
    Except EvalError (Option Bindings) × σ :=
  (S.node.run host outer S.value S.bindings).run S.state

/-- `Enters host outer S later T`: the run of `S` comes to the run of `T`, a part of it, as what is
before this part has matched. The names of what is after it and around it are `later`. -/
inductive Enters (host : Host γ σ) (outer : Lookup) : Stage γ σ → List Name → Stage γ σ → Prop
  | binding {name : Name} {sub : Node γ} {v : Value} {made : Bindings} {s : σ} :
      Enters host outer ⟨.binding name sub, v, made, s⟩ [name] ⟨sub, v, made, s⟩
  | guarded {sub : Node γ} {guard : γ} {v : Value} {made : Bindings} {s : σ} :
      Enters host outer ⟨.guarded sub guard, v, made, s⟩ [] ⟨sub, v, made, s⟩
  | deref {sub : Node γ} {v : Value} {made : Bindings} {s : σ} :
      Enters host outer ⟨.deref sub, .pointer v, made, s⟩ [] ⟨sub, v, made, s⟩
  | union {typeName : String} {d : UnionDef} {active : Nat} {sub : Node γ} {v : Value}
      {made : Bindings} {s : σ} :
      Enters host outer ⟨.unionAlternative d.ty typeName active sub, .union d active v, made, s⟩ []
        ⟨sub, v, made, s⟩
  | variant {ty : TypeId} {typeName : String} {active : Int64} {sub : Node γ} {object : ObjectId}
      {v : Value} {made : Bindings} {s s₁ s₂ s₃ : σ}
      (gives : (host.givesVariant object).run s = (true, s₁))
      (reports : (host.discriminator object).run s₁ = (active, s₂))
      (payload : (host.alternative object active).run s₂ = (some v, s₃)) :
      Enters host outer
        ⟨.variantAlternative ty typeName active sub, .extension ty object, made, s⟩ []
        ⟨sub, v, made, s₃⟩
  | item {earlier later : List (Node γ)} {item : Node γ} {vs ws : List Value} {w : Value}
      {made found : Bindings} {s s' : σ} (before : vs.length = earlier.length)
      (after : ws.length = later.length)
      (matched : (Node.runItems host outer earlier vs made).run s = (.ok (some found), s')) :
      Enters host outer ⟨.tuple (earlier ++ item :: later), .tuple (vs ++ w :: ws), made, s⟩
        (Node.bindersOfItems later) ⟨item, w, found, s'⟩
  | field {typeName : String} {earlier later : List (Nat × Node γ)} {index : Nat} {node : Node γ}
      {d : AggregateDef} {vs : List Value} {w : Value} {made found : Bindings} {s s' : σ}
      (part : vs[index]? = some w)
      (matched : (Node.runFields host outer earlier vs made).run s = (.ok (some found), s')) :
      Enters host outer
        ⟨.fields d.ty typeName (earlier ++ (index, node) :: later), .aggregate d vs, made, s⟩
        (Node.bindersOfSlots later) ⟨node, w, found, s'⟩
  | piece {ty : TypeId} {typeName : String} {earlier later : List (Nat × Node γ)} {index : Nat}
      {node : Node γ} {object : ObjectId} {w : Value} {made found : Bindings} {s s₁ s₂ s₃ : σ}
      (gives : (host.givesPieces object).run s = (true, s₁))
      (matched : (Node.runPieces host outer typeName object earlier made).run s₁ =
        (.ok (some found), s₂))
      (piece : (host.piece object index).run s₂ = (some w, s₃)) :
      Enters host outer
        ⟨.pieces ty typeName (earlier ++ (index, node) :: later), .extension ty object, made, s⟩
        (Node.bindersOfSlots later) ⟨node, w, found, s₃⟩

/-- Steps from a stage to a part of it, and to a part of that. -/
inductive Reaches (host : Host γ σ) (outer : Lookup) : Stage γ σ → List Name → Stage γ σ → Prop
  | here {S : Stage γ σ} : Reaches host outer S [] S
  | enter {S T U : Stage γ σ} {around later : List Name} (step : Enters host outer S around T)
      (rest : Reaches host outer T later U) : Reaches host outer S (later ++ around) U

variable {host : Host γ σ} {outer : Lookup} {S T : Stage γ σ} {later : List Name}
  {made found bindings : Bindings} {s s' t : σ}

/-! ## Parts that matched -/

theorem Node.Binds.grown {P : Value → Prop} {names : List Name} {m : HostM σ (Option Bindings)}
    (h : Node.Binds P made names m) (hrun : m.run s = (.ok (some found), s')) :
    made.Grown P names found := by
  have hends := h s
  rw [Ends, hrun] at hends
  exact hends found rfl

theorem Host.closed_true (host : Host γ σ) : host.Closed fun _ => True :=
  ⟨fun _ _ => trivial, fun _ _ => trivial⟩

/-- The whole matched, so its first part did. -/
theorem of_andThen_some {m : HostM σ (Option Bindings)} {f : Bindings → HostM σ (Option Bindings)}
    (h : (do
      match ← m with
      | some bindings => f bindings
      | none => pure none : HostM σ _).run s = (.ok (some bindings), s')) :
    ∃ found t, m.run s = (.ok (some found), t) ∧ (f found).run t = (.ok (some bindings), s') := by
  rw [run_bind] at h
  rcases hm : m.run s with ⟨e | _ | found, t⟩
  · rw [hm] at h
    cases h
  · rw [hm] at h
    cases h
  · rw [hm] at h
    exact ⟨found, t, rfl, h⟩

namespace Node

theorem runItems_append {earlier : List (Node γ)} {vs : List Value}
    (hlength : vs.length = earlier.length)
    (matched : (runItems host outer earlier vs made).run s = (.ok (some found), t))
    (items : List (Node γ)) (ws : List Value) :
    (runItems host outer (earlier ++ items) (vs ++ ws) made).run s =
      (runItems host outer items ws found).run t := by
  induction earlier generalizing vs made s with
  | nil =>
      obtain rfl := List.length_eq_zero_iff.mp hlength
      rw [runItems] at matched
      · cases matched
        rfl
      · exact fun _ _ _ _ h => nomatch h
  | cons item earlier ih =>
      cases vs with
      | nil => cases hlength
      | cons v vs =>
          rw [runItems] at matched
          obtain ⟨found', t', hitem, hrest⟩ := of_andThen_some matched
          rw [List.cons_append, List.cons_append, runItems, run_bind, hitem]
          exact ih (Nat.succ.inj hlength) hrest

theorem runFields_append {earlier : List (Nat × Node γ)} {vs : List Value}
    (matched : (runFields host outer earlier vs made).run s = (.ok (some found), t))
    (slots : List (Nat × Node γ)) :
    (runFields host outer (earlier ++ slots) vs made).run s =
      (runFields host outer slots vs found).run t := by
  induction earlier generalizing made s with
  | nil =>
      rw [runFields] at matched
      cases matched
      rfl
  | cons slot earlier ih =>
      obtain ⟨index, node⟩ := slot
      rw [runFields] at matched
      rw [List.cons_append, runFields]
      split at matched
      · obtain ⟨found', t', hnode, hrest⟩ := of_andThen_some matched
        rw [run_bind, hnode]
        exact ih hrest
      · cases matched

theorem runPieces_append {earlier : List (Nat × Node γ)} {typeName : String} {object : ObjectId}
    (matched : (runPieces host outer typeName object earlier made).run s = (.ok (some found), t))
    (slots : List (Nat × Node γ)) :
    (runPieces host outer typeName object (earlier ++ slots) made).run s =
      (runPieces host outer typeName object slots found).run t := by
  induction earlier generalizing made s with
  | nil =>
      rw [runPieces] at matched
      cases matched
      rfl
  | cons slot earlier ih =>
      obtain ⟨index, node⟩ := slot
      rw [runPieces, run_lift_bind] at matched
      rw [List.cons_append, runPieces, run_lift_bind]
      split at matched
      · obtain ⟨found', t', hnode, hrest⟩ := of_andThen_some matched
        rw [run_bind, hnode]
        exact ih hrest
      · cases matched

/-! What the parts before have bound. -/

theorem grown_runItems {items : List (Node γ)} {vs : List Value} (hlength : vs.length = items.length)
    (matched : (runItems host outer items vs made).run s = (.ok (some found), t)) :
    ∃ more, found = made ++ more ∧ more.map (·.1) = bindersOfItems items := by
  obtain ⟨more, hfound, hmore, -⟩ :=
    (runItems_binds host.closed_true items hlength (fun _ _ => trivial) made).grown matched
  exact ⟨more, hfound, hmore⟩

theorem grown_runFields {slots : List (Nat × Node γ)} {vs : List Value}
    (matched : (runFields host outer slots vs made).run s = (.ok (some found), t)) :
    ∃ more, found = made ++ more ∧ more.map (·.1) = bindersOfSlots slots := by
  obtain ⟨more, hfound, hmore, -⟩ :=
    (runFields_binds host.closed_true slots (fun _ _ => trivial) made).grown matched
  exact ⟨more, hfound, hmore⟩

theorem grown_runPieces {slots : List (Nat × Node γ)} {typeName : String} {object : ObjectId}
    (matched : (runPieces host outer typeName object slots made).run s = (.ok (some found), t)) :
    ∃ more, found = made ++ more ∧ more.map (·.1) = bindersOfSlots slots := by
  have hobject : host.Meets (.extension TypeId.unit object) (.extension TypeId.unit object) := .here
  obtain ⟨more, hfound, hmore, -⟩ :=
    (runPieces_binds (host.closed_meets _) slots hobject made).grown matched
  exact ⟨more, hfound, hmore⟩

/-! One more part has matched. -/

theorem runItems_snoc {earlier : List (Node γ)} {item : Node γ} {vs : List Value} {w : Value}
    (hlength : vs.length = earlier.length)
    (matched : (runItems host outer earlier vs made).run s = (.ok (some found), t))
    (next : (item.run host outer w found).run t = (.ok (some bindings), s')) :
    (runItems host outer (earlier ++ [item]) (vs ++ [w]) made).run s =
      (.ok (some bindings), s') := by
  rw [runItems_append hlength matched, runItems, run_bind, next]
  simp only [runItems]
  rfl

theorem runFields_snoc {earlier : List (Nat × Node γ)} {index : Nat} {node : Node γ}
    {vs : List Value} {w : Value} (part : vs[index]? = some w)
    (matched : (runFields host outer earlier vs made).run s = (.ok (some found), t))
    (next : (node.run host outer w found).run t = (.ok (some bindings), s')) :
    (runFields host outer (earlier ++ [(index, node)]) vs made).run s =
      (.ok (some bindings), s') := by
  rw [runFields_append matched, runFields, part]
  dsimp only
  rw [run_bind, next]
  simp only [runFields]
  rfl

theorem runPieces_snoc {earlier : List (Nat × Node γ)} {index : Nat} {node : Node γ}
    {typeName : String} {object : ObjectId} {w : Value} {u : σ}
    (matched : (runPieces host outer typeName object earlier made).run s = (.ok (some found), t))
    (piece : (host.piece object index).run t = (some w, u))
    (next : (node.run host outer w found).run u = (.ok (some bindings), s')) :
    (runPieces host outer typeName object (earlier ++ [(index, node)]) made).run s =
      (.ok (some bindings), s') := by
  rw [runPieces_append matched, runPieces, run_lift_bind, piece]
  dsimp only
  rw [run_bind, next]
  simp only [runPieces]
  rfl

end Node

/-! ## What a step does to the bindings -/

/-- What a part is begun with is what the stage was begun with and the names of the parts before. -/
theorem Enters.binders (h : Enters host outer S later T) :
    ∃ more, T.bindings = S.bindings ++ more ∧
      S.node.binders = more.map (·.1) ++ T.node.binders ++ later := by
  cases h with
  | binding | guarded | deref | union | variant => exact ⟨[], by simp [Node.binders]⟩
  | item before after matched =>
      obtain ⟨more, rfl, hmore⟩ := Node.grown_runItems before matched
      refine ⟨more, rfl, ?_⟩
      simp [Node.binders, Node.bindersOfItems_eq, hmore]
  | field _ matched =>
      obtain ⟨more, rfl, hmore⟩ := Node.grown_runFields matched
      refine ⟨more, rfl, ?_⟩
      simp [Node.binders, Node.bindersOfSlots_eq, hmore]
  | piece _ matched _ =>
      obtain ⟨more, rfl, hmore⟩ := Node.grown_runPieces matched
      refine ⟨more, rfl, ?_⟩
      simp [Node.binders, Node.bindersOfSlots_eq, hmore]

/-- If a stage matches, its part did, and the bindings of the part are the first of those of the
stage. -/
theorem Enters.matched (h : Enters host outer S later T)
    (hS : S.run host outer = (.ok (some bindings), s')) :
    ∃ found t, T.run host outer = (.ok (some found), t) ∧ found <+: bindings := by
  cases h with
  | binding =>
      rw [Stage.run, Node.run] at hS
      obtain ⟨found, t, hsub, hrest⟩ := of_andThen_some hS
      cases hrest
      exact ⟨found, _, hsub, List.prefix_append found _⟩
  | guarded =>
      rw [Stage.run, Node.run] at hS
      obtain ⟨found, t, hsub, hrest⟩ := of_andThen_some hS
      refine ⟨found, t, hsub, ?_⟩
      rw [run_bind] at hrest
      split at hrest
      · split at hrest
        · cases hrest
          exact List.prefix_rfl
        · cases hrest
      · cases hrest
  | deref =>
      rw [Stage.run, Node.run] at hS
      exact ⟨bindings, s', hS, List.prefix_rfl⟩
  | union =>
      rw [Stage.run, Node.run, expectType, if_pos rfl, pure_bind, if_pos rfl] at hS
      exact ⟨bindings, s', hS, List.prefix_rfl⟩
  | variant gives reports payload =>
      rw [Stage.run, Node.run, expectType, if_pos rfl, pure_bind, run_lift_bind, gives, if_pos rfl,
        run_lift_bind, reports, if_pos rfl, run_lift_bind, payload] at hS
      exact ⟨bindings, s', hS, List.prefix_rfl⟩
  | @item earlier rest item vs ws w made found s t before after matched =>
      rw [Stage.run, Node.run, if_pos (by simp [before, after]),
        Node.runItems_append before matched, Node.runItems] at hS
      obtain ⟨found', t', hitem, hrest⟩ := of_andThen_some hS
      obtain ⟨more, rfl, -⟩ := Node.grown_runItems after hrest
      exact ⟨found', t', hitem, List.prefix_append found' more⟩
  | field part matched =>
      rw [Stage.run, Node.run, expectType, if_pos rfl, pure_bind, Node.runFields_append matched,
        Node.runFields, part] at hS
      obtain ⟨found', t', hnode, hrest⟩ := of_andThen_some hS
      obtain ⟨more, rfl, -⟩ := Node.grown_runFields hrest
      exact ⟨found', t', hnode, List.prefix_append found' more⟩
  | piece gives matched piece =>
      rw [Stage.run, Node.run, expectType, if_pos rfl, pure_bind, run_lift_bind, gives, if_pos rfl,
        Node.runPieces_append matched, Node.runPieces, run_lift_bind, piece] at hS
      obtain ⟨found', t', hnode, hrest⟩ := of_andThen_some hS
      obtain ⟨more, rfl, -⟩ := Node.grown_runPieces hrest
      exact ⟨found', t', hnode, List.prefix_append found' more⟩

theorem Reaches.binders (h : Reaches host outer S later T) :
    ∃ more, T.bindings = S.bindings ++ more ∧
      S.node.binders = more.map (·.1) ++ T.node.binders ++ later := by
  induction h with
  | here => exact ⟨[], by simp⟩
  | enter step _ ih =>
      obtain ⟨first, hfirst, hnames⟩ := step.binders
      obtain ⟨second, hsecond, hnames'⟩ := ih
      exact ⟨first ++ second, by simp [hsecond, hfirst], by simp [hnames, hnames']⟩

theorem Reaches.matched (h : Reaches host outer S later T)
    (hS : S.run host outer = (.ok (some bindings), s')) :
    ∃ found t, T.run host outer = (.ok (some found), t) ∧ found <+: bindings := by
  induction h generalizing bindings s' with
  | here => exact ⟨bindings, s', hS, List.prefix_rfl⟩
  | enter step _ ih =>
      obtain ⟨found, t, hpart, hprefix⟩ := step.matched hS
      obtain ⟨found', t', hend, hprefix'⟩ := ih hpart
      exact ⟨found', t', hend, hprefix'.trans hprefix⟩

/-! ## Who asks a guard -/

/-- The run of `S` comes to a guarded node, whose pattern has just matched when the guard is asked: the
calls by then are `before`. -/
inductive Asks (host : Host γ σ) (outer : Lookup) (S : Stage γ (σ × List (Call γ)))
    (before : List (Call γ)) (guard : γ) : Lookup → Except EvalError Bool → Prop
  | intro {sub : Node γ} {w : Value} {made found : Bindings} {start : σ × List (Call γ)} {now : σ}
      {later : List Name}
      (reached : Reaches host.recorded outer S later ⟨.guarded sub guard, w, made, start⟩)
      (matched : (sub.run host.recorded outer w made).run start =
        (.ok (some found), (now, before))) :
      Asks host outer S before guard (found.scope outer)
        ((host.test guard (found.scope outer)).run now).1

theorem Asks.enter {S T : Stage γ (σ × List (Call γ))} {before : List (Call γ)} {guard : γ}
    {scope : Lookup} {answer : Except EvalError Bool} (step : Enters host.recorded outer S later T)
    (h : Asks host outer T before guard scope answer) :
    Asks host outer S before guard scope answer := by
  obtain ⟨reached, matched⟩ := h
  exact .intro (.enter step reached) matched

/-- The guards asked in a computation that starts here, with the calls made before, are in `P`. -/
def Records (P : List (Call γ) → γ → Lookup → Except EvalError Bool → Prop)
    (m : HostM (σ × List (Call γ)) α) (start : σ × List (Call γ)) : Prop :=
  ∃ made, (m.run start).2.2 = start.2 ++ made ∧ ∀ before guard scope answer after,
    made = before ++ .test guard scope answer :: after → P (start.2 ++ before) guard scope answer

namespace Records

variable {P Q : List (Call γ) → γ → Lookup → Except EvalError Bool → Prop}
  {m : HostM (σ × List (Call γ)) α} {start : σ × List (Call γ)} {β : Type}

theorem imp (h : Records P m start)
    (hP : ∀ before guard scope answer, P before guard scope answer → Q before guard scope answer) :
    Records Q m start := by
  obtain ⟨made, hmade, hall⟩ := h
  exact ⟨made, hmade, fun _ _ _ _ _ heq => hP _ _ _ _ (hall _ _ _ _ _ heq)⟩

/-- A computation that leaves the record alone. -/
theorem silent (h : (m.run start).2.2 = start.2) : Records P m start := by
  refine ⟨[], by rw [h, List.append_nil], fun before _ _ _ after heq => ?_⟩
  simp at heq

theorem pure (a : α) : Records P (Pure.pure a) start := silent rfl

theorem throw (e : EvalError) :
    Records P (MonadExcept.throw e : HostM (σ × List (Call γ)) α) start := silent rfl

theorem bind {f : α → HostM (σ × List (Call γ)) β} (hm : Records P m start)
    (hf : ∀ a t, m.run start = (.ok a, t) → Records P (f a) t) : Records P (m >>= f) start := by
  obtain ⟨made, hmade, hall⟩ := hm
  rw [Records, run_bind]
  rcases hrun : m.run start with ⟨e | a, t⟩
  · rw [hrun] at hmade
    exact ⟨made, hmade, hall⟩
  · rw [hrun] at hmade
    obtain ⟨more, hmore, hall'⟩ := hf a t hrun
    dsimp only at hmade ⊢
    refine ⟨made ++ more, by rw [hmore, hmade, List.append_assoc], ?_⟩
    intro before guard scope answer after heq
    rcases append_eq_append_cons heq with ⟨rest, hfirst, -⟩ | ⟨rest, rfl, hsecond⟩
    · exact hall before guard scope answer rest hfirst
    · rw [← List.append_assoc, ← hmade]
      exact hall' rest guard scope answer after hsecond

/-- A part that matched hands its bindings on. -/
theorem andThen {m : HostM (σ × List (Call γ)) (Option Bindings)}
    {f : Bindings → HostM (σ × List (Call γ)) (Option Bindings)} (hm : Records P m start)
    (hf : ∀ found t, m.run start = (.ok (some found), t) → Records P (f found) t) :
    Records P (do
      match ← m with
      | some bindings => f bindings
      | none => Pure.pure none) start := by
  refine hm.bind fun result t hrun => ?_
  cases result with
  | none => exact .pure none
  | some found => exact hf found t hrun

/-- A question to an object is no question to a guard. -/
theorem ask {ask : StateM σ α} {call : α → Call γ}
    (hcall : ∀ a guard scope answer, call a ≠ .test guard scope answer)
    {f : α → HostM (σ × List (Call γ)) β}
    (hf : ∀ a t, (recording ask call).run start = (a, t) → Records P (f a) t) :
    Records P (liftM (recording ask call) >>= f) start := by
  refine bind ⟨[call (ask.run start.1).1], rfl, ?_⟩ fun a t hrun => ?_
  · intro before guard scope answer after heq
    obtain ⟨-, hsame, -⟩ := by simpa [List.singleton_eq_append_iff] using heq
    exact absurd hsame.symm (hcall _ guard scope answer)
  · cases hrun
    exact hf _ _ rfl

theorem test {guard : γ} {scope : Lookup}
    (h : P start.2 guard scope ((host.test guard scope).run start.1).1) :
    Records P (host.recorded.test guard scope) start := by
  refine ⟨[.test guard scope ((host.test guard scope).run start.1).1], rfl, ?_⟩
  intro before guard' scope' answer after heq
  obtain ⟨rfl, ⟨rfl, rfl, rfl⟩, rfl⟩ := by simpa [List.singleton_eq_append_iff] using heq
  rwa [List.append_nil]

theorem expectType {ty got : TypeId} {typeName : String} (hm : ty = got → Records P m start) :
    Records P (do
      TaggedMatch.expectType ty typeName got
      m) start := by
  rw [TaggedMatch.expectType]
  split
  · next heq =>
      rw [pure_bind]
      exact hm heq
  · exact .throw _

end Records

namespace Node

variable (host : Host γ σ) (outer : Lookup)

theorem records_literal {P : List (Call γ) → γ → Lookup → Except EvalError Bool → Prop}
    (test : LiteralTest) (v : Value) (start : σ × List (Call γ)) :
    Records P (test.run v) start := by
  unfold LiteralTest.run
  split
  · exact .pure _
  · exact .pure _
  · exact .pure _
  · exact .expectType fun _ => .pure _
  · exact .throw _

mutual

theorem records_run (node : Node γ) (v : Value) (made : Bindings) (start : σ × List (Call γ)) :
    Records (Asks host outer ⟨node, v, made, start⟩) (node.run host.recorded outer v made)
      start := by
  match node with
  | .wildcard =>
      rw [run]
      exact .pure _
  | .literal test =>
      rw [run]
      refine (records_literal test v start).bind fun fits _ _ => ?_
      split
      · exact .pure _
      · exact .pure _
  | .binding name sub =>
      rw [run]
      refine .andThen ?_ fun _ _ _ => .pure _
      exact (records_run sub v made start).imp fun _ _ _ _ => .enter .binding
  | .null =>
      unfold run
      split
      · exact .pure _
      · exact .pure _
      · exact .throw _
  | .deref sub =>
      unfold run
      split
      · exact (records_run sub _ made start).imp fun _ _ _ _ => .enter .deref
      · exact .pure _
      · exact .throw _
  | .unionAlternative ty typeName discriminator sub =>
      unfold run
      split
      · refine .expectType fun hty => ?_
        subst hty
        split
        · next hactive =>
            subst hactive
            exact (records_run sub _ made start).imp fun _ _ _ _ => .enter .union
        · exact .pure _
      · exact .throw _
  | .variantAlternative ty typeName discriminator sub =>
      unfold run
      split
      · refine .expectType fun hty => ?_
        subst hty
        refine .ask (by simp) fun gives s₁ hgives => ?_
        split
        · next hyes =>
            subst hyes
            refine .ask (by simp) fun active s₂ hactive => ?_
            split
            · next hsame =>
                subst hsame
                refine .ask (by simp) fun payload s₃ hpayload => ?_
                split
                · exact (records_run sub _ made s₃).imp fun _ _ _ _ =>
                    .enter (.variant hgives hactive hpayload)
                · exact .throw _
            · exact .pure _
        · exact .throw _
      · exact .throw _
  | .tuple items =>
      unfold run
      split
      · split
        · next vs hlength =>
            have hstart : (runItems host.recorded outer [] [] made).run start =
                (.ok (some made), start) := by
              simp only [runItems]
              rfl
            exact records_runItems items vs hlength rfl hstart
        · exact .throw _
      · exact .throw _
  | .fields ty typeName slots =>
      unfold run
      split
      · refine .expectType fun hty => ?_
        subst hty
        have hstart (vs : List Value) : (runFields host.recorded outer [] vs made).run start =
            (.ok (some made), start) := by
          rw [runFields]
          rfl
        exact records_runFields slots (hstart _)
      · exact .throw _
  | .pieces ty typeName slots =>
      unfold run
      split
      · refine .expectType fun hty => ?_
        subst hty
        refine .ask (by simp) fun gives s₁ hgives => ?_
        split
        · next hyes =>
            subst hyes
            have hstart (object : ObjectId) :
                (runPieces host.recorded outer typeName object [] made).run s₁ =
                  (.ok (some made), s₁) := by
              rw [runPieces]
              rfl
            exact records_runPieces slots hgives (hstart _)
        · exact .throw _
      · exact .throw _
  | .guarded sub guard =>
      rw [run]
      refine .andThen ((records_run sub v made start).imp fun _ _ _ _ => .enter .guarded) ?_
      intro found now hmatched
      refine .bind (.test (.intro .here hmatched)) fun holds _ _ => ?_
      split
      · exact .pure _
      · exact .pure _

/-- The items after those that have matched. -/
theorem records_runItems {earlier : List (Node γ)} {passed : List Value} {made found : Bindings}
    {s start : σ × List (Call γ)} (items : List (Node γ)) (vs : List Value)
    (hlength : vs.length = items.length) (hpassed : passed.length = earlier.length)
    (matched : (runItems host.recorded outer earlier passed made).run s =
      (.ok (some found), start)) :
    Records (Asks host outer ⟨.tuple (earlier ++ items), .tuple (passed ++ vs), made, s⟩)
      (runItems host.recorded outer items vs found) start := by
  match items, vs with
  | item :: items, v :: vs =>
      have hafter : vs.length = items.length := Nat.succ.inj hlength
      rw [runItems]
      refine .andThen ?_ fun found' t hitem => ?_
      · exact (records_run item v found start).imp fun _ _ _ _ =>
          .enter (.item hpassed hafter matched)
      · have hmatched := runItems_snoc hpassed matched hitem
        have hrest := records_runItems items vs hafter (by simp [hpassed]) hmatched
        simpa using hrest
  | [], [] =>
      simp only [runItems]
      exact .pure _

theorem records_runFields {typeName : String} {d : AggregateDef} {vs : List Value}
    {earlier : List (Nat × Node γ)} {made found : Bindings} {s start : σ × List (Call γ)}
    (slots : List (Nat × Node γ))
    (matched : (runFields host.recorded outer earlier vs made).run s =
      (.ok (some found), start)) :
    Records (Asks host outer ⟨.fields d.ty typeName (earlier ++ slots), .aggregate d vs, made, s⟩)
      (runFields host.recorded outer slots vs found) start := by
  match slots with
  | [] =>
      rw [runFields]
      exact .pure _
  | (index, node) :: slots =>
      rw [runFields]
      split
      · next v hv =>
          refine .andThen ?_ fun found' t hnode => ?_
          · exact (records_run node v found start).imp fun _ _ _ _ => .enter (.field hv matched)
          · have hmatched := runFields_snoc hv matched hnode
            have hrest : Records (Asks host outer ⟨.fields d.ty typeName
                (earlier ++ [(index, node)] ++ slots), .aggregate d vs, made, s⟩) _ t :=
              records_runFields slots hmatched
            simpa using hrest
      · exact .throw _

theorem records_runPieces {ty : TypeId} {typeName : String} {object : ObjectId}
    {earlier : List (Nat × Node γ)} {made found : Bindings} {s s₁ start : σ × List (Call γ)}
    (slots : List (Nat × Node γ)) (gives : (host.recorded.givesPieces object).run s = (true, s₁))
    (matched : (runPieces host.recorded outer typeName object earlier made).run s₁ =
      (.ok (some found), start)) :
    Records
      (Asks host outer ⟨.pieces ty typeName (earlier ++ slots), .extension ty object, made, s⟩)
      (runPieces host.recorded outer typeName object slots found) start := by
  match slots with
  | [] =>
      rw [runPieces]
      exact .pure _
  | (index, node) :: slots =>
      rw [runPieces]
      refine .ask (by simp) fun piece s₂ hpiece => ?_
      split
      · next v =>
          refine .andThen ?_ fun found' t hnode => ?_
          · exact (records_run node v found s₂).imp fun _ _ _ _ =>
              .enter (.piece gives matched hpiece)
          · have hmatched := runPieces_snoc matched hpiece hnode
            have hrest : Records (Asks host outer ⟨.pieces ty typeName
                (earlier ++ [(index, node)] ++ slots), .extension ty object, made, s⟩) _ t :=
              records_runPieces slots gives hmatched
            simpa using hrest
      · exact .throw _

end

end Node

namespace Compiled

variable {c : Compiled γ} {v : Value}

/-- Every guard that a match asks is asked by a guarded node that the match comes to. -/
theorem asks_of_calls {s : σ} {before after : List (Call γ)} {guard : γ} {scope : Lookup}
    {answer : Except EvalError Bool}
    (asked : c.calls host v outer s = before ++ .test guard scope answer :: after) :
    Asks host outer ⟨c.root, v, [], (s, [])⟩ before guard scope answer := by
  obtain ⟨made, hmade, hall⟩ := Node.records_run host outer c.root v [] (s, [])
  have hcalls : c.calls host v outer s = made := by
    rw [calls, run, hmade, List.nil_append]
  exact hall before guard scope answer after (hcalls.symm.trans asked)

/-- What a guard has seen bound is the first that is bound at the end. -/
theorem prefix_of_guarded {sub : Node γ} {guard : γ} {w : Value} {s s' : σ}
    {start : σ × List (Call γ)} {now : σ × List (Call γ)}
    (reached : Reaches host.recorded outer ⟨c.root, v, [], (s, [])⟩ later
      ⟨.guarded sub guard, w, made, start⟩)
    (matched : (sub.run host.recorded outer w made).run start = (.ok (some found), now))
    (h : (c.run host v outer).run s = (.ok (some bindings), s')) : found <+: bindings := by
  have hwhole : Stage.run host.recorded outer ⟨c.root, v, [], (s, [])⟩ =
      (.ok (some bindings), (s', c.calls host v outer s)) := by
    have hrecorded := c.run_recorded host v outer s
    rwa [h] at hrecorded
  obtain ⟨found', t, hnode, hprefix⟩ := reached.matched hwhole
  obtain ⟨found'', t', hsub, hsame⟩ := Enters.guarded.matched hnode
  rw [Stage.run, matched] at hsub
  cases hsub
  exact hsame.trans hprefix

/-- In a match of `v` a guard was asked in `scope`, with `before` the calls by then: by a node over
`sub`, which was run on `w` after `made` was bound and has just matched with `found`. -/
structure GuardedAt (c : Compiled γ) (host : Host γ σ) (v : Value) (outer : Lookup) (s : σ)
    (before : List (Call γ)) (guard : γ) (scope : Lookup) (answer : Except EvalError Bool)
    (sub : Node γ) (w : Value) (made found : Bindings) (later : List Name) : Prop where
  asked : ∃ start now, Reaches host.recorded outer ⟨c.root, v, [], (s, [])⟩ later
      ⟨.guarded sub guard, w, made, start⟩ ∧
    (sub.run host.recorded outer w made).run start = (.ok (some found), (now, before)) ∧
    ((host.test guard scope).run now).1 = answer
  /-- The names of the match are those bound before, those below the guard, and all others. -/
  names : c.root.binders = made.map (·.1) ++ sub.binders ++ later
  /-- A name bound below the guard or by a part before has the value that it has at the end. -/
  bound : ∀ name, name ∈ made.map (·.1) ∨ name ∈ sub.binders → ∃ u, scope name = some u ∧
    ∀ bindings s', (c.run host v outer).run s = (.ok (some bindings), s') →
      ∀ u', (name, u') ∈ bindings ↔ u' = u
  /-- Any other name has the value that it has outside. -/
  free : ∀ name, name ∉ made.map (·.1) → name ∉ sub.binders → scope name = outer name
  /-- That includes the names of parts after the guard and of the bindings around it. -/
  unbound : ∀ name ∈ later, scope name = outer name

/-- What a guard saw is what the action gets, for every guard that a match asks. -/
theorem guard_sees {r : Registry} {p : Pattern γ} {ty : TypeId} (checked : p.check r ty = .ok c)
    (host : Host γ σ) (v : Value) (outer : Lookup) (s : σ) {before after : List (Call γ)}
    {guard : γ} {scope : Lookup} {answer : Except EvalError Bool}
    (asked : c.calls host v outer s = before ++ .test guard scope answer :: after) :
    ∃ sub w made found later,
      c.GuardedAt host v outer s before guard scope answer sub w made found later := by
  obtain @⟨sub, w, made, found, start, now, later, hreached, hmatched⟩ := asks_of_calls asked
  obtain ⟨made', hmade, hnames⟩ := hreached.binders
  obtain rfl : made = made' := hmade
  rw [Node.binders] at hnames
  -- No name is bound twice, so a scope and a list of bindings say the same.
  have hnodup : c.root.binders.Nodup := by
    obtain ⟨⟨-, hnodup⟩, rfl⟩ := Pattern.check_eq_ok_iff.mp checked
    exact (Pattern.bound_draft p ty).nodup_iff.mpr hnodup
  obtain ⟨more, hfound, hmore, -⟩ :=
    (Node.run_binds host.recorded.closed_true sub trivial made).grown hmatched
  have hfoundNames : found.map (·.1) = made.map (·.1) ++ sub.binders := by
    rw [hfound, List.map_append, hmore]
  obtain ⟨hfoundNodup, -, hdisjoint⟩ := List.nodup_append.mp (hnames ▸ hnodup)
  have hfree (name) (hname : name ∉ made.map (·.1) ++ sub.binders) :
      found.scope outer name = outer name := by
    rw [← hfoundNames] at hname
    exact Bindings.scope_of_notMem hname
  refine ⟨sub, w, made, found, later, ⟨start, now, hreached, hmatched, rfl⟩, hnames, ?_, ?_, ?_⟩
  · intro name hname
    rw [← List.mem_append, ← hfoundNames] at hname
    obtain ⟨⟨name, u⟩, hmem, rfl⟩ := List.mem_map.mp hname
    refine ⟨u, Bindings.scope_of_mem (hfoundNames ▸ hfoundNodup) hmem, fun bindings s' hrun u' => ?_⟩
    have hbindings : (bindings.map (·.1)).Nodup := by
      rw [names_of_run hrun]
      exact hnodup
    exact Bindings.mem_iff_of_mem hbindings
      ((prefix_of_guarded hreached hmatched hrun).subset hmem)
  · exact fun name hmade hsub => hfree name (by simp [hmade, hsub])
  · exact fun name hlater => hfree name fun hearlier => hdisjoint name hearlier name hlater rfl

end Compiled

/-- The end of a segment is under a guard; its start is written later and matched before. -/
def guardedSegmentPattern : Pattern Unit :=
  .binding Span.dummy ⟨7⟩ (.fields Span.dummy [
    ⟨⟨3⟩, .guarded Span.dummy (.bind Span.dummy ⟨9⟩) (), Span.dummy⟩,
    ⟨⟨2⟩, .bind Span.dummy ⟨8⟩, Span.dummy⟩])

def guardedSegmentCompiled : Compiled Unit :=
  ⟨.binding ⟨7⟩ (.fields ⟨5⟩ "Segment"
    [(0, .binding ⟨8⟩ .wildcard), (1, .guarded (.binding ⟨9⟩ .wildcard) ())]),
    ⟨5⟩, [⟨7⟩, ⟨9⟩, ⟨8⟩], Span.dummy⟩

/-- A program without objects, whose guards hold of everything. -/
def trustingHost : Host Unit Unit where
  test _ _ := pure true
  givesPieces _ := pure false
  piece _ _ := pure none
  givesVariant _ := pure false
  discriminator _ := pure 0
  alternative _ _ := pure none

def segment : Value :=
  .aggregate ⟨⟨1⟩, ⟨5⟩, [⟨⟨2⟩, TypeId.int, .isPublic, Span.dummy⟩,
    ⟨⟨3⟩, TypeId.int, .isPublic, Span.dummy⟩]⟩ [.int 1, .int 2]

/-- The guard sees the start and the end and does not see the segment, which is bound after it. -/
theorem guard_sees_in_segment :
    let scope := Bindings.scope [(⟨8⟩, .int 1), (⟨9⟩, .int 2)] Lookup.empty
    guardedSegmentCompiled.calls trustingHost segment Lookup.empty () =
        [] ++ .test () scope (.ok true) :: [] ∧
      ∃ sub w made found later, guardedSegmentCompiled.GuardedAt trustingHost segment Lookup.empty ()
        [] () scope (.ok true) sub w made found later := by
  intro scope
  have checked : guardedSegmentPattern.check segmentRegistry ⟨5⟩ = .ok guardedSegmentCompiled := by
    rw [guardedSegmentCompiled, ← mergeSort_slots_of_perm (List.Perm.swap ..) (by decide)]
    with_unfolding_all rfl
  have asked : guardedSegmentCompiled.calls trustingHost segment Lookup.empty () =
      [] ++ .test () scope (.ok true) :: [] := by
    with_unfolding_all rfl
  exact ⟨asked, Compiled.guard_sees checked trustingHost segment Lookup.empty () asked⟩

end TaggedMatch
