import TaggedMatch.Proofs.Host.Ending

/-!
# The calls that a match makes

What a match asks of the surrounding program, and in what order, is not part of its result. A host
can be made to write it down: `Host.recorded` works on the state of the host together with the calls
made so far, each with its answer. A match cannot tell the difference (`Compiled.run_recorded`), so
`Compiled.calls` are the calls that the match makes with the host itself.
-/

namespace TaggedMatch

variable {γ σ α β : Type}

/-- A call to the surrounding program, with its answer. -/
inductive Call (γ : Type) where
  | test (guard : γ) (scope : Lookup) (answer : Except EvalError Bool)
  | givesPieces (object : ObjectId) (answer : Bool)
  | piece (object : ObjectId) (index : Nat) (answer : Option Value)
  | givesVariant (object : ObjectId) (answer : Bool)
  | discriminator (object : ObjectId) (answer : Int64)
  | alternative (object : ObjectId) (discriminator : Int64) (answer : Option Value)

/-- The same computation, which writes its call down. -/
def recording (m : StateM σ α) (call : α → Call γ) : StateM (σ × List (Call γ)) α := fun s =>
  ((m.run s.1).1, ((m.run s.1).2, s.2 ++ [call (m.run s.1).1]))

/-- The same host, which writes down every call. -/
def Host.recorded (host : Host γ σ) : Host γ (σ × List (Call γ)) where
  test guard scope := ExceptT.mk (recording (host.test guard scope).run (.test guard scope))
  givesPieces object := recording (host.givesPieces object) (.givesPieces object)
  piece object index := recording (host.piece object index) (.piece object index)
  givesVariant object := recording (host.givesVariant object) (.givesVariant object)
  discriminator object := recording (host.discriminator object) (.discriminator object)
  alternative object discriminator :=
    recording (host.alternative object discriminator) (.alternative object discriminator)

/-- The calls that a match makes, in order. -/
def Compiled.calls (host : Host γ σ) (pattern : Compiled γ) (value : Value) (outer : Lookup)
    (s : σ) : List (Call γ) :=
  ((pattern.run host.recorded value outer).run (s, [])).2.2

/-- A call among two lists of calls stands in the one or in the other. -/
theorem append_eq_append_cons {α : Type} {first second before after : List α} {a : α}
    (h : first ++ second = before ++ a :: after) :
    (∃ rest, first = before ++ a :: rest ∧ after = rest ++ second) ∨
      ∃ rest, before = first ++ rest ∧ second = rest ++ a :: after := by
  rcases List.append_eq_append_iff.mp h with ⟨rest, hbefore, hsecond⟩ | ⟨rest, hfirst, hafter⟩
  · exact .inr ⟨rest, hbefore, hsecond⟩
  · cases rest with
    | nil => exact .inr ⟨[], by simp [hfirst], hafter.symm⟩
    | cons b rest =>
        cases hafter
        exact .inl ⟨rest, hfirst, rfl⟩

theorem ends_recorded_test {host : Host γ σ} {guard : γ} {scope : Lookup}
    {s : σ × List (Call γ)} {Q : Bool → σ × List (Call γ) → Prop}
    {E : EvalError → σ × List (Call γ) → Prop} :
    Ends (host.recorded.test guard scope) s Q E ↔
      Ends (host.test guard scope) s.1
        (fun holds s' => Q holds (s', s.2 ++ [.test guard scope (.ok holds)]))
        fun e s' => E e (s', s.2 ++ [.test guard scope (.error e)]) := by
  have hrun : (host.recorded.test guard scope).run s =
      (((host.test guard scope).run s.1).1, (((host.test guard scope).run s.1).2,
        s.2 ++ [.test guard scope ((host.test guard scope).run s.1).1])) := rfl
  rw [Ends, Ends, hrun]
  rcases (host.test guard scope).run s.1 with ⟨_ | _, s'⟩
  · rfl
  · rfl

/-! ## Recording makes no difference -/

/-- The first computation does what the second does and writes calls down, which only depend on the
state it starts in. -/
def Mirrors (m' : HostM (σ × List (Call γ)) α) (m : HostM σ α) : Prop :=
  ∀ s, ∃ made, ∀ calls, m'.run (s, calls) = ((m.run s).1, ((m.run s).2, calls ++ made))

namespace Mirrors

theorem pure (a : α) : Mirrors (γ := γ) (σ := σ) (Pure.pure a) (Pure.pure a) :=
  fun s => ⟨[], fun calls => by rw [List.append_nil]; rfl⟩

theorem throw (e : EvalError) :
    Mirrors (γ := γ) (σ := σ) (α := α) (MonadExcept.throw e) (MonadExcept.throw e) :=
  fun s => ⟨[], fun calls => by rw [List.append_nil]; rfl⟩

theorem recording (m : StateM σ α) (call : α → Call γ) :
    Mirrors (liftM (TaggedMatch.recording m call) : HostM (σ × List (Call γ)) α)
      (liftM m : HostM σ α) :=
  fun s => ⟨[call (m.run s).1], fun _ => rfl⟩

theorem test (host : Host γ σ) (guard : γ) (scope : Lookup) :
    Mirrors (host.recorded.test guard scope) (host.test guard scope) :=
  fun s => ⟨[.test guard scope ((host.test guard scope).run s).1], fun _ => rfl⟩

theorem bind {m' : HostM (σ × List (Call γ)) α} {m : HostM σ α}
    {f' : α → HostM (σ × List (Call γ)) β} {f : α → HostM σ β} (hm : Mirrors m' m)
    (hf : ∀ a, Mirrors (f' a) (f a)) : Mirrors (m' >>= f') (m >>= f) := by
  intro s
  obtain ⟨made, hmade⟩ := hm s
  rcases hrun : m.run s with ⟨e | a, s'⟩
  · refine ⟨made, fun calls => ?_⟩
    rw [run_bind, run_bind, hmade, hrun]
  · obtain ⟨more, hmore⟩ := hf a s'
    refine ⟨made ++ more, fun calls => ?_⟩
    rw [run_bind, run_bind, hmade, hrun]
    dsimp only
    rw [hmore, List.append_assoc]

theorem expectType (ty : TypeId) (typeName : String) (got : TypeId) :
    Mirrors (γ := γ) (σ := σ) (TaggedMatch.expectType ty typeName got)
      (TaggedMatch.expectType ty typeName got) := by
  unfold TaggedMatch.expectType
  split
  · exact .pure _
  · exact .throw _

theorem literal (test : LiteralTest) (v : Value) :
    Mirrors (γ := γ) (σ := σ) (test.run v) (test.run v) := by
  unfold LiteralTest.run
  split
  · exact .pure _
  · exact .pure _
  · exact .pure _
  · exact .bind (.expectType _ _ _) fun _ => .pure _
  · exact .throw _

end Mirrors

namespace Node

variable (host : Host γ σ) (outer : Lookup)

/-- A part that matched hands its bindings on, recorded or not. -/
theorem mirrors_andThen {m' : HostM (σ × List (Call γ)) (Option Bindings)}
    {m : HostM σ (Option Bindings)} {f' : Bindings → HostM (σ × List (Call γ)) (Option Bindings)}
    {f : Bindings → HostM σ (Option Bindings)} (hm : Mirrors m' m)
    (hf : ∀ bindings, Mirrors (f' bindings) (f bindings)) :
    Mirrors (do
      match ← m' with
      | some bindings => f' bindings
      | none => pure none) (do
      match ← m with
      | some bindings => f bindings
      | none => pure none) := by
  refine hm.bind fun result => ?_
  cases result with
  | none => exact .pure none
  | some bindings => exact hf bindings

mutual

theorem run_mirrors (node : Node γ) (v : Value) (bindings : Bindings) :
    Mirrors (node.run host.recorded outer v bindings) (node.run host outer v bindings) := by
  match node with
  | .wildcard =>
      simp only [run]
      exact .pure _
  | .literal test =>
      simp only [run]
      refine .bind (.literal test v) fun fits => ?_
      split
      · exact .pure _
      · exact .pure _
  | .binding name sub =>
      simp only [run]
      exact mirrors_andThen (run_mirrors sub v bindings) fun _ => .pure _
  | .null =>
      unfold run
      split
      · exact .pure _
      · exact .pure _
      · exact .throw _
  | .deref sub =>
      unfold run
      split
      · exact run_mirrors sub _ bindings
      · exact .pure _
      · exact .throw _
  | .unionAlternative ty typeName discriminator sub =>
      unfold run
      split
      · refine .bind (.expectType _ _ _) fun _ => ?_
        split
        · exact run_mirrors sub _ bindings
        · exact .pure _
      · exact .throw _
  | .variantAlternative ty typeName discriminator sub =>
      unfold run
      split
      · next object =>
          refine .bind (.expectType _ _ _) fun _ => .bind (.recording _ _) fun gives => ?_
          split
          · refine .bind (.recording _ _) fun active => ?_
            split
            · refine .bind (.recording _ _) fun payload => ?_
              split
              · exact run_mirrors sub _ bindings
              · exact .throw _
            · exact .pure _
          · exact .throw _
      · exact .throw _
  | .tuple items =>
      unfold run
      split
      · split
        · exact runItems_mirrors items _ bindings
        · exact .throw _
      · exact .throw _
  | .fields ty typeName slots =>
      unfold run
      split
      · exact .bind (.expectType _ _ _) fun _ => runFields_mirrors slots _ bindings
      · exact .throw _
  | .pieces ty typeName slots =>
      unfold run
      split
      · refine .bind (.expectType _ _ _) fun _ => .bind (.recording _ _) fun gives => ?_
        split
        · exact runPieces_mirrors slots typeName _ bindings
        · exact .throw _
      · exact .throw _
  | .guarded sub guard =>
      simp only [run]
      refine mirrors_andThen (run_mirrors sub v bindings) fun _ =>
        .bind (.test _ _ _) fun holds => ?_
      split
      · exact .pure _
      · exact .pure _

theorem runItems_mirrors (items : List (Node γ)) (vs : List Value) (bindings : Bindings) :
    Mirrors (runItems host.recorded outer items vs bindings)
      (runItems host outer items vs bindings) := by
  match items, vs with
  | item :: items, v :: vs =>
      simp only [runItems]
      exact mirrors_andThen (run_mirrors item v bindings) fun _ => runItems_mirrors items vs _
  | [], _ | _ :: _, [] =>
      simp only [runItems]
      exact .pure _

theorem runFields_mirrors (slots : List (Nat × Node γ)) (vs : List Value) (bindings : Bindings) :
    Mirrors (runFields host.recorded outer slots vs bindings)
      (runFields host outer slots vs bindings) := by
  match slots with
  | [] =>
      simp only [runFields]
      exact .pure _
  | (index, node) :: slots =>
      unfold runFields
      split
      · exact mirrors_andThen (run_mirrors node _ bindings) fun _ => runFields_mirrors slots vs _
      · exact .throw _

theorem runPieces_mirrors (slots : List (Nat × Node γ)) (typeName : String) (object : ObjectId)
    (bindings : Bindings) :
    Mirrors (runPieces host.recorded outer typeName object slots bindings)
      (runPieces host outer typeName object slots bindings) := by
  match slots with
  | [] =>
      simp only [runPieces]
      exact .pure _
  | (index, node) :: slots =>
      unfold runPieces
      refine .bind (.recording _ _) fun piece => ?_
      split
      · exact mirrors_andThen (run_mirrors node _ bindings) fun _ =>
          runPieces_mirrors slots typeName object _
      · exact .throw _

end

end Node

/-- A match has the same result and leaves the host in the same state if its calls are recorded, after
whatever was recorded before. -/
theorem Compiled.run_recorded_after (host : Host γ σ) (pattern : Compiled γ) (value : Value)
    (outer : Lookup) (s : σ) (earlier : List (Call γ)) :
    (pattern.run host.recorded value outer).run (s, earlier) =
      (((pattern.run host value outer).run s).1,
        (((pattern.run host value outer).run s).2, earlier ++ pattern.calls host value outer s)) := by
  obtain ⟨made, hmade⟩ := Node.run_mirrors host outer pattern.root value [] s
  rw [Compiled.calls, Compiled.run, Compiled.run, hmade, hmade, List.nil_append]

/-- The record is of the calls of the match. -/
theorem Compiled.run_recorded (host : Host γ σ) (pattern : Compiled γ) (value : Value)
    (outer : Lookup) (s : σ) :
    (pattern.run host.recorded value outer).run (s, []) =
      (((pattern.run host value outer).run s).1,
        (((pattern.run host value outer).run s).2, pattern.calls host value outer s)) :=
  pattern.run_recorded_after host value outer s []

end TaggedMatch
