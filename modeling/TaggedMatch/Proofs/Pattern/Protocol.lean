import TaggedMatch.Proofs.Pattern.BinderTypes
import TaggedMatch.Proofs.Pattern.Dialogue
import TaggedMatch.Proofs.Pattern.Soundness

/-!
# The protocol of host objects

What a dialogue says along the pattern can be read off the record of the calls, without the pattern
that led to them. `Call.Obeys` says of one call where it may stand: after what, and before what. It is
about all calls of a match at once, those below the parts of a product included, so the facts of a part
have to survive being put after the calls that led to the part, and before those of the next one. The
second works because the next part is only looked at when the first has matched, and then none of its
calls was refused. The order of the calls within one product is not among these facts: it is in the
rules of the dialogue, where the turns of a product ascend.
-/

namespace TaggedMatch

variable {γ σ : Type}

/-- The value that the call was answered with. -/
def Call.value? : Call γ → Option Value
  | .piece _ _ answer | .alternative _ _ answer => answer
  | .test .. | .givesPieces .. | .givesVariant .. | .discriminator .. => none

/-- `Known v calls w`: the match of `v` has come across `w` when it has made the calls. -/
def Known (v : Value) (calls : List (Call γ)) (w : Value) : Prop :=
  ∃ u ∈ v :: calls.filterMap Call.value?, w.Occurs u

theorem Known.self {v : Value} {calls : List (Call γ)} : Known v calls v :=
  ⟨v, List.mem_cons_self, .here⟩

theorem Known.of_occurs {v w : Value} {calls : List (Call γ)} (h : w.Occurs v) : Known v calls w :=
  ⟨v, List.mem_cons_self, h⟩

theorem Known.answer {v w : Value} {calls : List (Call γ)} {call : Call γ}
    (hvalue : call.value? = some w) (hcall : call ∈ calls) : Known v calls w :=
  ⟨w, List.mem_cons_of_mem _ (List.mem_filterMap.mpr ⟨call, hcall, hvalue⟩), .here⟩

/-- What is come across from a value that was come across before. -/
theorem Known.trans {v w u : Value} {calls more : List (Call γ)} (hw : Known v calls w)
    (hu : Known w more u) : Known v (calls ++ more) u := by
  obtain ⟨source, hsource, hin⟩ := hu
  rw [Known, List.filterMap_append]
  rcases List.mem_cons.mp hsource with rfl | hanswer
  · obtain ⟨origin, horigin, hwithin⟩ := hw
    exact ⟨origin, List.mem_append_left _ horigin, hin.trans hwithin⟩
  · exact ⟨source, List.mem_append_right (v :: _) hanswer, hin⟩

/-- Nothing comes after, and the match failed. -/
def Stops (after : List (Call γ)) (matched : Bool) : Prop := after = [] ∧ matched = false

/-- `call.Obeys r written v before after matched`: in a match of `v` that ended so, the call may stand
between the others. The patterns are those the match is of. -/
inductive Call.Obeys (r : Registry) (written : List (Pattern γ)) (v : Value)
    (before : List (Call γ)) : Call γ → List (Call γ) → Bool → Prop
  | test {guard : γ} {scope : Lookup} {answer : Except EvalError Bool} {after : List (Call γ)}
      {matched : Bool} (stops : answer ≠ .ok true → Stops after matched) :
      Obeys r written v before (.test guard scope answer) after matched
  | givesPieces {object : ObjectId} {answer : Bool} {after : List (Call γ)} {matched : Bool}
      (stops : answer = false → Stops after matched) :
      Obeys r written v before (.givesPieces object answer) after matched
  /-- A piece that the type of the object declares. -/
  | piece {own : TypeId} {object : ObjectId} {d : ExtensionDef} {shape : AggregateShape}
      {index : Nat} {answer : Option Value} {after : List (Call γ)} {matched : Bool}
      (known : Known v before (.extension own object)) (kind : r.kind? own = some (.extension d))
      (declared : d.aggregate = some shape) (bound : index < shape.pieces.length)
      (stops : answer = none → Stops after matched) :
      Obeys r written v before (.piece object index answer) after matched
  | givesVariant {object : ObjectId} {answer : Bool} {after : List (Call γ)} {matched : Bool}
      (stops : answer = false → Stops after matched) :
      Obeys r written v before (.givesVariant object answer) after matched
  /-- The payload under the discriminator is asked for at once or never. -/
  | discriminator {object : ObjectId} {active : Int64} {after : List (Call γ)} {matched : Bool}
      (next : (∃ answer later, after = .alternative object active answer :: later) ∨
        Stops after matched) :
      Obeys r written v before (.discriminator object active) after matched
  /-- A payload under the discriminator that the object has just reported, which the type of the
  object declares for the selector of a pattern. -/
  | alternative {own : TypeId} {object : ObjectId} {span : Span} {selector : Name}
      {payload : Pattern γ} {a : VariantAlternativeDef} {answer : Option Value}
      {after : List (Call γ)} {matched : Bool} (known : Known v before (.extension own object))
      (selected : .alternative span selector payload ∈ written)
      (reports : r.Reports own selector a)
      (reported : ∃ earlier, before = earlier ++ [.discriminator object a.discriminator])
      (stops : answer = none → Stops after matched) :
      Obeys r written v before (.alternative object a.discriminator answer) after matched

/-- Every call obeys, where it stands. -/
def Obedient (r : Registry) (written : List (Pattern γ)) (v : Value) (calls : List (Call γ))
    (matched : Bool) : Prop :=
  ∀ before call after, calls = before ++ call :: after →
    call.Obeys r written v before after matched

variable {r : Registry} {v w : Value}

theorem Stops.of_matched {after : List (Call γ)} {P : Prop} (h : Stops after true) : P := by
  cases h.2

namespace Call.Obeys

variable {call : Call γ} {before after : List (Call γ)} {matched : Bool}
  {written more : List (Pattern γ)}

theorem mono (h : call.Obeys r written v before after matched) (hsub : written ⊆ more) :
    call.Obeys r more v before after matched := by
  cases h with
  | test stops => exact .test stops
  | givesPieces stops => exact .givesPieces stops
  | piece known kind declared bound stops => exact .piece known kind declared bound stops
  | givesVariant stops => exact .givesVariant stops
  | discriminator next => exact .discriminator next
  | alternative known selected reports reported stops =>
      exact .alternative known (hsub selected) reports reported stops

/-- Where the match went on, other calls come after. -/
theorem append (h : call.Obeys r written v before after true) (others : List (Call γ)) :
    call.Obeys r written v before (after ++ others) matched := by
  cases h with
  | test stops => exact .test fun h => (stops h).of_matched
  | givesPieces stops => exact .givesPieces fun h => (stops h).of_matched
  | piece known kind declared bound stops =>
      exact .piece known kind declared bound fun h => (stops h).of_matched
  | givesVariant stops => exact .givesVariant fun h => (stops h).of_matched
  | discriminator next =>
      -- Without the question for the payload the match would have ended here.
      rcases next with ⟨answer, later, rfl⟩ | hstops
      · exact .discriminator (.inl ⟨answer, later ++ others, rfl⟩)
      · exact hstops.of_matched
  | alternative known selected reports reported stops =>
      exact .alternative known selected reports reported fun h => (stops h).of_matched

/-- Calls that led to the value come before. -/
theorem shift {calls : List (Call γ)} (h : call.Obeys r written w before after matched)
    (hw : Known v calls w) : call.Obeys r written v (calls ++ before) after matched := by
  cases h with
  | test stops => exact .test stops
  | givesPieces stops => exact .givesPieces stops
  | piece known kind declared bound stops =>
      exact .piece (hw.trans known) kind declared bound stops
  | givesVariant stops => exact .givesVariant stops
  | discriminator next => exact .discriminator next
  | alternative known selected reports reported stops =>
      obtain ⟨earlier, rfl⟩ := reported
      exact .alternative (hw.trans known) selected reports
        ⟨calls ++ earlier, (List.append_assoc ..).symm⟩ stops

end Call.Obeys

namespace Obedient

variable {calls others : List (Call γ)} {matched : Bool} {written more : List (Pattern γ)}

theorem nil : Obedient r written v [] matched := by
  intro before call after h
  simp at h

theorem one {call : Call γ} (h : call.Obeys r written v [] [] matched) :
    Obedient r written v [call] matched := by
  intro before other after heq
  obtain ⟨rfl, rfl, rfl⟩ := by simpa [List.singleton_eq_append_iff] using heq
  exact h

theorem mono (h : Obedient r written v calls matched) (hsub : written ⊆ more) :
    Obedient r more v calls matched :=
  fun before call after heq => (h before call after heq).mono hsub

/-- The calls for a value that the calls before led to. -/
theorem append (h : Obedient r written v calls true) (hw : Known v calls w)
    (h' : Obedient r written w others matched) :
    Obedient r written v (calls ++ others) matched := by
  intro before call after heq
  rcases append_eq_append_cons heq with ⟨rest, hcalls, rfl⟩ | ⟨rest, rfl, hothers⟩
  · exact (h before call rest hcalls).append others
  · exact (h' rest call after hothers).shift hw

theorem cons {call : Call γ} (h : call.Obeys r written v [] [] true)
    (h' : Obedient r written v calls matched) : Obedient r written v (call :: calls) matched :=
  (one h).append .self h'

theorem of_occurs (h : Obedient r written w calls matched) (hw : w.Occurs v) :
    Obedient r written v calls matched :=
  nil.append (.of_occurs hw) h

/-- Asking for the alternative that is active, and for its payload. -/
theorem payload {own : TypeId} {object : ObjectId} {span : Span} {selector : Name}
    {p : Pattern γ} {a : VariantAlternativeDef} (answer : Option Value)
    (selected : .alternative span selector p ∈ written) (reports : r.Reports own selector a)
    (hmatched : answer = none → matched = false) :
    Obedient r written (.extension own object)
      [.givesVariant object true, .discriminator object a.discriminator,
        .alternative object a.discriminator answer] matched := by
  intro before call after heq
  rcases before with _ | ⟨_, _ | ⟨_, _ | ⟨_, before⟩⟩⟩
  · cases heq
    exact .givesVariant fun h => nomatch h
  · cases heq
    exact .discriminator (.inl ⟨answer, [], rfl⟩)
  · cases heq
    exact .alternative .self selected reports ⟨[_], rfl⟩ fun h => ⟨rfl, hmatched h⟩
  · simp at heq

end Obedient

namespace Pattern

/-- `source.Of r v turns`: the turns get their parts from `v`, at places that its type declares. -/
inductive Source.Of (r : Registry) (v : Value) : Source → List (Turn γ) → Prop
  | values {vs : List Value} {turns : List (Turn γ)} (inside : v.parts = vs) :
      Of r v (.values vs) turns
  | object {own : TypeId} {object : ObjectId} {d : ExtensionDef} {shape : AggregateShape}
      {turns : List (Turn γ)} (same : v = .extension own object)
      (kind : r.kind? own = some (.extension d)) (declared : d.aggregate = some shape)
      (bound : ∀ turn ∈ turns, turn.index < shape.pieces.length) : Of r v (.object object) turns

theorem Source.Of.tail {source : Source} {turn : Turn γ} {turns : List (Turn γ)}
    (h : source.Of r v (turn :: turns)) : source.Of r v turns := by
  cases h with
  | values inside => exact .values inside
  | object same kind declared bound =>
      exact .object same kind declared fun turn h => bound turn (List.mem_cons_of_mem _ h)

theorem Source.Gives.obedient {source : Source} {turn : Turn γ} {turns : List (Turn γ)}
    {part : Option Value} {got : List (Call γ)} {matched : Bool} {written : List (Pattern γ)}
    (h : source.Gives turn.index part got) (hof : source.Of r v (turn :: turns))
    (hmatched : part = none → matched = false) : Obedient r written v got matched := by
  cases h with
  | value => exact .nil
  | piece =>
      cases hof with
      | object same kind declared bound =>
          subst same
          exact .one (.piece .self kind declared (bound turn List.mem_cons_self)
            fun h => ⟨rfl, hmatched h⟩)

theorem Source.Gives.known {source : Source} {index : Nat} {turns : List (Turn γ)} {part : Value}
    {got : List (Call γ)} (h : source.Gives index (some part) got) (hof : source.Of r v turns) :
    Known v got part := by
  cases h with
  | value found =>
      cases hof with
      | values inside =>
          subst inside
          exact .of_occurs (.of_part (List.mem_of_getElem? found))
  | piece => exact .answer rfl List.mem_cons_self

/-- The patterns of the turns are written in the product. -/
theorem Schedule.patterns_written {ty : TypeId} {p : Pattern γ} {turns : List (Turn γ)}
    (h : Schedule r ty p turns) :
    ∀ turn ∈ turns, turn.pattern.subpatterns ⊆ p.subpatterns := by
  intro turn hturn q hq
  have hpattern : turn.pattern ∈ turns.map (·.pattern) := List.mem_map_of_mem hturn
  cases h with
  | sequence shown ordered every =>
      rw [every] at hpattern
      rw [subpatterns, subpatternsOfItems_eq]
      exact List.mem_cons_of_mem _ (List.mem_flatMap.mpr ⟨turn.pattern, hpattern, hq⟩)
  | fields shown ordered every =>
      obtain ⟨e, he, heq⟩ := List.mem_map.mp (every.mem_iff.mp hpattern)
      rw [subpatterns, subpatternsOfEntries_eq]
      exact List.mem_cons_of_mem _ (List.mem_flatMap.mpr ⟨e, he, heq ▸ hq⟩)

/-- The turns of an extension type are at pieces that it declares. -/
theorem Schedule.bound {ty : TypeId} {d : ExtensionDef} {shape : AggregateShape} {p : Pattern γ}
    {turns : List (Turn γ)} (h : Schedule r ty p turns)
    (hkind : r.kind? ty = some (.extension d)) (hshape : d.aggregate = some shape) :
    ∀ turn ∈ turns, turn.index < shape.pieces.length := by
  have hbound {parts : List PieceDef} (shown : r.Shows ty parts)
      (ordered : Turn.Ordered parts turns) (turn) (hturn : turn ∈ turns) :
      turn.index < shape.pieces.length := by
    obtain ⟨part, hpart, -⟩ := ordered.declared turn hturn
    obtain rfl := shown.unique (.extension hkind hshape)
    exact (List.getElem?_eq_some_iff.mp hpart).1
  cases h with
  | sequence shown ordered every => exact hbound shown ordered
  | fields shown ordered every => exact hbound shown ordered

mutual

theorem Dialogue.obedient {p : Pattern γ} {ty : TypeId} {v : Value} {calls : List (Call γ)}
    {matched : Bool} (h : p.Dialogue r ty v calls matched) :
    Obedient r p.subpatterns v calls matched := by
  match h with
  | .refused | .wildcard | .literal _ | .null => exact .nil
  | .binding inner =>
      rw [subpatterns]
      exact inner.obedient.mono (List.subset_cons_self _ _)
  | .deref _ inner =>
      rw [subpatterns]
      exact (inner.obedient.mono (List.subset_cons_self _ _)).of_occurs
        (.of_part List.mem_cons_self)
  | .union _ _ _ _ inner =>
      rw [subpatterns]
      exact (inner.obedient.mono (List.subset_cons_self _ _)).of_occurs
        (.of_part List.mem_cons_self)
  | .incapable _ => exact .one (.givesVariant fun _ => ⟨rfl, rfl⟩)
  | .inactive _ _ =>
      exact .cons (.givesVariant fun h => nomatch h) (.one (.discriminator (.inr ⟨rfl, rfl⟩)))
  | .withheld reports =>
      rw [subpatterns]
      exact .payload none List.mem_cons_self reports fun _ => rfl
  | @Dialogue.variant _ _ _ _ _ _ _ _ w _ _ reports inner =>
      rw [subpatterns]
      exact (Obedient.payload (some w) List.mem_cons_self reports fun h => nomatch h).append
        (.answer rfl (List.mem_of_getElem? (i := 2) rfl))
        (inner.obedient.mono (List.subset_cons_self _ _))
  | .tuple _ _ schedule rounds =>
      exact rounds.obedient (.values rfl) schedule.patterns_written
  | .aggregate _ _ schedule rounds =>
      exact rounds.obedient (.values rfl) schedule.patterns_written
  | .closed _ _ _ => exact .one (.givesPieces fun _ => ⟨rfl, rfl⟩)
  | .pieces kind declared schedule rounds =>
      have hbound := schedule.bound kind declared
      exact .cons (.givesPieces fun h => nomatch h)
        (rounds.obedient (.object rfl kind declared hbound) schedule.patterns_written)
  | .unguarded inner =>
      rw [subpatterns]
      exact inner.obedient.mono (List.subset_cons_self _ _)
  | .granted inner =>
      rw [subpatterns]
      exact (inner.obedient.mono (List.subset_cons_self _ _)).append .self
        (.one (.test fun h => absurd rfl h))
  | .denied inner no =>
      rw [subpatterns]
      exact (inner.obedient.mono (List.subset_cons_self _ _)).append .self
        (.one (.test fun _ => ⟨rfl, rfl⟩))

theorem Rounds.obedient {source : Source} {turns : List (Turn γ)} {v : Value}
    {calls : List (Call γ)} {matched : Bool} {written : List (Pattern γ)}
    (h : Rounds r source turns calls matched) (hof : source.Of r v turns)
    (hwritten : ∀ turn ∈ turns, turn.pattern.subpatterns ⊆ written) :
    Obedient r written v calls matched := by
  match h with
  | .done => exact .nil
  | .missing asked => exact asked.obedient hof fun _ => rfl
  | .last asked inner =>
      have hinner := inner.obedient.mono (hwritten _ List.mem_cons_self)
      exact (asked.obedient hof fun h => nomatch h).append (asked.known hof) hinner
  | .next asked inner others =>
      obtain ⟨hfirst, hrest⟩ := List.forall_mem_cons.mp hwritten
      have hturn := (asked.obedient hof fun h => nomatch h).append (asked.known hof)
        (inner.obedient.mono hfirst)
      -- The next part is again one of `v`, not one of the part just matched.
      rw [← List.append_assoc]
      exact hturn.append .self (others.obedient hof.tail hrest)

end

end Pattern

/-- The calls of a match of a checked pattern are a dialogue of the pattern, and each of them obeys
where it stands, whatever the value is and whatever the host answers. -/
theorem Compiled.calls_obedient {p : Pattern γ} {ty : TypeId} {c : Compiled γ}
    (checked : p.check r ty = .ok c) (host : Host γ σ) (v : Value) (outer : Lookup) (s : σ) :
    ∃ matched : Bool,
      (matched = true ↔ ∃ bindings, ((c.run host v outer).run s).1 = .ok (some bindings)) ∧
        p.Dialogue r ty v (c.calls host v outer s) matched ∧
        Obedient r p.subpatterns v (c.calls host v outer s) matched := by
  obtain ⟨hlegal, hroot⟩ := Pattern.check_eq_ok checked
  have hfollows : (p.draft r ty).node.Follows host outer (p.Dialogue r ty) := hlegal.follows
  have hsays := hfollows v [] s []
  have hrun := c.run_recorded host v outer s
  rw [Compiled.run, hroot] at hrun
  rw [Ends, hrun] at hsays
  rcases hresult : ((c.run host v outer).run s).1 with e | result
  · rw [hresult] at hsays
    have hdialogue := adds_nil.mp hsays
    exact ⟨false, by simp, hdialogue, hdialogue.obedient⟩
  · rw [hresult] at hsays
    have hdialogue := adds_nil.mp hsays
    exact ⟨result.isSome, by simp [Option.isSome_iff_exists], hdialogue, hdialogue.obedient⟩

/-- The registry of a program with tags, which report an alternative, and parcels, which give out a
number and a tag. -/
def parcelRegistry : Registry :=
  Registry.fresh.run [.extension "Tag" none (some ⟨[⟨⟨7⟩, 3, TypeId.int⟩]⟩),
    .extension "Parcel" (some ⟨[⟨some ⟨8⟩, TypeId.int⟩, ⟨some ⟨9⟩, ⟨5⟩⟩]⟩) none]

/-- The tag is written first and asked for last. -/
def parcelPattern : Pattern Unit :=
  .fields Span.dummy [
    ⟨⟨9⟩, .alternative Span.dummy ⟨7⟩ (.bind Span.dummy ⟨10⟩), Span.dummy⟩,
    ⟨⟨8⟩, .bind Span.dummy ⟨11⟩, Span.dummy⟩]

def parcelCompiled : Compiled Unit :=
  ⟨.pieces ⟨6⟩ "Parcel" [(0, .binding ⟨11⟩ .wildcard),
    (1, .variantAlternative ⟨5⟩ "Tag" 3 (.binding ⟨10⟩ .wildcard))], ⟨6⟩, [⟨10⟩, ⟨11⟩], Span.dummy⟩

/-- A host with a parcel that holds 7 and a tag, whose payload is 8. -/
def parcelHost : Host Unit Unit where
  test _ _ := pure true
  givesPieces object := pure (object = ⟨0⟩)
  piece _ index := pure (if index = 0 then some (.int 7) else some (.extension ⟨5⟩ ⟨1⟩))
  givesVariant object := pure (object = ⟨1⟩)
  discriminator _ := pure 3
  alternative _ _ := pure (some (.int 8))

theorem calls_obedient_on_parcel :
    let parcel : Value := .extension ⟨6⟩ ⟨0⟩
    let calls := parcelCompiled.calls parcelHost parcel Lookup.empty ()
    calls = [.givesPieces ⟨0⟩ true, .piece ⟨0⟩ 0 (some (.int 7)),
        .piece ⟨0⟩ 1 (some (.extension ⟨5⟩ ⟨1⟩)), .givesVariant ⟨1⟩ true, .discriminator ⟨1⟩ 3,
        .alternative ⟨1⟩ 3 (some (.int 8))] ∧
      ∃ matched : Bool,
        (matched = true ↔ ∃ bindings,
          ((parcelCompiled.run parcelHost parcel Lookup.empty).run ()).1 = .ok (some bindings)) ∧
        parcelPattern.Dialogue parcelRegistry ⟨6⟩ parcel calls matched ∧
        Obedient parcelRegistry parcelPattern.subpatterns parcel calls matched := by
  intro parcel calls
  have checked : parcelPattern.check parcelRegistry ⟨6⟩ = .ok parcelCompiled := by
    rw [parcelCompiled, ← mergeSort_slots_of_perm (List.Perm.swap ..) (by decide)]
    with_unfolding_all rfl
  exact ⟨by with_unfolding_all rfl, Compiled.calls_obedient checked parcelHost parcel Lookup.empty ()⟩

end TaggedMatch
