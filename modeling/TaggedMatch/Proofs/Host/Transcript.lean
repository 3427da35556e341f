import TaggedMatch.Proofs.Host.Recording

/-!
# What a match says to the host

A computation on a recording host leaves its calls behind. `Says D m` is a statement about both at
once: whatever state `m` starts in, it adds calls to the record that are in `D`, together with whether
`m` then ends with bindings. The lemmas follow the way in which matches are put together. What comes
first only ever has to be said about what was added so far, so a rule for a whole dialogue can be
applied to the dialogues of the parts as they come up.
-/

namespace TaggedMatch

variable {γ σ α : Type} {C D D' : List (Call γ) → Bool → Prop}

/-- The calls added to the record since `before` are in `D`, for a match that ended so. -/
def Adds (D : List (Call γ) → Bool → Prop) (before : List (Call γ)) (s : σ × List (Call γ))
    (matched : Bool) : Prop :=
  ∃ made, s.2 = before ++ made ∧ D made matched

theorem Adds.imp {before : List (Call γ)} {s : σ × List (Call γ)} {matched : Bool}
    (h : Adds D before s matched) (hD : ∀ made, D made matched → D' made matched) :
    Adds D' before s matched := by
  obtain ⟨made, heq, hmade⟩ := h
  exact ⟨made, heq, hD made hmade⟩

/-- What was added later belongs to what was added since earlier. -/
theorem Adds.since {before earlier : List (Call γ)} {s : σ × List (Call γ)} {matched : Bool}
    (h : Adds (fun made matched => D (earlier ++ made) matched) (before ++ earlier) s matched) :
    Adds D before s matched := by
  obtain ⟨made, heq, hmade⟩ := h
  exact ⟨earlier ++ made, by rw [heq, List.append_assoc], hmade⟩

theorem adds_nil {s : σ} {calls : List (Call γ)} {matched : Bool} :
    Adds D [] (s, calls) matched ↔ D calls matched := by
  simp [Adds]

/-- The calls that the computation adds to a record, and whether it ends with bindings, are in `D`. -/
def Says (D : List (Call γ) → Bool → Prop)
    (m : HostM (σ × List (Call γ)) (Option Bindings)) : Prop :=
  ∀ s before, Ends m (s, before) (fun result s' => Adds D before s' result.isSome)
    fun _ s' => Adds D before s' false

namespace Says

variable {m : HostM (σ × List (Call γ)) (Option Bindings)}

theorem imp (h : Says D m) (hD : ∀ made matched, D made matched → D' made matched) :
    Says D' m := by
  intro s before
  exact (h s before).imp (fun _ _ hadds => hadds.imp fun made => hD made _)
    fun _ _ hadds => hadds.imp fun made => hD made _

/-- What is said later belongs to what is said since earlier. -/
theorem since {earlier : List (Call γ)}
    (h : Says (fun made matched => D (earlier ++ made) matched) m) (s : σ)
    (before : List (Call γ)) :
    Ends m (s, before ++ earlier) (fun result s' => Adds D before s' result.isSome)
      fun _ s' => Adds D before s' false :=
  (h s _).imp (fun _ _ hadds => hadds.since) fun _ _ hadds => hadds.since

theorem matched {bindings : Bindings} (h : D [] true) :
    Says D (pure (some bindings) : HostM (σ × List (Call γ)) _) :=
  fun _ _ => ⟨[], (List.append_nil _).symm, h⟩

theorem missed (h : D [] false) : Says D (pure none : HostM (σ × List (Call γ)) _) :=
  fun _ _ => ⟨[], (List.append_nil _).symm, h⟩

theorem failed {e : EvalError} (h : D [] false) :
    Says D (throw e : HostM (σ × List (Call γ)) _) :=
  fun _ _ => ⟨[], (List.append_nil _).symm, h⟩

/-- A call comes first; the rest is up to its answer. -/
theorem ask {ask : StateM σ α} {call : α → Call γ}
    {f : α → HostM (σ × List (Call γ)) (Option Bindings)}
    (hf : ∀ answer, Says (fun made matched => D ([call answer] ++ made) matched) (f answer)) :
    Says D (liftM (recording ask call) >>= f) := by
  intro s before
  exact ends_bind.mpr (ends_lift.mpr ((hf (ask.run s).1).since (ask.run s).2 before))

/-- A part that matched hands its bindings on; nothing comes after one that did not. -/
theorem andThen {f : Bindings → HostM (σ × List (Call γ)) (Option Bindings)} (hm : Says C m)
    (hend : ∀ made, C made false → D made false)
    (hf : ∀ bindings made, C made true →
      Says (fun more matched => D (made ++ more) matched) (f bindings)) :
    Says D (do
      match ← m with
      | some bindings => f bindings
      | none => pure none) := by
  intro s before
  refine ends_bind.mpr ((hm s before).imp (fun result s' hadds => ?_) fun _ _ hadds => ?_)
  · cases result with
    | none => exact hadds.imp hend
    | some bindings =>
        obtain ⟨state, calls⟩ := s'
        obtain ⟨made, rfl, hmade⟩ := hadds
        exact (hf bindings made hmade).since state before
  · exact hadds.imp hend

/-- A guard is asked for its answer and nothing else. -/
theorem test {host : Host γ σ} {guard : γ} {scope : Lookup} {bindings : Bindings}
    (granted : D [.test guard scope (.ok true)] true)
    (denied : ∀ answer, answer ≠ .ok true → D [.test guard scope answer] false) :
    Says D (do
      if ← host.recorded.test guard scope then pure (some bindings) else pure none) := by
  intro s before
  refine ends_bind.mpr (ends_recorded_test.mpr ?_)
  rw [Ends]
  split
  · next holds s' _ =>
      cases holds with
      | true => exact ⟨_, rfl, granted⟩
      | false => exact ⟨_, rfl, denied _ (by simp)⟩
  · exact ⟨_, rfl, denied _ (by simp)⟩

theorem expectType {ty got : TypeId} {typeName : String} (hend : D [] false)
    (hm : ty = got → Says D m) : Says D (do
      TaggedMatch.expectType ty typeName got
      m) := by
  rw [TaggedMatch.expectType]
  split
  · next heq =>
      rw [pure_bind]
      exact hm heq
  · exact failed hend

end Says

end TaggedMatch
