import TaggedMatch.Proofs.Host.Relating
import TaggedMatch.Proofs.Pattern.Soundness

/-!
# Equal values match alike

A match cannot tell equal values apart. The argument is about two matches of one pattern, on values
that are related place by place, by programs that answer alike whatever they are asked in turn: each
step of the one is a step of the other, and so they end in the same way, with related bindings. Here
the relation is open, so that the same walk over the pattern serves for one program that is asked on
both sides and for two programs that only differ in their states.

Of the guards only those in the pattern matter, and of the objects only those that the match can
meet.
-/

namespace TaggedMatch

variable {γ σ σ' : Type}

namespace Node

mutual

/-- The guards that a match of the node may ask. -/
def guards : Node γ → List γ
  | .wildcard | .literal _ | .null => []
  | .binding _ sub | .deref sub | .unionAlternative _ _ _ sub | .variantAlternative _ _ _ sub =>
      sub.guards
  | .tuple items => guardsOfItems items
  | .fields _ _ slots | .pieces _ _ slots => guardsOfSlots slots
  | .guarded sub guard => sub.guards ++ [guard]

def guardsOfItems : List (Node γ) → List γ
  | [] => []
  | item :: items => item.guards ++ guardsOfItems items

def guardsOfSlots : List (Nat × Node γ) → List γ
  | [] => []
  | (_, node) :: slots => node.guards ++ guardsOfSlots slots

end

end Node

variable {S : σ → σ' → Prop} {R Q : Value → Value → Prop}

/-- A literal does not look at the parts of a value. -/
theorem LiteralTest.run_congr (test : LiteralTest) {v w : Value} (h : Value.Alike R v w) :
    (test.run v : HostM σ Bool) = test.run w := by
  cases h with
  | constant index hty => cases test <;> simp [LiteralTest.run, hty, Value.kindName]
  | _ => cases test <;> rfl

namespace Agree

theorem literal (test : LiteralTest) (v : Value) :
    Agree S Eq (test.run v : HostM σ Bool) (test.run v : HostM σ' Bool) := by
  unfold LiteralTest.run
  split
  · exact .pure rfl
  · exact .pure rfl
  · exact .pure rfl
  · exact .bind_same (.expectType _ _ _) fun _ => .pure rfl
  · exact .throw _

/-- The matches end in the same way: with the same error, both without bindings or with related
ones. -/
abbrev Matching (S : σ → σ' → Prop) (Q : Value → Value → Prop) (m : HostM σ (Option Bindings))
    (m' : HostM σ' (Option Bindings)) : Prop :=
  Agree S (Option.Rel (Bindings.Related Q)) m m'

theorem matched {bindings bindings' : Bindings} (h : bindings.Related Q bindings') :
    Matching S Q (Pure.pure (some bindings)) (Pure.pure (some bindings')) :=
  .pure (.some h)

theorem missed : Matching S Q (Pure.pure none) (Pure.pure none) := .pure .none

/-- Parts that matched hand their bindings on, on both sides. -/
theorem andThen {m : HostM σ (Option Bindings)} {m' : HostM σ' (Option Bindings)}
    {f : Bindings → HostM σ (Option Bindings)} {f' : Bindings → HostM σ' (Option Bindings)}
    (hm : Matching S Q m m')
    (hf : ∀ found found', found.Related Q found' → Matching S Q (f found) (f' found')) :
    Matching S Q (do
      match ← m with
      | some bindings => f bindings
      | none => Pure.pure none) (do
      match ← m' with
      | some bindings => f' bindings
      | none => Pure.pure none) := by
  refine hm.bind fun result result' hresult => ?_
  cases hresult with
  | some h => exact hf _ _ h
  | none => exact .missed

end Agree

namespace Node

variable {host : Host γ σ} {host' : Host γ σ'} {asked : γ → Prop} {outer outer' : Lookup}

mutual

theorem run_agree (h : host.Agrees host' S R Q asked) (houter : outer.Related Q outer')
    (node : Node γ) (hguards : ∀ guard ∈ node.guards, asked guard) {v w : Value} (hvw : R v w)
    {bindings bindings' : Bindings} (hbindings : bindings.Related Q bindings') :
    Agree.Matching S Q (node.run host outer v bindings) (node.run host' outer' w bindings') := by
  match node with
  | .wildcard =>
      simp only [run]
      exact .matched hbindings
  | .literal test =>
      simp only [run]
      rw [test.run_congr (h.alike hvw)]
      refine .bind_same (.literal test w) fun fits => ?_
      split
      · exact .matched hbindings
      · exact .missed
  | .binding name sub =>
      simp only [run]
      exact .andThen (run_agree h houter sub hguards hvw hbindings) fun _ _ hfound =>
        .matched (hfound.snoc name (h.bound hvw))
  | .null =>
      simp only [run]
      cases h.alike hvw with
      | null => exact .matched hbindings
      | pointer _ => exact .missed
      | _ => exact .misshapen _ _
  | .deref sub =>
      simp only [run]
      cases h.alike hvw with
      | pointer hpointee => exact run_agree h houter sub hguards hpointee hbindings
      | null => exact .missed
      | _ => exact .misshapen _ _
  | .unionAlternative ty typeName discriminator sub =>
      simp only [run]
      cases h.alike hvw with
      | union active hty hpayload =>
          dsimp only
          rw [hty]
          refine .bind_same (.expectType _ _ _) fun _ => ?_
          split
          · exact run_agree h houter sub hguards hpayload hbindings
          · exact .missed
      | _ => exact .misshapen _ _
  | .variantAlternative ty typeName discriminator sub =>
      simp only [run]
      cases h.alike hvw with
      | extension own object =>
          refine .bind_same (.expectType _ _ _) fun _ =>
            .bind_same (.lift (h.givesVariant hvw)) fun gives => ?_
          split
          · -- The payload is asked for in the states that reporting the discriminator left.
            intro s s' hS
            obtain ⟨hactive, hleft⟩ := h.discriminator hvw s s' hS
            rw [run_lift_bind, run_lift_bind, ← hactive]
            split
            · obtain ⟨hanswer, hleft'⟩ := h.alternative hvw rfl (Prod.ext hactive.symm rfl) hleft
              refine Agree.lift_bind hanswer hleft' fun payload payload' hpayload => ?_
              cases hpayload with
              | some hpayload => exact run_agree h houter sub hguards hpayload hbindings
              | none => exact .misshapen _ _
            · exact Agree.missed _ _ hleft
          · exact .throw _
      | _ => exact .misshapen _ _
  | .tuple items =>
      simp only [run]
      cases h.alike hvw with
      | tuple hvalues =>
          dsimp only
          rw [hvalues.length_eq]
          split
          · exact runItems_agree h houter items hguards hvalues hbindings
          · exact .misshapen _ _
      | _ => exact .misshapen _ _
  | .fields ty typeName slots =>
      simp only [run]
      cases h.alike hvw with
      | aggregate hty hvalues =>
          dsimp only
          rw [hty]
          exact .bind_same (.expectType _ _ _) fun _ =>
            runFields_agree h houter slots hguards hvalues hbindings
      | _ => exact .misshapen _ _
  | .pieces ty typeName slots =>
      simp only [run]
      cases h.alike hvw with
      | extension own object =>
          refine .bind_same (.expectType _ _ _) fun _ =>
            .bind_same (.lift (h.givesPieces hvw)) fun gives => ?_
          split
          · exact runPieces_agree h houter slots hguards hvw hbindings
          · exact .throw _
      | _ => exact .misshapen _ _
  | .guarded sub guard =>
      obtain ⟨hsub, hguard⟩ := List.forall_mem_append.mp hguards
      simp only [run]
      refine .andThen (run_agree h houter sub hsub hvw hbindings) fun _ _ hfound =>
        .bind_same (h.test (hguard guard List.mem_cons_self) (hfound.scope houter)) fun holds => ?_
      split
      · exact .matched hfound
      · exact .missed

theorem runItems_agree (h : host.Agrees host' S R Q asked) (houter : outer.Related Q outer')
    (items : List (Node γ)) (hguards : ∀ guard ∈ guardsOfItems items, asked guard)
    {vs ws : List Value} (hvalues : List.Forall₂ R vs ws) {bindings bindings' : Bindings}
    (hbindings : bindings.Related Q bindings') :
    Agree.Matching S Q (runItems host outer items vs bindings)
      (runItems host' outer' items ws bindings') := by
  match items, hvalues with
  | item :: items, .cons hvw hvalues =>
      obtain ⟨hitem, hitems⟩ := List.forall_mem_append.mp hguards
      simp only [runItems]
      exact .andThen (run_agree h houter item hitem hvw hbindings) fun _ _ hfound =>
        runItems_agree h houter items hitems hvalues hfound
  | [], _ | _ :: _, .nil =>
      simp only [runItems]
      exact .matched hbindings

theorem runFields_agree (h : host.Agrees host' S R Q asked) (houter : outer.Related Q outer')
    (slots : List (Nat × Node γ)) (hguards : ∀ guard ∈ guardsOfSlots slots, asked guard)
    {vs ws : List Value} (hvalues : List.Forall₂ R vs ws) {bindings bindings' : Bindings}
    (hbindings : bindings.Related Q bindings') :
    Agree.Matching S Q (runFields host outer slots vs bindings)
      (runFields host' outer' slots ws bindings') := by
  match slots with
  | [] =>
      simp only [runFields]
      exact .matched hbindings
  | (index, node) :: slots =>
      obtain ⟨hnode, hslots⟩ := List.forall_mem_append.mp hguards
      simp only [runFields]
      have hpart : Option.Rel R vs[index]? ws[index]? := optionRel_getElem? hvalues index
      generalize vs[index]? = part, ws[index]? = part' at hpart
      cases hpart with
      | some hvw =>
          exact .andThen (run_agree h houter node hnode hvw hbindings) fun _ _ hfound =>
            runFields_agree h houter slots hslots hvalues hfound
      | none => exact .misshapen _ _

theorem runPieces_agree (h : host.Agrees host' S R Q asked) (houter : outer.Related Q outer')
    {typeName : String} {ty : TypeId} {object : ObjectId} (slots : List (Nat × Node γ))
    (hguards : ∀ guard ∈ guardsOfSlots slots, asked guard)
    (hobject : R (.extension ty object) (.extension ty object)) {bindings bindings' : Bindings}
    (hbindings : bindings.Related Q bindings') :
    Agree.Matching S Q (runPieces host outer typeName object slots bindings)
      (runPieces host' outer' typeName object slots bindings') := by
  match slots with
  | [] =>
      simp only [runPieces]
      exact .matched hbindings
  | (index, node) :: slots =>
      obtain ⟨hnode, hslots⟩ := List.forall_mem_append.mp hguards
      simp only [runPieces]
      refine .bind (.lift (h.piece hobject index)) fun piece piece' hpiece => ?_
      cases hpiece with
      | some hvw =>
          exact .andThen (run_agree h houter node hnode hvw hbindings) fun _ _ hfound =>
            runPieces_agree h houter slots hslots hobject hfound
      | none => exact .misshapen _ _

end

end Node

/-! ## Equal values -/

/-- What is asked of a program for a match of `v` that is not to tell equal values apart. The guards
of the pattern depend on a scope only up to equality of its values, and the objects that the match
can meet give equal answers to equal questions. Both may depend on the state as far as `S` tells
states apart. -/
structure Host.Respects (host : Host γ σ) (S : σ → σ → Prop) (c : Compiled γ) (v : Value) :
    Prop where
  test : ∀ {guard}, guard ∈ c.root.guards → ∀ {scope scope'},
    Lookup.Related Value.Equal scope scope' →
      Agree S Eq (host.test guard scope) (host.test guard scope')
  givesPieces : ∀ {ty object}, host.Meets v (.extension ty object) →
    Parallel S Eq (host.givesPieces object) (host.givesPieces object)
  piece : ∀ {ty object}, host.Meets v (.extension ty object) → ∀ index,
    Parallel S (Option.Rel Value.Equal) (host.piece object index) (host.piece object index)
  givesVariant : ∀ {ty object}, host.Meets v (.extension ty object) →
    Parallel S Eq (host.givesVariant object) (host.givesVariant object)
  discriminator : ∀ {ty object}, host.Meets v (.extension ty object) →
    Parallel S Eq (host.discriminator object) (host.discriminator object)
  /-- Asked for the payload under the discriminator that it has just reported. -/
  alternative : ∀ {ty object}, host.Meets v (.extension ty object) →
    ∀ {s t s' t' active}, (host.discriminator object).run s = (active, t) →
      (host.discriminator object).run s' = (active, t') → S t t' →
        Option.Rel Value.Equal ((host.alternative object active).run t).1
          ((host.alternative object active).run t').1 ∧
        S ((host.alternative object active).run t).2 ((host.alternative object active).run t').2

theorem Host.Respects.agrees {host : Host γ σ} {S : σ → σ → Prop} {c : Compiled γ} {v : Value}
    (h : host.Respects S c v) :
    host.Agrees host S (fun a b => a.Equal b ∧ host.Meets v a) Value.Equal (· ∈ c.root.guards) where
  alike hab := hab.1.alike.imp fun _ hp _ hpq => ⟨hpq, .part hab.2 hp⟩
  bound hab := hab.1
  test hguard _ _ hscope := h.test hguard hscope
  givesPieces hobject := h.givesPieces hobject.2
  piece hobject index s s' hS := by
    obtain ⟨hpiece, hleft⟩ := h.piece hobject.2 index s s' hS
    refine ⟨optionRel_imp hpiece fun a b ha hab => ⟨hab, ?_⟩, hleft⟩
    exact .answer hobject.2 (.piece index s ha)
  givesVariant hobject := h.givesVariant hobject.2
  discriminator hobject := h.discriminator hobject.2
  alternative hobject s t s' t' active hreported hreported' hS := by
    obtain ⟨hpayload, hleft⟩ := h.alternative hobject.2 hreported hreported' hS
    refine ⟨optionRel_imp hpayload fun a b ha hab => ⟨hab, ?_⟩, hleft⟩
    exact .answer hobject.2 (.payload active s t hreported ha)

/-- Equal values match alike. -/
theorem Compiled.run_agree {host : Host γ σ} {S : σ → σ → Prop} {c : Compiled γ} {v w : Value}
    {outer outer' : Lookup} (h : host.Respects S c v) (hvw : v.Equal w)
    (houter : outer.Related Value.Equal outer') :
    Agree.Matching S Value.Equal (c.run host v outer) (c.run host w outer') :=
  Node.run_agree h.agrees houter c.root (fun _ hguard => hguard) ⟨hvw, .here⟩ .nil

/-- There is no way to find out which of the two values one has. -/
structure Value.Indistinguishable (a b : Value) : Prop where
  conforms : ∀ (r : Registry) (ty : TypeId), a.conforms r ty = true ↔ b.conforms r ty = true
  text : a.text = b.text
  matched : ∀ {γ σ : Type} {host : Host γ σ} {S : σ → σ → Prop} {c : Compiled γ}
    {outer outer' : Lookup}, host.Respects S c a → outer.Related Value.Equal outer' →
      Agree S (Option.Rel (Bindings.Related Value.Equal)) (c.run host a outer)
        (c.run host b outer')

/-- On the values that programs build against one registry, equality is an equivalence, and equal
values cannot be told apart. -/
theorem Registry.equal_congruence (r : Registry) :
    (Equivalence fun a b : {v : Value // v.Built r} => a.1.Equal b.1) ∧
      (∀ ty object v, (Value.extension ty object).Equal v ↔ v = .extension ty object) ∧
      ∀ a b : Value, a.Built r → b.Built r → a.Equal b → a.Indistinguishable b := by
  refine ⟨⟨fun a => .refl a.1, fun h => h.symm, fun h h' => h.trans h'⟩, ?_, ?_⟩
  · intro ty object v
    exact Value.equal_extension_iff
  · intro a b ha hb hab
    refine ⟨fun r ty => ⟨hab.symm.conforms, hab.conforms⟩, ?_, ?_⟩
    · rw [ha.wellFormed.eq_of_equal hb.wellFormed hab]
    · intro γ σ host S c outer outer' hrespects houter
      exact Compiled.run_agree hrespects hab houter

/-- A program that counts its calls. Its objects give out 7 and its guards hold where that is the
value of a name. -/
def weighingHost : Host Unit Nat where
  test _ scope := ExceptT.mk fun calls => (.ok ((scope ⟨9⟩).any (· == .int 7)), calls + 1)
  givesPieces _ := fun calls => (true, calls + 1)
  piece _ index := fun calls => (if index = 0 then some (.int 7) else none, calls + 1)
  givesVariant _ := pure false
  discriminator _ := pure 0
  alternative _ _ := pure none

theorem weighingHost_respects (c : Compiled Unit) (v : Value) :
    weighingHost.Respects (fun _ _ => True) c v where
  test hguard scope scope' hscope calls calls' _ := by
    refine ⟨?_, trivial⟩
    have hholds : (scope ⟨9⟩).any (· == .int 7) = (scope' ⟨9⟩).any (· == .int 7) := by
      have hnine := hscope ⟨9⟩
      generalize scope ⟨9⟩ = x, scope' ⟨9⟩ = y at hnine
      cases hnine with
      | none => rfl
      | some hab => exact Bool.eq_iff_iff.mpr ⟨hab.symm.trans, hab.trans⟩
    exact .ok hholds
  givesPieces _ _ _ _ := ⟨rfl, trivial⟩
  piece _ index _ _ _ := by
    refine ⟨?_, trivial⟩
    show Option.Rel Value.Equal (if index = 0 then some (.int 7) else none)
      (if index = 0 then some (.int 7) else none)
    split
    · exact .some (.refl _)
    · exact .none
  givesVariant _ _ _ _ := ⟨rfl, trivial⟩
  discriminator _ _ _ _ := ⟨rfl, trivial⟩
  alternative _ _ _ _ _ _ _ _ _ := ⟨.none, trivial⟩

/-- A scope with one constant, by a definition that calls its enum so. -/
def constantScope (name : Name) : Lookup := fun _ => some (.constant ⟨name, ⟨6⟩, [⟨3⟩]⟩ 0)

theorem equal_congruence_of_box :
    (box.Built boxRegistry ∧ box.Equal box ∧
      weighingHost.Respects (fun _ _ => True) boxCompiled box ∧
      (constantScope ⟨1⟩).Related Value.Equal (constantScope ⟨2⟩)) ∧
    Agree (fun _ _ => True) (Option.Rel (Bindings.Related Value.Equal))
      (boxCompiled.run weighingHost box (constantScope ⟨1⟩))
      (boxCompiled.run weighingHost box (constantScope ⟨2⟩)) := by
  have built : box.Built boxRegistry :=
    ⟨_, reachable_box, rfl, List.mem_cons_of_mem _ List.mem_cons_self⟩
  have respects := weighingHost_respects boxCompiled box
  have scopes : (constantScope ⟨1⟩).Related Value.Equal (constantScope ⟨2⟩) := fun _ =>
    .some (by decide)
  obtain ⟨-, -, indistinguishable⟩ := Registry.equal_congruence boxRegistry
  exact ⟨⟨built, .refl box, respects, scopes⟩,
    (indistinguishable box box built built (.refl box)).matched respects scopes⟩

end TaggedMatch
