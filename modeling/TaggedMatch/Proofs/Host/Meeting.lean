import TaggedMatch.Proofs.Host.Ending
import TaggedMatch.Proofs.Value.Parts

/-!
# The values that a match meets

A match starts at one value and goes on to parts of values it has met and to what objects answer
about themselves, their pieces and the payloads under the discriminators they report. An object may
answer differently from call to call, so its answers are those it gives in any state. `Meets` is the
least set that is closed under this. Everything a match binds is in it.

The values depend on the host, the names they are bound to do not: every match of a checked pattern
binds the same names in the same order.
-/

namespace TaggedMatch

variable {γ σ : Type}

namespace Host

/-- The object answers `w` in some state: as a piece, or as the payload under the discriminator that
it has just reported. -/
inductive Answers (host : Host γ σ) (object : ObjectId) (w : Value) : Prop
  | piece (index : Nat) (s : σ) (h : ((host.piece object index).run s).1 = some w)
  | payload (active : Int64) (s s' : σ) (reported : (host.discriminator object).run s = (active, s'))
      (h : ((host.alternative object active).run s').1 = some w)

/-- A property that no value on the way of a match is without, if the first value has it. -/
structure Closed (host : Host γ σ) (P : Value → Prop) : Prop where
  part : ∀ {v p}, P v → p ∈ v.parts → P p
  answer : ∀ {ty object w}, P (.extension ty object) → host.Answers object w → P w

/-- `host.Meets v w`: a match that starts at `v` can come upon `w`. -/
inductive Meets (host : Host γ σ) (v : Value) : Value → Prop
  | here : Meets host v v
  | part {w p} (met : Meets host v w) (h : p ∈ w.parts) : Meets host v p
  | answer {ty object w} (met : Meets host v (.extension ty object))
      (h : host.Answers object w) : Meets host v w

theorem closed_meets (host : Host γ σ) (v : Value) : host.Closed (host.Meets v) :=
  ⟨.part, .answer⟩

theorem Meets.closed {host : Host γ σ} {P : Value → Prop} (hP : host.Closed P) {v w : Value}
    (h : host.Meets v w) (hv : P v) : P w := by
  induction h with
  | here => exact hv
  | part _ hp ih => exact hP.part ih hp
  | answer _ hw ih => exact hP.answer ih hw

theorem Meets.trans {host : Host γ σ} {u v w : Value} (h : host.Meets u v) (h' : host.Meets v w) :
    host.Meets u w :=
  h'.closed (closed_meets host u) h

end Host

/-! ## What a match binds

The names that a match binds are known beforehand, in the order they are bound in. Their values it
meets on its way. -/

namespace Node

mutual

/-- The names that a match of the node binds, in the order it binds them. -/
def binders : Node γ → List Name
  | .wildcard | .literal _ | .null => []
  | .binding name sub => sub.binders ++ [name]
  | .deref sub | .unionAlternative _ _ _ sub | .variantAlternative _ _ _ sub
  | .guarded sub _ => sub.binders
  | .tuple items => bindersOfItems items
  | .fields _ _ slots | .pieces _ _ slots => bindersOfSlots slots

def bindersOfItems : List (Node γ) → List Name
  | [] => []
  | item :: items => item.binders ++ bindersOfItems items

def bindersOfSlots : List (Nat × Node γ) → List Name
  | [] => []
  | (_, node) :: slots => node.binders ++ bindersOfSlots slots

end

end Node

/-- `bindings.Grown P names found`: `found` has further bindings, of these names to values with the
property. -/
def Bindings.Grown (P : Value → Prop) (bindings : Bindings) (names : List Name)
    (found : Bindings) : Prop :=
  ∃ more, found = bindings ++ more ∧ more.map (·.1) = names ∧ ∀ x ∈ more, P x.2

section Grown

variable {P : Value → Prop} {bindings found found' : Bindings} {names names' : List Name}

theorem Bindings.Grown.refl : bindings.Grown P [] bindings := ⟨[], by simp, rfl, nofun⟩

theorem Bindings.Grown.trans (h : bindings.Grown P names found)
    (h' : Bindings.Grown P found names' found') : bindings.Grown P (names ++ names') found' := by
  obtain ⟨more, rfl, rfl, hmore⟩ := h
  obtain ⟨more', rfl, rfl, hmore'⟩ := h'
  refine ⟨more ++ more', by simp, by simp, fun x hx => ?_⟩
  rcases List.mem_append.mp hx with hx | hx
  · exact hmore x hx
  · exact hmore' x hx

theorem Bindings.Grown.single {name : Name} {v : Value} (hv : P v) :
    bindings.Grown P [name] (bindings ++ [(name, v)]) := by
  refine ⟨[(name, v)], rfl, rfl, fun x hx => ?_⟩
  rw [List.mem_singleton.mp hx]
  exact hv

end Grown

namespace Node

variable {host : Host γ σ} {P : Value → Prop} {outer : Lookup} {bindings : Bindings}
variable {names names' : List Name}

/-- If the run ends with bindings, they are those made before and then these names, with values that
have the property. -/
abbrev Binds (P : Value → Prop) (bindings : Bindings) (names : List Name)
    (m : HostM σ (Option Bindings)) : Prop :=
  ∀ s, Ends m s (fun result _ => ∀ found, result = some found → bindings.Grown P names found)
    fun _ _ => True

theorem binds_some {found : Bindings} (h : bindings.Grown P names found) :
    Binds P bindings names (pure (some found) : HostM σ _) := by
  intro s found' heq
  cases heq
  exact h

theorem binds_none : Binds P bindings names (pure none : HostM σ _) := fun _ _ h => nomatch h

theorem binds_misshapen {expected got : String} :
    Binds P bindings names (misshapen expected got : HostM σ _) :=
  fun _ => trivial

theorem Binds.bind {α : Type} {m : HostM σ α} {f : α → HostM σ (Option Bindings)}
    (hf : ∀ a, Binds P bindings names (f a)) : Binds P bindings names (m >>= f) := by
  intro s
  exact (ends_somehow m s).bind fun a s' _ => hf a s'

/-- A part that matched hands its bindings on. -/
theorem Binds.andThen {m : HostM σ (Option Bindings)} {f : Bindings → HostM σ (Option Bindings)}
    (hm : Binds P bindings names m) (hf : ∀ found, Binds P found names' (f found)) :
    Binds P bindings (names ++ names') (do
      match ← m with
      | some bindings => f bindings
      | none => pure none) := by
  intro s
  refine (hm s).bind fun result s' hresult => ?_
  cases result with
  | none => exact binds_none s'
  | some found =>
      refine (hf found s').imp (fun result' _ hgrown found' heq => ?_) fun _ _ _ => trivial
      exact (hresult found rfl).trans (hgrown found' heq)

mutual

theorem run_binds (hP : host.Closed P) (node : Node γ) {v : Value} (hv : P v)
    (bindings : Bindings) :
    Binds P bindings node.binders (node.run host outer v bindings) := by
  match node with
  | .wildcard =>
      rw [run]
      exact binds_some .refl
  | .literal test =>
      rw [run]
      refine .bind fun fits => ?_
      split
      · exact binds_some .refl
      · exact binds_none
  | .binding name sub =>
      rw [run]
      exact (run_binds hP sub hv bindings).andThen fun _ => binds_some (.single hv)
  | .null =>
      unfold run
      split
      · exact binds_some .refl
      · exact binds_none
      · exact binds_misshapen
  | .deref sub =>
      unfold run
      split
      · exact run_binds hP sub (hP.part hv (List.mem_singleton.mpr rfl)) bindings
      · exact binds_none
      · exact binds_misshapen
  | .unionAlternative ty typeName discriminator sub =>
      unfold run
      split
      · refine .bind fun _ => ?_
        split
        · exact run_binds hP sub (hP.part hv (List.mem_singleton.mpr rfl)) bindings
        · exact binds_none
      · exact binds_misshapen
  | .variantAlternative ty typeName discriminator sub =>
      unfold run
      split
      · refine .bind fun _ => .bind fun gives => ?_
        split
        · intro s
          refine ends_bind.mpr (ends_lift.mpr ?_)
          split
          · refine ends_bind.mpr (ends_lift.mpr ?_)
            split
            · next w hw => exact run_binds hP sub (hP.answer hv (.payload _ s _ rfl hw)) bindings _
            · exact binds_misshapen _
          · exact binds_none _
        · exact fun _ => trivial
      · exact binds_misshapen
  | .tuple items =>
      unfold run
      split
      · split
        · next hlength => exact runItems_binds hP items hlength (fun _ hp => hP.part hv hp) bindings
        · exact binds_misshapen
      · exact binds_misshapen
  | .fields ty typeName slots =>
      unfold run
      split
      · exact .bind fun _ => runFields_binds hP slots (fun _ hp => hP.part hv hp) bindings
      · exact binds_misshapen
  | .pieces ty typeName slots =>
      unfold run
      split
      · refine .bind fun _ => .bind fun gives => ?_
        split
        · exact runPieces_binds hP slots hv bindings
        · exact fun _ => trivial
      · exact binds_misshapen
  | .guarded sub guard =>
      rw [run, binders, ← List.append_nil sub.binders]
      refine (run_binds hP sub hv bindings).andThen fun _ => .bind fun holds => ?_
      split
      · exact binds_some .refl
      · exact binds_none

theorem runItems_binds (hP : host.Closed P) (items : List (Node γ)) {vs : List Value}
    (hlength : vs.length = items.length) (hvs : ∀ v ∈ vs, P v) (bindings : Bindings) :
    Binds P bindings (bindersOfItems items) (runItems host outer items vs bindings) := by
  match items, vs with
  | item :: items, v :: vs =>
      rw [runItems]
      refine (run_binds hP item (hvs v List.mem_cons_self) bindings).andThen fun found => ?_
      exact runItems_binds hP items (Nat.succ.inj hlength)
        (fun w hw => hvs w (List.mem_cons_of_mem v hw)) found
  | [], [] =>
      simp only [runItems]
      exact binds_some .refl

theorem runFields_binds (hP : host.Closed P) (slots : List (Nat × Node γ)) {vs : List Value}
    (hvs : ∀ v ∈ vs, P v) (bindings : Bindings) :
    Binds P bindings (bindersOfSlots slots) (runFields host outer slots vs bindings) := by
  match slots with
  | [] =>
      rw [runFields]
      exact binds_some .refl
  | (index, node) :: slots =>
      rw [runFields]
      split
      · next v hindex =>
          have hv : P v := hvs v (List.mem_of_getElem? hindex)
          exact (run_binds hP node hv bindings).andThen fun found =>
            runFields_binds hP slots hvs found
      · exact binds_misshapen

theorem runPieces_binds (hP : host.Closed P) (slots : List (Nat × Node γ)) {ty : TypeId}
    {typeName : String} {object : ObjectId} (hobject : P (.extension ty object))
    (bindings : Bindings) :
    Binds P bindings (bindersOfSlots slots)
      (runPieces host outer typeName object slots bindings) := by
  match slots with
  | [] =>
      rw [runPieces]
      exact binds_some .refl
  | (index, node) :: slots =>
      rw [runPieces]
      intro s
      refine ends_bind.mpr (ends_lift.mpr ?_)
      split
      · next w hw =>
          have hmet : P w := hP.answer hobject (.piece index s hw)
          exact (run_binds hP node hmet bindings).andThen
            (fun found => runPieces_binds hP slots hobject found) _
      · exact binds_misshapen _

end

end Node

namespace Compiled

variable {host : Host γ σ} {pattern : Compiled γ} {v : Value} {outer : Lookup} {s s' : σ}
variable {bindings : Bindings}

theorem binds_of_run {P : Value → Prop} (hP : host.Closed P) (hv : P v)
    (h : (pattern.run host v outer).run s = (.ok (some bindings), s')) :
    bindings.map (·.1) = pattern.root.binders ∧ ∀ x ∈ bindings, P x.2 := by
  have hrun : Node.Binds P [] _ (pattern.root.run host outer v []) :=
    Node.run_binds hP pattern.root hv []
  replace hrun := hrun s
  rw [Compiled.run] at h
  rw [Ends, h] at hrun
  obtain ⟨more, rfl, hnames, hmore⟩ := hrun bindings rfl
  exact ⟨hnames, hmore⟩

/-- What a match binds, it met. -/
theorem meets_of_run {w : Value} {name : Name}
    (h : (pattern.run host v outer).run s = (.ok (some bindings), s'))
    (hmem : (name, w) ∈ bindings) : host.Meets v w :=
  (binds_of_run (host.closed_meets v) .here h).2 (name, w) hmem

/-- A match binds the names it has to bind. -/
theorem names_of_run (h : (pattern.run host v outer).run s = (.ok (some bindings), s')) :
    bindings.map (·.1) = pattern.root.binders :=
  (binds_of_run (P := fun _ => True) ⟨fun _ _ => trivial, fun _ _ => trivial⟩ trivial h).1

end Compiled

end TaggedMatch
