import TaggedMatch.Proofs.Inspect.Alternatives
import TaggedMatch.Proofs.Pattern.Dialogue
import TaggedMatch.Proofs.UnionCell.Creation

/-!
# Taking values apart and building them again

A value that is taken apart by the means that programs have, and built again by the factories from
what came out, is the value from before. The factories look names up and compare parts with the
types that are declared for them, so this could fail in two ways: a name could lead to another
place, and a part might not pass the comparison that it was once let through without. Neither
happens. In a valid registry the names of one type lead to one place each, and every value that is
held is sound, whoever built it and however long ago: a default was never compared with anything,
but its parts belong to their types all the same, and what was sound stays so when types are added.
-/

namespace TaggedMatch

variable {γ σ : Type} {r : Registry} {ty : TypeId}

theorem Value.Built.reachable {v : Value} (h : v.Built r) : r.Reachable := by
  obtain ⟨s, hs, rfl, -⟩ := h
  exact hs.invariant.registry

theorem Session.Reachable.run {s : Session} (h : s.Reachable) (operations : List Operation) :
    Reachable { s with registry := s.registry.run operations } := by
  induction operations generalizing s with
  | nil => exact h
  | cons operation rest ih => exact ih (.step h (.operate operation))

/-! ## Binding every part -/

/-- The pattern that binds each part of a product to a name of its own. -/
def Pattern.bindAll (span : Span) (binders : List (Span × Name)) : Pattern γ :=
  .sequence span (binders.map fun b => .bind b.1 b.2)

namespace Pattern

theorem binders_bindAll (span : Span) (binders : List (Span × Name)) :
    (bindAll span binders : Pattern γ).binders = binders.map (·.2) := by
  rw [bindAll, binders_sequence, List.flatMap_map, List.map_eq_flatMap]
  rfl

theorem draft_bind {kind : TypeKind} (hkind : r.kind? ty = some kind) (span : Span) (name : Name) :
    (bind span name : Pattern γ).draft r ty =
      ⟨.binding name .wildcard, [.binder name span]⟩ := by
  rw [bind, draft_binding hkind, draft_wildcard hkind]

theorem nodes_bindAll (binders : List (Span × Name)) {tys : List TypeId}
    (hlength : binders.length = tys.length) (hknown : ∀ ty ∈ tys, r.knows ty = true) :
    (draftItems r (binders.map fun b => (bind b.1 b.2 : Pattern γ)) tys).1 =
      (binders.map (·.2)).map fun name => .binding name .wildcard := by
  induction binders generalizing tys with
  | nil => rw [draftItems_eq]; rfl
  | cons b binders ih =>
      cases tys with
      | nil => cases hlength
      | cons ty tys =>
          obtain ⟨hty, htys⟩ := List.forall_mem_cons.mp hknown
          obtain ⟨kind, hkind⟩ := Registry.knows_iff.mp hty
          rw [List.map_cons, List.map_cons, List.map_cons, draftItems, draft_bind hkind]
          exact congrArg _ (ih (Nat.succ.inj hlength) htys)

end Pattern

/-- Names in a row are bound to the values in their places. -/
theorem Node.runItems_bindAll (host : Host γ σ) (outer : Lookup) (names : List Name)
    (vs : List Value) (bindings : Bindings) :
    runItems host outer (names.map fun name => .binding name .wildcard) vs bindings =
      pure (some (bindings ++ names.zip vs)) := by
  induction names generalizing vs bindings with
  | nil => simp [runItems]
  | cons name names ih =>
      cases vs with
      | nil => simp [runItems]
      | cons v vs =>
          rw [List.map_cons, runItems, run, run, pure_bind]
          dsimp only
          rw [pure_bind]
          dsimp only
          rw [ih, List.append_assoc]
          rfl

theorem Node.runFields_bindAll (host : Host γ σ) (outer : Lookup) {names : List Name}
    {fields : List Value} (hlength : fields.length = names.length) :
    runFields host outer ((names.map fun name => .binding name .wildcard).zipIdx.map Prod.swap)
      fields [] = pure (some (names.zip fields)) := by
  have hitems : fields.length =
      (names.map fun name => (.binding name .wildcard : Node γ)).length := by
    rw [hlength, List.length_map]
  have hrun := runItems_bindAll host outer names fields []
  rw [runItems_eq_runFields hitems [] []] at hrun
  exact hrun

section Aggregate

variable {d : AggregateDef} {binders : List (Span × Name)}

theorem legal_bindAll (valid : r.isValid = true) (hkind : r.kind? ty = some (.aggregate d))
    (hpublic : d.allPublic = true) (span : Span) (hlength : binders.length = d.fields.length) :
    (Pattern.bindAll span binders : Pattern γ).Legal r ty := by
  have hknown : ∀ f ∈ d.fields, r.knows f.ty = true :=
    (Registry.approves_of_isValid valid hkind).2
  have hshown : r.Shows ty (d.fields.map fun f => ⟨some f.name, f.ty⟩) :=
    .aggregate hkind (by simpa [AggregateDef.allPublic] using hpublic)
  refine .sequence hshown (by simpa using hlength) fun item part hmem => ?_
  obtain ⟨hitem, hpart⟩ := List.of_mem_zip hmem
  obtain ⟨b, -, rfl⟩ := List.mem_map.mp hitem
  obtain ⟨f, hf, rfl⟩ := List.mem_map.mp hpart
  exact .binding (.wildcard (hknown f hf))

theorem node_bindAll (valid : r.isValid = true) (hkind : r.kind? ty = some (.aggregate d))
    (hpublic : d.allPublic = true) (span : Span) (hlength : binders.length = d.fields.length) :
    ((Pattern.bindAll span binders : Pattern γ).draft r ty).node =
      .fields ty (r.text d.name) (((binders.map (·.2)).map fun name =>
        .binding name .wildcard).zipIdx.map Prod.swap) := by
  have hknown : ∀ f ∈ d.fields, r.knows f.ty = true :=
    (Registry.approves_of_isValid valid hkind).2
  have hlayout : r.layout (.aggregate d) ty span =
      .ok ⟨.aggregate ty (r.text d.name), d.fields.map fun f => ⟨some f.name, f.ty⟩⟩ := by
    rw [Registry.layout, if_pos hpublic]
  rw [Pattern.bindAll, Pattern.draft_sequence hkind hlayout (by simpa using hlength),
    Pattern.nodes_bindAll binders (by simpa using hlength) (by simpa using hknown)]
  rfl

/-- An aggregate type without private fields accepts the pattern, and all its values match. -/
theorem run_bindAll (valid : r.isValid = true) (hkind : r.kind? ty = some (.aggregate d))
    (hty : d.ty = ty) (hpublic : d.allPublic = true) (span : Span)
    (hlength : binders.length = d.fields.length) (hnodup : (binders.map (·.2)).Nodup) :
    ∃ c : Compiled γ, (Pattern.bindAll span binders).check r ty = .ok c ∧
      ∀ {σ : Type} (host : Host γ σ) (outer : Lookup) (fields : List Value),
        fields.length = d.fields.length →
          c.run host (.aggregate d fields) outer =
            pure (some ((binders.map (·.2)).zip fields)) := by
  refine ⟨_, Pattern.check_eq_ok_iff_legal.mpr
    ⟨legal_bindAll valid hkind hpublic span hlength, by rwa [Pattern.binders_bindAll], rfl⟩, ?_⟩
  intro σ host outer fields hfields
  rw [Compiled.run, node_bindAll valid hkind hpublic span hlength, Node.run, hty, expectType_self,
    pure_bind]
  exact Node.runFields_bindAll host outer (by simp [hfields, hlength])

end Aggregate

/-! ## Building again -/

theorem Value.misfit?_eq_none {fields : List FieldDef} {values : List Value}
    (h : List.Forall₂ (fun value field => value.conforms r field.ty = true) values fields) :
    misfit? r fields values = none := by
  refine List.find?_eq_none.mpr fun pair hmem => ?_
  have hfits := List.forall₂_zip h.flip hmem
  simpa using hfits

/-- A sound aggregate is what the factory makes of its fields. -/
theorem Value.ofFields_of_sound {d : AggregateDef} {fields : List Value}
    (h : (Value.aggregate d fields).Sound r) :
    ofFields r d.ty fields = .ok (.aggregate d fields) := by
  obtain ⟨hd, hfits⟩ := h
  have hlength : (d.fields.length != fields.length) = false := by simp [hfits.length_eq]
  simp only [ofFields, hd, hlength, misfit?_eq_none hfits, Bool.false_eq_true, if_false]

/-- Taking the value apart and building it again gives the value. -/
structure Value.Rebuilds (r : Registry) (v : Value) : Prop where
  union : ∀ u : UnionValue, u.toValue = v →
    UnionValue.construct r u.ty (r.text u.activeName) u.payload = .ok u
  aggregate : ∀ d fields, .aggregate d fields = v → d.allPublic = true →
    ∀ {γ : Type} (span : Span) (binders : List (Span × Name)),
      binders.length = d.fields.length → (binders.map (·.2)).Nodup →
        ∃ c : Compiled γ, (Pattern.bindAll span binders).check r d.ty = .ok c ∧
          ∀ {σ : Type} (host : Host γ σ) (outer : Lookup), ∃ bindings,
            c.run host v outer = pure (some bindings) ∧
              bindings.map (·.1) = binders.map (·.2) ∧
              Value.ofFields r d.ty (bindings.map (·.2)) = .ok v
  constant : ∀ d index, .constant d index = v →
    Value.ofConstant r d.ty (r.text (d.constantName index)) = .ok v

/-- Everything that a program holds, defaults included, can be taken apart and built again, then and
when the program has added more types. -/
theorem Value.Built.rebuilds {v : Value} (built : v.Built r) (operations : List Operation)
    (valid : (r.run operations).isValid = true) (own : (r.run operations).NamesOwn) :
    v.Rebuilds (r.run operations) := by
  have later := built.run operations
  have reachable := later.reachable
  have sound := later.wellFormed.sound
  constructor
  case union =>
    rintro ⟨d, i, payload⟩ rfl
    obtain ⟨hd, a, ha, hfits⟩ := sound
    have hagrees := (reachable.unionNames valid own hd).agrees ha hfits
    rw [hagrees.active]
    exact hagrees.constructed
  case aggregate =>
    rintro d fields rfl hpublic γ span binders hlength hnodup
    obtain ⟨hd, hfits⟩ := sound
    obtain ⟨c, hcheck, hrun⟩ := run_bindAll (γ := γ) valid (Registry.aggregate?_eq_some_iff.mp hd)
      rfl hpublic span hlength hnodup
    have hfields : fields.length = (binders.map (·.2)).length := by
      rw [hfits.length_eq, List.length_map, hlength]
    refine ⟨c, hcheck, fun host outer => ⟨_, hrun host outer fields hfits.length_eq, ?_, ?_⟩⟩
    · exact List.map_fst_zip (Nat.le_of_eq hfields.symm)
    · have hvalues : ((binders.map (·.2)).zip fields).map (·.2) = fields :=
        List.map_snd_zip (Nat.le_of_eq hfields)
      rw [hvalues]
      exact ofFields_of_sound ⟨hd, hfits⟩
  case constant =>
    rintro d index rfl
    obtain ⟨hd, hindex⟩ := sound
    have hname : d.constants[index]? = some d.constants[index] := List.getElem?_eq_getElem hindex
    rw [EnumDef.constantName, hname]
    exact (reachable.constantAgrees valid own hd hname).constructed

/-- A registry of desks, each with a drawer and a lamp. -/
def deskRegistry : Registry :=
  Registry.fresh.run [.enumeration "Lamp" ["off", "on"],
    .union "Drawer" [("empty", TypeId.unit), ("filled", TypeId.int)] .propagate,
    .aggregate "Desk" [("drawer", ⟨6⟩), ("lamp", ⟨5⟩)]]

def offLamp : Value := .constant ⟨⟨1⟩, ⟨5⟩, [⟨2⟩, ⟨3⟩]⟩ 0

def emptyDrawer : UnionValue where
  defn := ⟨⟨4⟩, ⟨6⟩, [⟨⟨5⟩, TypeId.unit, Span.dummy⟩, ⟨⟨6⟩, TypeId.int, Span.dummy⟩], .propagate⟩
  discriminator := 0
  payload := .unit

/-- The default desk. -/
def desk : Value :=
  .aggregate ⟨⟨7⟩, ⟨7⟩, [⟨⟨8⟩, ⟨6⟩, .isPublic, Span.dummy⟩, ⟨⟨9⟩, ⟨5⟩, .isPublic, Span.dummy⟩]⟩
    [emptyDrawer.toValue, offLamp]

theorem reachable_desk :
    Session.Reachable ⟨deskRegistry, [emptyDrawer.toValue, offLamp, desk], []⟩ := by
  have hstart : Session.Reachable ⟨deskRegistry, [], []⟩ := Session.Reachable.start.run _
  have hmade : Value.default deskRegistry ⟨7⟩ = .ok desk := by with_unfolding_all rfl
  have hdesk : Session.Reachable ⟨deskRegistry, [desk], []⟩ :=
    .step hstart (.hold (.default hmade))
  have hlamp : Session.Reachable ⟨deskRegistry, [offLamp, desk], []⟩ :=
    .step hdesk (.hold (.part List.mem_cons_self (List.mem_cons_of_mem _ List.mem_cons_self)))
  exact .step hlamp
    (.hold (.part (List.mem_cons_of_mem _ List.mem_cons_self) List.mem_cons_self))

theorem rebuilds_desk :
    UnionValue.construct (deskRegistry.run [.pointer ⟨7⟩]) ⟨6⟩ "empty" .unit = .ok emptyDrawer ∧
      Value.ofConstant (deskRegistry.run [.pointer ⟨7⟩]) ⟨5⟩ "off" = .ok offLamp ∧
      ∃ (c : Compiled Unit) (bindings : Bindings),
        c.run boxHost desk Lookup.empty = pure (some bindings) ∧
          bindings.map (·.1) = [⟨1⟩, ⟨2⟩] ∧
          Value.ofFields (deskRegistry.run [.pointer ⟨7⟩]) ⟨7⟩ (bindings.map (·.2)) = .ok desk := by
  have valid : (deskRegistry.run [.pointer ⟨7⟩]).isValid = true := by decide +kernel
  have own : (deskRegistry.run [.pointer ⟨7⟩]).NamesOwn := by decide +kernel
  have rebuilds (v : Value) (h : v ∈ [emptyDrawer.toValue, offLamp, desk]) :
      v.Rebuilds (deskRegistry.run [.pointer ⟨7⟩]) :=
    Value.Built.rebuilds ⟨_, reachable_desk, rfl, h⟩ _ valid own
  have hempty : (deskRegistry.run [.pointer ⟨7⟩]).text emptyDrawer.activeName = "empty" := by
    decide +kernel
  have hoff : (deskRegistry.run [.pointer ⟨7⟩]).text ⟨2⟩ = "off" := by decide +kernel
  obtain ⟨c, -, hrun⟩ := (rebuilds desk (by simp)).aggregate _ _ rfl (by decide) (γ := Unit)
    Span.dummy [(Span.dummy, ⟨1⟩), (Span.dummy, ⟨2⟩)] rfl (by decide)
  obtain ⟨bindings, hmatched, hnames, hmade⟩ := hrun boxHost Lookup.empty
  refine ⟨?_, ?_, c, bindings, hmatched, hnames, hmade⟩
  · rw [← hempty]
    exact (rebuilds emptyDrawer.toValue (by simp)).union emptyDrawer rfl
  · rw [← hoff]
    exact (rebuilds offLamp (by simp)).constant _ _ rfl

end TaggedMatch
