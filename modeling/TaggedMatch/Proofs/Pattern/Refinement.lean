import TaggedMatch.Proofs.Pattern.Reference
import TaggedMatch.Proofs.Pattern.Soundness
import TaggedMatch.Proofs.Registry.Validity

/-!
# Checking a pattern keeps its meaning

A checked pattern knows positions where the written one has names. In a valid registry this makes no
difference: names differ where they are declared, so a position stands for one name. The run of the
checked pattern and the interpretation of the written one are then the same computation, on every
value of the type that can be relied on. Equal computations have equal results, leave equal states
and, since the host may be one that records its calls, make the same calls in the same order.

The proof goes along the judgement of legality, as the proof that checked patterns do not go wrong
does, and there is again one lemma for each form of node.
-/

namespace TaggedMatch

variable {γ σ : Type} {r : Registry} {host : Host γ σ} {outer : Lookup}

/-! ## Equal computations -/

/-- Parts that match alike and hand their bindings on to the same are the same. -/
theorem andThen_congr {m m' : HostM σ (Option Bindings)}
    {f g : Bindings → HostM σ (Option Bindings)} (hm : m = m')
    (hf : ∀ bindings, f bindings = g bindings) :
    (do
      match ← m with
      | some bindings => f bindings
      | none => pure none) = (do
      match ← m' with
      | some bindings => g bindings
      | none => pure none) := by
  subst hm
  refine bind_congr fun result => ?_
  cases result with
  | none => rfl
  | some bindings => exact hf bindings

namespace Visit

@[simp] theorem all_nil (bindings : Bindings) :
    (Visit.all [] bindings : HostM σ _) = pure (some bindings) := by
  rw [Visit.all]

theorem all_one (get : HostM σ (Option Value)) (matcher : Matcher σ) (bindings : Bindings) :
    Visit.all [⟨get, matcher⟩] bindings = (do
      match ← get with
      | some v => matcher v bindings
      | none => pure none) := by
  rw [Visit.all]
  refine bind_congr fun got => ?_
  cases got with
  | none => rfl
  | some v =>
      dsimp only
      conv_rhs => rw [← bind_pure (matcher v bindings)]
      refine bind_congr fun result => ?_
      cases result with
      | none => rfl
      | some bindings' => exact all_nil bindings'

theorem all_one_some (v : Value) (matcher : Matcher σ) (bindings : Bindings) :
    Visit.all [⟨pure (some v), matcher⟩] bindings = matcher v bindings := by
  rw [all_one, pure_bind]

theorem all_one_none (matcher : Matcher σ) (bindings : Bindings) :
    Visit.all [⟨pure none, matcher⟩] bindings = pure none := by
  rw [all_one, pure_bind]

/-- Two visits make the same call, and what it gives is matched alike. -/
structure Agrees (x y : Visit σ) : Prop where
  get : x.get = y.get
  matcher : ∀ {s w s'}, x.get.run s = (.ok (some w), s') → x.matcher w = y.matcher w

theorem all_congr {xs ys : List (Visit σ)} (h : List.Forall₂ Agrees xs ys) (bindings : Bindings) :
    Visit.all xs bindings = Visit.all ys bindings := by
  induction h generalizing bindings with
  | nil => rfl
  | @cons x y xs ys hfirst _ ih =>
      rw [Visit.all, Visit.all]
      refine HostM.ext fun s => ?_
      rw [run_bind, run_bind, ← hfirst.get]
      rcases hgot : x.get.run s with ⟨got | got, s'⟩
      · rfl
      · cases got with
        | none => rfl
        | some w =>
            dsimp only
            rw [hfirst.matcher hgot]
            exact congrFun (andThen_congr rfl fun bindings' => ih bindings') _

end Visit

/-! ## Values with parts -/

/-- How the part at a position is got at. -/
def Value.partAt (host : Host γ σ) : Value → Nat → HostM σ (Option Value)
  | .tuple items, index => pure items[index]?
  | .aggregate _ values, index => pure values[index]?
  | .extension _ object, index => liftM (host.piece object index)
  | _, _ => pure none

/-- The value has these parts: one for each, under its label, and one that can be relied on. -/
structure Value.Has (host : Host γ σ) (r : Registry) (v : Value) (parts : List PieceDef) :
    Prop where
  places : v.places r host = parts.zipIdx.map fun (part, index) =>
    (part.label, v.partAt host index)
  given : ∀ {index part}, parts[index]? = some part → ∀ s, ∃ w s',
    (v.partAt host index).run s = (.ok (some w), s') ∧ host.Reliable r w part.ty

namespace Host.Reliable

variable {ty : TypeId}

theorem has_tuple {elements : List TypeId} {vs : List Value}
    (hv : host.Reliable r (.tuple vs) ty)
    (hvs : List.Forall₂ (fun v ty => v.conforms r ty = true) vs elements) :
    Value.Has host r (.tuple vs) (elements.map (⟨none, ·⟩)) where
  places := by
    refine List.ext_getElem (by simp [Value.places, hvs.length_eq]) fun i hi _ => ?_
    have hi : i < vs.length := by simpa [Value.places] using hi
    simp [Value.places, Value.partAt, hi]
  given {index part} hpart s := by
    obtain ⟨element, helement, rfl⟩ := by simpa using hpart
    obtain ⟨w, hw, hty⟩ := forall₂_getElem? hvs helement
    refine ⟨w, s, ?_, hv.part (List.mem_of_getElem? hw) hty⟩
    rw [Value.partAt, hw]
    rfl

theorem has_aggregate {d : AggregateDef} {vs : List Value}
    (hv : host.Reliable r (.aggregate d vs) ty)
    (hvs : List.Forall₂ (fun v (f : FieldDef) => v.conforms r f.ty = true) vs d.fields) :
    Value.Has host r (.aggregate d vs) (d.fields.map fun f => ⟨some f.name, f.ty⟩) where
  places := by
    have hlength := hvs.length_eq
    refine List.ext_getElem (by simp [Value.places, hlength]) fun i hi _ => ?_
    have hi : i < vs.length := by
      rw [Value.places, List.length_zipWith] at hi
      omega
    simp [Value.places, Value.partAt, hi]
  given {index part} hpart s := by
    obtain ⟨f, hf, rfl⟩ := by simpa using hpart
    obtain ⟨w, hw, hty⟩ := forall₂_getElem? hvs hf
    refine ⟨w, s, ?_, hv.part (List.mem_of_getElem? hw) hty⟩
    rw [Value.partAt, hw]
    rfl

theorem has_extension {d : ExtensionDef} {shape : AggregateShape} {object : ObjectId}
    (hv : host.Reliable r (.extension ty object) ty)
    (hkind : r.kind? ty = some (.extension d)) (hshape : d.aggregate = some shape) :
    Value.Has host r (.extension ty object) shape.pieces where
  places := by
    have hdeclared : (r.extension? ty).bind (·.aggregate) = some shape := by
      rw [Registry.extension?_eq_some_iff.mpr hkind]
      exact hshape
    simp only [Value.places, hdeclared, Value.partAt]
  given {index part} hpart s := by
    obtain ⟨w, hw, hty⟩ := hv.faithful.honours.piece hkind hshape hpart s
    refine ⟨w, ((host.piece object index).run s).2, ?_, hv.answer (.piece _ s hw) hty⟩
    rw [← hw]
    rfl

end Host.Reliable

/-! ## Nodes that agree with matchers -/

namespace Node

/-- The node does what the matcher does, on every value of the type that can be relied on. -/
def AgreesAt (host : Host γ σ) (outer : Lookup) (r : Registry) (node : Node γ)
    (matcher : Matcher σ) (ty : TypeId) : Prop :=
  ∀ v bindings, host.Reliable r v ty → node.run host outer v bindings = matcher v bindings

variable {ty : TypeId}

theorem agreesAt_wildcard {span : Span} :
    AgreesAt host outer r .wildcard ((Pattern.wildcard span).interpret r host outer) ty := by
  intro v bindings hv
  rw [run, Pattern.interpret]

theorem agreesAt_binding {name : Name} {span : Span} {node : Node γ} {p : Pattern γ}
    (h : AgreesAt host outer r node (p.interpret r host outer) ty) :
    AgreesAt host outer r (.binding name node)
      ((Pattern.binding span name p).interpret r host outer) ty := by
  intro v bindings hv
  rw [run, Pattern.interpret]
  exact andThen_congr (h v bindings hv) fun _ => rfl

theorem agreesAt_guarded {guard : γ} {span : Span} {node : Node γ} {p : Pattern γ}
    (h : AgreesAt host outer r node (p.interpret r host outer) ty) :
    AgreesAt host outer r (.guarded node guard)
      ((Pattern.guarded span p guard).interpret r host outer) ty := by
  intro v bindings hv
  rw [run, Pattern.interpret]
  exact andThen_congr (h v bindings hv) fun _ => rfl

theorem agreesAt_null {span : Span} {pointee : TypeId}
    (hkind : r.kind? ty = some (.pointer pointee)) :
    AgreesAt host outer r .null ((Pattern.null span).interpret r host outer) ty := by
  intro v bindings hv
  cases hv.fits hkind with
  | null => rw [run, Pattern.interpret]; rfl
  | pointer => rw [run, Pattern.interpret]; rfl

theorem agreesAt_deref {span : Span} {pointee : TypeId} {node : Node γ} {p : Pattern γ}
    (hkind : r.kind? ty = some (.pointer pointee))
    (h : AgreesAt host outer r node (p.interpret r host outer) pointee) :
    AgreesAt host outer r (.deref node) ((Pattern.deref span p).interpret r host outer) ty := by
  intro v bindings hv
  cases hv.fits hkind with
  | null =>
      rw [run, Pattern.interpret]
      exact (Visit.all_one_none _ _).symm
  | pointer hpointee =>
      rw [run, Pattern.interpret]
      refine (h _ bindings (hv.part (List.mem_singleton.mpr rfl) hpointee)).trans ?_
      exact (Visit.all_one_some _ _ _).symm

/-- In a valid registry the position of a constant stands for its name. -/
theorem constant_active {d : EnumDef} (hnodup : d.constants.Nodup) {name : Name}
    {index actual : Nat} (hindex : d.constantIndex? name = some index)
    (hactual : actual < d.constants.length) :
    (index == actual) = (d.constantName actual == name) := by
  obtain ⟨hi, hname, -⟩ := List.idxOf?_eq_some_iff.mp hindex
  have hname : d.constants[index] = name := by simpa using hname
  have hactualName : d.constantName actual = d.constants[actual] := by
    simp [EnumDef.constantName, hactual]
  rw [hactualName, ← hname, Bool.eq_iff_iff, beq_iff_eq, beq_iff_eq, hnodup.getElem_inj_iff]
  exact eq_comm

theorem agreesAt_literal {value : Literal} {test : LiteralTest} {kind : TypeKind} {span : Span}
    (hvalid : r.isValid = true) (hr : r.Consistent) (hkind : r.kind? ty = some kind)
    (htest : r.literalTest value kind ty span = .ok test) :
    AgreesAt host outer r (.literal test) ((Pattern.literal span value).interpret r host outer)
      ty := by
  intro v bindings hv
  have hrun : (test.run v : HostM σ Bool) = pure (value.denotes v) := by
    have hfits := hv.fits hkind
    unfold Registry.literalTest at htest
    split at htest
    · cases htest
      cases hfits
      rfl
    · cases htest
      cases hfits
      rfl
    · cases htest
      cases hfits
      rfl
    · split at htest
      · next index hindex =>
          cases htest
          cases hfits with
          | @constant d actual hactual =>
              have hty := hr.ty_of_kind? hkind rfl
              dsimp only at hty
              rw [LiteralTest.run, hty, expectType_self, pure_bind, Literal.denotes]
              congr 1
              exact constant_active (Registry.nodup_constants hvalid hkind) hindex hactual
      · cases htest
    · cases htest
  simp only [run, Pattern.interpret, hrun, pure_bind]
  split
  · rfl
  · rfl

/-- In a valid registry the position of an alternative stands for its name. -/
theorem alternative_active_iff {d : UnionDef} (hvalid : r.isValid = true)
    (hkind : r.kind? ty = some (.union d)) {selector : Name} {index active : Nat}
    {b : AlternativeDef} (hindex : d.alternativeIndex? selector = some index)
    (hb : d.alternatives[active]? = some b) :
    active = index ↔ d.alternativeName active = selector := by
  have hnames := Registry.nodup_alternatives hvalid hkind
  obtain ⟨hi, hname, -⟩ := List.findIdx?_eq_some_iff_getElem.mp hindex
  obtain ⟨hj, hb'⟩ := List.getElem?_eq_some_iff.mp hb
  have hname : d.alternatives[index].name = selector := by simpa using hname
  have hactive : d.alternativeName active = d.alternatives[active].name := by
    simp [UnionDef.alternativeName, UnionDef.alternative?, hj]
  have hi' : index < (d.alternatives.map (·.name)).length := by simpa using hi
  have hj' : active < (d.alternatives.map (·.name)).length := by simpa using hj
  have hinj : (d.alternatives.map (·.name))[active] = (d.alternatives.map (·.name))[index] ↔
      active = index := hnames.getElem_inj_iff
  rw [List.getElem_map, List.getElem_map] at hinj
  rw [hactive, ← hname, hinj]

theorem agreesAt_union {span : Span} {selector : Name} {typeName : String} {d : UnionDef}
    {index : Nat} {a : AlternativeDef} {node : Node γ} {p : Pattern γ} (hvalid : r.isValid = true)
    (hr : r.Consistent) (hkind : r.kind? ty = some (.union d))
    (hindex : d.alternativeIndex? selector = some index)
    (ha : d.alternatives[index]? = some a)
    (h : AgreesAt host outer r node (p.interpret r host outer) a.payload) :
    AgreesAt host outer r (.unionAlternative ty typeName index node)
      ((Pattern.alternative span selector p).interpret r host outer) ty := by
  intro v bindings hv
  cases hv.fits hkind with
  | @union _ active b payload hactive hpayload =>
      obtain rfl : d.ty = ty := hr.ty_of_kind? hkind rfl
      rw [run, expectType_self, pure_bind, Pattern.interpret]
      dsimp only [Value.payloadUnder]
      by_cases heq : active = index
      · rw [if_pos heq, if_pos ((alternative_active_iff hvalid hkind hindex hactive).mp heq),
          Visit.all_one_some]
        subst heq
        rw [ha] at hactive
        cases hactive
        exact h _ bindings (hv.part (List.mem_singleton.mpr rfl) hpayload)
      · rw [if_neg heq, if_neg (mt (alternative_active_iff hvalid hkind hindex hactive).mpr heq),
          Visit.all_one_none]

/-- In a valid registry a discriminator under a selector stands for the selector. -/
theorem variant_active_iff {d : ExtensionDef} {shape : VariantShape} (hvalid : r.isValid = true)
    (hkind : r.kind? ty = some (.extension d)) (hshape : d.variant = some shape)
    {selector : Name} {a : VariantAlternativeDef}
    (first : shape.alternatives.find? (·.selector == selector) = some a)
    (one : ∀ b ∈ shape.alternatives, b.selector = selector → b.discriminator = a.discriminator)
    (active : Int64) :
    active = a.discriminator ↔
      (shape.alternatives.find? (·.discriminator == active)).map (·.selector) = some selector := by
  constructor
  · rintro rfl
    obtain ⟨b, hb, hselector⟩ := Registry.selector_of_discriminator hvalid hkind hshape
      (List.mem_of_find?_eq_some first)
    have ha : a.selector = selector := by simpa using List.find?_some first
    rw [hb, Option.map_some, hselector, ha]
  · intro h
    obtain ⟨b, hb, hselector⟩ := Option.map_eq_some_iff.mp h
    have hactive : b.discriminator = active := by simpa using List.find?_some hb
    rw [← hactive]
    exact one b (List.mem_of_find?_eq_some hb) hselector

theorem agreesAt_variant {span : Span} {selector : Name} {typeName : String} {d : ExtensionDef}
    {shape : VariantShape} {a : VariantAlternativeDef} {node : Node γ} {p : Pattern γ}
    (hvalid : r.isValid = true) (hkind : r.kind? ty = some (.extension d))
    (hshape : d.variant = some shape)
    (first : shape.alternatives.find? (·.selector == selector) = some a)
    (one : ∀ b ∈ shape.alternatives, b.selector = selector → b.discriminator = a.discriminator)
    (h : AgreesAt host outer r node (p.interpret r host outer) a.payload) :
    AgreesAt host outer r (.variantAlternative ty typeName a.discriminator node)
      ((Pattern.alternative span selector p).interpret r host outer) ty := by
  intro v bindings hv
  cases hv.fits hkind with
  | extension _ object =>
      have honours := hv.faithful.honours
      have hdeclared : (r.extension? ty).bind (·.variant) = some shape := by
        rw [Registry.extension?_eq_some_iff.mpr hkind]
        exact hshape
      rw [run, expectType_self, pure_bind, Pattern.interpret]
      dsimp only [Value.payloadUnder]
      refine HostM.ext fun s => ?_
      have hgives := honours.givesVariant hkind hshape s
      rw [Visit.all_one, bind_assoc, run_lift_bind, run_lift_bind, if_pos hgives, if_pos hgives,
        bind_assoc, run_lift_bind, run_lift_bind]
      rcases hreported : (host.discriminator object).run ((host.givesVariant object).run s).2
        with ⟨active, s'⟩
      dsimp only
      rw [hdeclared, Option.bind_some]
      by_cases heq : active = a.discriminator
      · obtain ⟨w, hw, hty⟩ := honours.payload hkind hshape hreported
          (List.mem_of_find?_eq_some first) heq.symm
        rw [if_pos heq, if_pos ((variant_active_iff hvalid hkind hshape first one active).mp heq),
          run_lift_bind, run_lift_bind, hw]
        dsimp only
        rw [h w bindings (hv.answer (.payload _ _ _ hreported hw) hty)]
      · rw [if_neg heq,
          if_neg (mt (variant_active_iff hvalid hkind hshape first one active).mpr heq), pure_bind]

/-! ### Products

A product node goes through slots, each a position with a node. As far as the slots are in range, it
does what visits at the positions do. -/

theorem runItems_eq_all (items : List (Node γ)) (vs : List Value) (bindings : Bindings) :
    (runItems host outer items vs bindings : HostM σ _) = Visit.all
      (List.zipWith (fun item v => ⟨pure (some v), item.run host outer⟩) items vs) bindings := by
  induction items generalizing vs bindings with
  | nil =>
      rw [List.zipWith_nil_left, Visit.all_nil]
      simp only [runItems]
  | cons item items ih =>
      cases vs with
      | nil =>
          rw [List.zipWith_nil_right, Visit.all_nil]
          simp only [runItems]
      | cons v vs =>
          rw [runItems, List.zipWith_cons_cons, Visit.all, pure_bind]
          exact andThen_congr rfl fun bindings' => ih vs bindings'

theorem runFields_eq_all {slots : List (Nat × Node γ)} {vs : List Value}
    (h : ∀ slot ∈ slots, slot.1 < vs.length) (bindings : Bindings) :
    (runFields host outer slots vs bindings : HostM σ _) = Visit.all
      (slots.map fun slot => ⟨pure vs[slot.1]?, slot.2.run host outer⟩) bindings := by
  induction slots generalizing bindings with
  | nil =>
      rw [List.map_nil, Visit.all_nil]
      simp only [runFields]
  | cons slot slots ih =>
      rw [List.forall_mem_cons] at h
      obtain ⟨hfirst, hrest⟩ := h
      have hv : vs[slot.1]? = some vs[slot.1] := List.getElem?_eq_getElem hfirst
      rw [runFields, List.map_cons, Visit.all, hv, pure_bind]
      exact andThen_congr rfl fun bindings' => ih hrest bindings'

theorem runPieces_eq_all {slots : List (Nat × Node γ)} {object : ObjectId} {typeName : String}
    (h : ∀ slot ∈ slots, ∀ s, ∃ w, ((host.piece object slot.1).run s).1 = some w)
    (bindings : Bindings) :
    (runPieces host outer typeName object slots bindings : HostM σ _) = Visit.all
      (slots.map fun slot => ⟨liftM (host.piece object slot.1), slot.2.run host outer⟩)
      bindings := by
  induction slots generalizing bindings with
  | nil =>
      rw [List.map_nil, Visit.all_nil]
      simp only [runPieces]
  | cons slot slots ih =>
      rw [List.forall_mem_cons] at h
      obtain ⟨hfirst, hrest⟩ := h
      rw [runPieces, List.map_cons, Visit.all]
      refine HostM.ext fun s => ?_
      obtain ⟨w, hw⟩ := hfirst s
      rw [run_lift_bind, run_lift_bind, hw]
      exact congrFun (andThen_congr rfl fun bindings' => ih hrest bindings') _

/-- At a part of the type that they agree at, a node and a matcher make visits that agree. -/
theorem AgreesAt.visit {parts : List PieceDef} {part : PieceDef} {index : Nat} {v : Value}
    {node : Node γ} {matcher : Matcher σ} (h : AgreesAt host outer r node matcher part.ty)
    (has : Value.Has host r v parts) (hpart : parts[index]? = some part) :
    Visit.Agrees ⟨v.partAt host index, node.run host outer⟩ ⟨v.partAt host index, matcher⟩ where
  get := rfl
  matcher {s w s'} hgot := by
    obtain ⟨w', s'', hgiven, hw⟩ := has.given hpart s
    rw [hgiven] at hgot
    cases hgot
    exact funext fun bindings => h _ bindings hw

/-- The visits that the slots of a product stand for. -/
def slotVisits (host : Host γ σ) (outer : Lookup) (v : Value) (slots : List (Nat × Node γ)) :
    List (Visit σ) :=
  slots.map fun slot => ⟨v.partAt host slot.1, slot.2.run host outer⟩

theorem run_tuple {items : List (Node γ)} {vs : List Value} (hlength : vs.length = items.length)
    (bindings : Bindings) :
    (Node.tuple items).run host outer (.tuple vs) bindings =
      Visit.all (slotVisits host outer (.tuple vs)
        (items.zipIdx.map Prod.swap)) bindings := by
  rw [run, if_pos hlength, runItems_eq_all]
  congr 1
  refine List.ext_getElem (by simp [slotVisits, hlength]) fun i hi _ => ?_
  have hi : i < vs.length := by
    rw [List.length_zipWith] at hi
    omega
  simp [slotVisits, Value.partAt, hi]

theorem run_fields {d : AggregateDef} {vs : List Value} {typeName : String}
    {slots : List (Nat × Node γ)} (hrange : ∀ slot ∈ slots, slot.1 < vs.length)
    (bindings : Bindings) :
    (Node.fields d.ty typeName slots).run host outer (.aggregate d vs) bindings =
      Visit.all (slotVisits host outer (.aggregate d vs) slots) bindings := by
  rw [run, expectType_self, pure_bind, runFields_eq_all hrange]
  rfl

theorem run_pieces {d : ExtensionDef} {shape : AggregateShape} {object : ObjectId}
    {typeName : String} {slots : List (Nat × Node γ)}
    (hv : host.Reliable r (.extension ty object) ty)
    (hkind : r.kind? ty = some (.extension d)) (hshape : d.aggregate = some shape)
    (hrange : ∀ slot ∈ slots, slot.1 < shape.pieces.length) (bindings : Bindings) :
    (Node.pieces ty typeName slots).run host outer (.extension ty object) bindings = (do
      if ← (Value.extension ty object).opens host then
        Visit.all (slotVisits host outer (.extension ty object) slots) bindings
      else pure none) := by
  have honours := hv.faithful.honours
  have hpieces : ∀ slot ∈ slots, ∀ s, ∃ w, ((host.piece object slot.1).run s).1 = some w := by
    intro slot hslot s
    have hpart := List.getElem?_eq_getElem (hrange slot hslot)
    obtain ⟨w, hw, -⟩ := honours.piece hkind hshape hpart s
    exact ⟨w, hw⟩
  rw [run, expectType_self, pure_bind, runPieces_eq_all hpieces, Value.opens]
  refine HostM.ext fun s => ?_
  have hgives := honours.givesPieces hkind hshape s
  rw [run_lift_bind, run_lift_bind, if_pos hgives, if_pos hgives]
  rfl

/-- The nodes of a product, whichever kind of product it is, go through the parts that they have
slots for. -/
theorem run_product {kind : TypeKind} {layout : Layout} {span : Span} {node : Node γ}
    {v : Value} (slots : List (Nat × Node γ)) (hr : r.Consistent)
    (hkind : r.kind? ty = some kind) (hlayout : r.layout kind ty span = .ok layout)
    (hv : host.Reliable r v ty) (hrange : ∀ slot ∈ slots, slot.1 < layout.parts.length)
    (bindings : Bindings)
    (tuple : layout.product = .tuple → ∀ vs, vs.length = layout.parts.length →
      node.run host outer (.tuple vs) bindings =
        Visit.all (slotVisits host outer (.tuple vs) slots) bindings)
    (aggregate : ∀ own name, layout.product = .aggregate own name → node = .fields own name slots)
    (extension : ∀ own name, layout.product = .extension own name →
      node = .pieces own name slots) :
    Value.Has host r v layout.parts ∧ node.run host outer v bindings = (do
      if ← v.opens host then Visit.all (slotVisits host outer v slots) bindings
      else pure none) := by
  have hfits := hv.fits hkind
  rcases Registry.layout_eq_ok hlayout with
    ⟨elements, rfl, rfl⟩ | ⟨d, rfl, -, rfl⟩ | ⟨d, shape, rfl, hshape, rfl⟩
  · cases hfits with
    | @tuple _ vs hvs =>
        refine ⟨hv.has_tuple hvs, ?_⟩
        rw [Value.opens, pure_bind, if_pos rfl]
        exact tuple rfl vs (by simp [hvs.length_eq])
  · cases hfits with
    | aggregate hvs =>
        obtain rfl : d.ty = ty := hr.ty_of_kind? hkind rfl
        refine ⟨hv.has_aggregate hvs, ?_⟩
        rw [Value.opens, pure_bind, if_pos rfl, aggregate _ _ rfl]
        exact run_fields (by simpa [hvs.length_eq] using hrange) bindings
  · cases hfits with
    | extension _ object =>
        refine ⟨hv.has_extension hkind hshape, ?_⟩
        rw [extension _ _ rfl]
        exact run_pieces hv hkind hshape hrange bindings

theorem run_ofItems {kind : TypeKind} {layout : Layout} {span : Span} {nodes : List (Node γ)}
    {v : Value} (hr : r.Consistent) (hkind : r.kind? ty = some kind)
    (hlayout : r.layout kind ty span = .ok layout) (hnodes : nodes.length = layout.parts.length)
    (hv : host.Reliable r v ty) (bindings : Bindings) :
    Value.Has host r v layout.parts ∧ (layout.ofItems nodes).run host outer v bindings = (do
      if ← v.opens host then
        Visit.all (slotVisits host outer v (nodes.zipIdx.map Prod.swap)) bindings
      else pure none) := by
  have hrange : ∀ slot ∈ nodes.zipIdx.map Prod.swap, slot.1 < layout.parts.length := by
    intro slot hslot
    rw [← hnodes]
    exact (List.getElem?_eq_some_iff.mp (mem_slots_iff.mp hslot)).1
  refine run_product _ hr hkind hlayout hv hrange bindings (fun hproduct vs hvs => ?_)
    (fun own name hproduct => ?_) (fun own name hproduct => ?_)
  · rw [Layout.ofItems, hproduct]
    exact run_tuple (hvs.trans hnodes.symm) bindings
  · rw [Layout.ofItems, hproduct]
    rfl
  · rw [Layout.ofItems, hproduct]
    rfl

/-- A node that tests every part of a product does what the matchers of the parts do, one after
the other. -/
theorem agreesAt_sequence {kind : TypeKind} {layout : Layout} {span : Span}
    {items : List (Pattern γ)} {nodes : List (Node γ)} (hr : r.Consistent)
    (hkind : r.kind? ty = some kind) (hlayout : r.layout kind ty span = .ok layout)
    (hnodes : nodes.length = layout.parts.length) (hitems : items.length = layout.parts.length)
    (h : ∀ (i : Nat) node item part, nodes[i]? = some node → items[i]? = some item →
      layout.parts[i]? = some part →
        AgreesAt host outer r node (item.interpret r host outer) part.ty) :
    AgreesAt host outer r (layout.ofItems nodes)
      ((Pattern.sequence span items).interpret r host outer) ty := by
  intro v bindings hv
  obtain ⟨has, hrun⟩ := run_ofItems hr hkind hlayout hnodes hv bindings
  rw [hrun, Pattern.interpret]
  dsimp only
  rw [has.places, Pattern.interpretItems_eq]
  refine bind_congr fun opens => ?_
  congr 1
  refine Visit.all_congr ?_ bindings
  refine List.forall₂_iff_get.mpr ⟨by simp [slotVisits, hnodes, hitems], fun i hi _ => ?_⟩
  have hi : i < layout.parts.length := by simpa [slotVisits, hnodes] using hi
  simp only [slotVisits, List.get_eq_getElem, List.getElem_map, List.getElem_zipIdx,
    List.getElem_zipWith, Nat.zero_add]
  have hpart := List.getElem?_eq_getElem hi
  have hnode := List.getElem?_eq_getElem (hnodes.symm ▸ hi)
  have hitem := List.getElem?_eq_getElem (hitems.symm ▸ hi)
  exact (h i _ _ _ hnode hitem hpart).visit has hpart

theorem parts_of_tuple {kind : TypeKind} {layout : Layout} {span : Span}
    (hlayout : r.layout kind ty span = .ok layout) (hproduct : layout.product = .tuple) :
    ∃ elements : List TypeId, layout.parts = elements.map fun ty => ⟨none, ty⟩ := by
  rcases Registry.layout_eq_ok hlayout with
    ⟨elements, rfl, rfl⟩ | ⟨d, rfl, -, rfl⟩ | ⟨d, shape, rfl, hshape, rfl⟩
  · exact ⟨elements, rfl⟩
  · cases hproduct
  · cases hproduct

/-- In a valid registry no two parts of a product have the same label. -/
theorem nodup_labels {kind : TypeKind} {layout : Layout} {span : Span} (hvalid : r.isValid = true)
    (hkind : r.kind? ty = some kind) (hlayout : r.layout kind ty span = .ok layout) :
    (layout.parts.filterMap (·.label)).Nodup := by
  rcases Registry.layout_eq_ok hlayout with
    ⟨elements, rfl, rfl⟩ | ⟨d, rfl, -, rfl⟩ | ⟨d, shape, rfl, hshape, rfl⟩
  · simp [List.filterMap_map]
  · simpa [List.filterMap_map, Function.comp_def] using Registry.nodup_fields hvalid hkind
  · exact Registry.nodup_labels hvalid hkind hshape

/-- Looking the parts up by name visits them in the order of the slots. -/
theorem named_visits {parts : List PieceDef} {v : Value} (has : Value.Has host r v parts)
    (named : List (Name × Matcher σ)) :
    ((v.places r host).filterMap fun (label, get) =>
        (label.bind fun name => named.lookup name).map fun matcher => Visit.mk get matcher) =
      (slotsByPart parts named).map fun slot => ⟨v.partAt host slot.1, slot.2⟩ := by
  rw [has.places, List.filterMap_map, slotsByPart, List.map_filterMap]
  refine List.filterMap_congr fun x _ => ?_
  rw [Option.map_map]
  rfl

section Entries

variable {kind : TypeKind} {layout : Layout} {span : Span}
  {entries : List (FieldEntry (Pattern γ))} (position : Name → Nat)
  (node : FieldEntry (Pattern γ) → Node γ)

/-- A tuple has no labels, so that no entry names a part of it. -/
theorem run_ofSlots_tuple (hlayout : r.layout kind ty span = .ok layout)
    (hproduct : layout.product = .tuple) {vs : List Value}
    (hvs : vs.length = layout.parts.length) (slots : List (Nat × Node γ)) (bindings : Bindings) :
    (layout.ofSlots slots).run host outer (.tuple vs) bindings =
      Visit.all (slotVisits host outer (.tuple vs)
        ((entrySlots layout.parts entries).map fun slot => (slot.1, node slot.2))) bindings := by
  obtain ⟨elements, hparts⟩ := parts_of_tuple hlayout hproduct
  have hlength : vs.length =
      (List.replicate layout.parts.length (Node.wildcard : Node γ)).length := by
    rw [List.length_replicate, hvs]
  rw [Layout.ofSlots, hproduct, run, if_pos hlength, runItems_wildcards, hparts,
    entrySlots_unlabelled]
  exact (Visit.all_nil bindings).symm

theorem run_ofSlots {v : Value} (hvalid : r.isValid = true) (hr : r.Consistent)
    (hkind : r.kind? ty = some kind) (hlayout : r.layout kind ty span = .ok layout)
    (distinct : (entries.map (·.name)).Nodup)
    (hposition : ∀ e ∈ entries, ∃ part, layout.parts[position e.name]? = some part ∧
      part.label = some e.name) (hv : host.Reliable r v ty) (bindings : Bindings) :
    Value.Has host r v layout.parts ∧
      (layout.ofSlots (entries.map fun e => (position e.name, node e))).run host outer v
          bindings = (do
        if ← v.opens host then
          Visit.all (slotVisits host outer v
            ((entrySlots layout.parts entries).map fun slot => (slot.1, node slot.2))) bindings
        else pure none) := by
  have hlabels := nodup_labels hvalid hkind hlayout
  have hsorted := sorted_entries node hlabels distinct hposition
  have hrange : ∀ slot ∈ (entrySlots layout.parts entries).map fun slot => (slot.1, node slot.2),
      slot.1 < layout.parts.length := by
    intro slot hslot
    obtain ⟨entrySlot, hentry, rfl⟩ := List.mem_map.mp hslot
    obtain ⟨e, he, rfl⟩ := (mem_entrySlots hlabels distinct hposition).mp hentry
    obtain ⟨part, hpart, -⟩ := hposition e he
    exact (List.getElem?_eq_some_iff.mp hpart).1
  refine run_product _ hr hkind hlayout hv hrange bindings (fun hproduct vs hvs => ?_)
    (fun own name hproduct => ?_) (fun own name hproduct => ?_)
  · exact run_ofSlots_tuple node hlayout hproduct hvs _ bindings
  · rw [Layout.ofSlots, hproduct, hsorted]
  · rw [Layout.ofSlots, hproduct, hsorted]

/-- A node that tests some parts of a product does what the matchers found by name do. -/
theorem agreesAt_fields (hvalid : r.isValid = true) (hr : r.Consistent)
    (hkind : r.kind? ty = some kind) (hlayout : r.layout kind ty span = .ok layout)
    (distinct : (entries.map (·.name)).Nodup)
    (h : ∀ e ∈ entries, ∃ part, layout.parts[position e.name]? = some part ∧
      part.label = some e.name ∧
        AgreesAt host outer r (node e) (e.pattern.interpret r host outer) part.ty) :
    AgreesAt host outer r (layout.ofSlots (entries.map fun e => (position e.name, node e)))
      ((Pattern.fields span entries).interpret r host outer) ty := by
  intro v bindings hv
  have hposition : ∀ e ∈ entries, ∃ part, layout.parts[position e.name]? = some part ∧
      part.label = some e.name := by
    intro e he
    obtain ⟨part, hpart, hlabel, -⟩ := h e he
    exact ⟨part, hpart, hlabel⟩
  obtain ⟨has, hrun⟩ :=
    run_ofSlots position node hvalid hr hkind hlayout distinct hposition hv bindings
  rw [hrun, Pattern.interpret]
  dsimp only
  rw [named_visits has, Pattern.interpretEntries_eq,
    slotsByPart_entries fun e : FieldEntry (Pattern γ) => e.pattern.interpret r host outer,
    slotVisits, List.map_map, List.map_map]
  refine bind_congr fun opens => ?_
  congr 1
  refine Visit.all_congr ?_ bindings
  rw [List.forall₂_map_left_iff, List.forall₂_map_right_iff, List.forall₂_same]
  intro slot hslot
  obtain ⟨e, he, rfl⟩ :=
    (mem_entrySlots (nodup_labels hvalid hkind hlayout) distinct hposition).mp hslot
  obtain ⟨part, hpart, -, hagrees⟩ := h e he
  exact hagrees.visit has hpart

end Entries

end Node

/-! ## Legal patterns -/

namespace Pattern

variable {ty : TypeId}

/-- In a valid registry a legal pattern is drafted into a node that agrees with it. -/
theorem Legal.agreesAt (hvalid : r.isValid = true) (hr : r.Consistent) {p : Pattern γ}
    (h : p.Legal r ty) :
    (p.draft r ty).node.AgreesAt host outer r (p.interpret r host outer) ty := by
  induction h with
  | wildcard known =>
      obtain ⟨kind, hkind⟩ := Registry.knows_iff.mp known
      rw [draft_wildcard hkind]
      exact Node.agreesAt_wildcard
  | literal admitted =>
      obtain ⟨kind, test, hkind, htest⟩ := literalTest_of_admits admitted
      rw [draft_literal hkind htest]
      exact Node.agreesAt_literal hvalid hr hkind htest
  | binding inner ih =>
      obtain ⟨kind, hkind⟩ := inner.kind?
      rw [draft_binding hkind]
      exact Node.agreesAt_binding ih
  | null hkind =>
      rw [draft_null hkind]
      exact Node.agreesAt_null hkind
  | deref hkind _ ih =>
      rw [draft_deref hkind]
      exact Node.agreesAt_deref hkind ih
  | union hkind first _ ih =>
      obtain ⟨index, hindex, ha, htest⟩ := Registry.alternativeTest_union _ first
      rw [draft_alternative hkind htest]
      exact Node.agreesAt_union hvalid hr hkind hindex ha ih
  | variant hkind declared first one _ ih =>
      rw [draft_alternative hkind (Registry.alternativeTest_variant _ declared first one)]
      exact Node.agreesAt_variant hvalid hkind declared first one ih
  | @sequence span items _ _ shown arity _ ih =>
      obtain ⟨kind, layout, hkind, hlayout, rfl⟩ := (Registry.shows_iff span).mp shown
      rw [draft_sequence hkind hlayout arity, draftItems_eq]
      refine Node.agreesAt_sequence hr hkind hlayout (by simp [arity]) arity
        fun i node item part hnode hitem hpart => ?_
      rw [List.getElem?_zipWith_eq_some] at hnode
      obtain ⟨item', partTy, hitem', hpartTy, rfl⟩ := hnode
      obtain rfl : part.ty = partTy := by simpa [hpart] using hpartTy
      obtain rfl : item = item' := Option.some.inj (hitem.symm.trans hitem')
      exact ih item part (List.mem_of_getElem? (List.getElem?_zip_eq_some.mpr ⟨hitem, hpart⟩))
  | @fields span entries _ _ shown distinct resolved _ ih =>
      obtain ⟨kind, layout, slot, hkind, hlayout, rfl, hslot, hdraft⟩ :=
        draft_fields_of_shows span shown distinct resolved
      rw [hdraft]
      refine Node.agreesAt_fields (fun name => (slot name).1)
        (fun e => (e.pattern.draft r (slot e.name).2).node) hvalid hr hkind hlayout distinct
        fun e he => ?_
      obtain ⟨part, hpart, hat, hty⟩ := hslot e he
      refine ⟨part, hat, by simpa using List.find?_some hpart, ?_⟩
      rw [hty]
      exact ih e he part hpart
  | guarded inner ih =>
      obtain ⟨kind, hkind⟩ := inner.kind?
      rw [draft_guarded hkind]
      exact Node.agreesAt_guarded ih

end Pattern

namespace Compiled

/-- In a valid registry a match of a checked pattern is the interpretation of the pattern as it is
written. It ends alike from every state of the host and makes the same calls in the same order. -/
theorem run_eq_interpret {p : Pattern γ} {ty : TypeId} {c : Compiled γ} {v : Value}
    (valid : r.isValid = true) (checked : p.check r ty = .ok c) (built : v.Built r)
    (conforms : v.conforms r ty = true) (faithful : host.Faithful r v) (outer : Lookup) :
    c.run host v outer = p.interpret r host outer v [] ∧
      ∀ s, c.calls host v outer s = p.interpretedCalls r host outer v s := by
  obtain ⟨hlegal, hroot⟩ := Pattern.check_eq_ok checked
  constructor
  · rw [run, hroot]
    exact hlegal.agreesAt valid built.consistent v [] ⟨built.wellFormed, conforms, faithful⟩
  · intro s
    have hrecorded : c.root.run host.recorded outer v [] =
        p.interpret r host.recorded outer v [] := by
      rw [hroot]
      exact hlegal.agreesAt valid built.consistent v []
        ⟨built.wellFormed, conforms, faithful.recorded⟩
    rw [calls, Pattern.interpretedCalls, run, hrecorded]

end Compiled

/-! ## A pair

A field pattern that names the second field first. Its match binds the first field first. -/

def pairRegistry : Registry :=
  Registry.fresh.apply (.aggregate "Pair" [("first", TypeId.int), ("second", TypeId.int)])

def pair : Value :=
  .aggregate ⟨⟨1⟩, ⟨5⟩, [⟨⟨2⟩, TypeId.int, .isPublic, Span.dummy⟩,
    ⟨⟨3⟩, TypeId.int, .isPublic, Span.dummy⟩]⟩ [.int 1, .int 2]

theorem reachable_pair :
    Session.Reachable ⟨pairRegistry, [pair, .int 2, .int 1], []⟩ := by
  have hstart : Session.Reachable ⟨pairRegistry, [], []⟩ := .step .start (.operate _)
  have hfirst : Session.Reachable ⟨pairRegistry, [.int 1], []⟩ := .step hstart (.hold (.int 1))
  have hsecond : Session.Reachable ⟨pairRegistry, [.int 2, .int 1], []⟩ :=
    .step hfirst (.hold (.int 2))
  have hmade : Value.ofFields pairRegistry ⟨5⟩ [.int 1, .int 2] = .ok pair := by
    with_unfolding_all rfl
  refine .step hsecond (.hold (.aggregate (fun field hfield => ?_) hmade))
  simpa [Session.held, or_comm] using hfield

theorem faithful_pair : boxHost.Faithful pairRegistry pair := by
  intro ty object met
  have hclosed : boxHost.Closed fun w => w = pair ∨ w = .int 1 ∨ w = .int 2 := by
    constructor
    · rintro v p (rfl | rfl | rfl) hp
      · exact .inr (by simpa [pair, Value.parts] using hp)
      · cases hp
      · cases hp
    · rintro ty object w (h | h | h)
      · cases h
      · cases h
      · cases h
  rcases met.closed hclosed (.inl rfl) with h | h | h
  · cases h
  · cases h
  · cases h

def pairPattern : Pattern Unit :=
  .guarded Span.dummy (.fields Span.dummy [⟨⟨3⟩, .bind Span.dummy ⟨9⟩, Span.dummy⟩,
    ⟨⟨2⟩, .bind Span.dummy ⟨8⟩, Span.dummy⟩]) ()

theorem run_eq_interpret_on_pair : ∃ c, pairPattern.check pairRegistry ⟨5⟩ = .ok c ∧
    c.run boxHost pair Lookup.empty =
        pairPattern.interpret pairRegistry boxHost Lookup.empty pair [] ∧
      ∀ s, c.calls boxHost pair Lookup.empty s =
        pairPattern.interpretedCalls pairRegistry boxHost Lookup.empty pair s := by
  have valid : pairRegistry.isValid = true := by decide +kernel
  have built : pair.Built pairRegistry := ⟨_, reachable_pair, rfl, List.mem_cons_self⟩
  have conforms : pair.conforms pairRegistry ⟨5⟩ = true := by decide +kernel
  have succeeds : (pairPattern.check pairRegistry ⟨5⟩).isOk = true := by decide +kernel
  cases checked : pairPattern.check pairRegistry ⟨5⟩ with
  | error mistakes =>
      rw [checked] at succeeds
      cases succeeds
  | ok c =>
      exact ⟨c, rfl,
        Compiled.run_eq_interpret valid checked built conforms faithful_pair Lookup.empty⟩

end TaggedMatch
