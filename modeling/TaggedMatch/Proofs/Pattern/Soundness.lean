import TaggedMatch.Proofs.Host.Contract
import TaggedMatch.Proofs.Pattern.BinderTypes
import TaggedMatch.Proofs.Pattern.Draft
import TaggedMatch.Proofs.Pattern.Slots
import TaggedMatch.Proofs.Value.Form

/-!
# Checked patterns do not go wrong

A match that meets a value of another form than the pattern was checked for ends with an error. On a
value of the type that the pattern was checked against this never happens: the only errors are those
that guards return. Nor does an identifier get a value of another type than the one it is bound at.

The proof gives every node types it is sound at. `SoundAt` quantifies over all values of the type that
can be relied on, and there is one lemma for each form of node: a node is sound at a type if the type
is of the kind the node is for and the nodes below are sound at the types of the parts. A legal
pattern is drafted into nodes by just these rules.
-/

namespace TaggedMatch

variable {γ σ : Type} {r : Registry} {host : Host γ σ} {outer : Lookup}
  {Q : Name → Value → Prop} {E : EvalError → σ → Prop} {bindings : Bindings}

/-! ## Values that can be relied on -/

/-- A value that is well formed, of the type, and has only objects in it that honour their types. -/
structure Host.Reliable (host : Host γ σ) (r : Registry) (v : Value) (ty : TypeId) : Prop where
  wellFormed : v.WellFormed r
  conforms : v.conforms r ty = true
  faithful : host.Faithful r v

namespace Host.Reliable

variable {v : Value} {ty : TypeId}

theorem fits (h : host.Reliable r v ty) {kind : TypeKind} (hkind : r.kind? ty = some kind) :
    v.Fits r ty kind := by
  refine Value.fits_of_conforms h.wellFormed.sound (fun own object hv => ?_) hkind h.conforms
  subst hv
  exact h.faithful.honours.registered

theorem part (h : host.Reliable r v ty) {p : Value} {partTy : TypeId} (hp : p ∈ v.parts)
    (hty : p.conforms r partTy = true) : host.Reliable r p partTy :=
  ⟨h.wellFormed.part hp, hty, h.faithful.part hp⟩

theorem answer {object : ObjectId} (h : host.Reliable r (.extension ty object) ty) {w : Value}
    {partTy : TypeId} (hw : host.Answers object w) (hty : w.conforms r partTy = true) :
    host.Reliable r w partTy :=
  ⟨(h.faithful.honours.built hw).wellFormed, hty, h.faithful.answer hw⟩

end Host.Reliable

/-! ## Sound computations -/

/-- The computation only ends with errors in `E`. -/
def Safe {α : Type} (E : EvalError → σ → Prop) (m : HostM σ α) : Prop :=
  ∀ s, Ends m s (fun _ _ => True) E

/-- The computation only ends with errors in `E`. If it ends with bindings, they are those made before
and then others, of names to values that are in `Q` together. -/
def Sound (Q : Name → Value → Prop) (E : EvalError → σ → Prop) (bindings : Bindings)
    (m : HostM σ (Option Bindings)) : Prop :=
  ∀ s, Ends m s (fun result _ => ∀ found, result = some found →
    ∃ more, found = bindings ++ more ∧ ∀ x ∈ more, Q x.1 x.2) E

theorem safe_pure {α : Type} (a : α) : Safe E (pure a) := fun _ => trivial

namespace Sound

theorem missed : Sound Q E bindings (pure none) := fun _ _ h => nomatch h

theorem kept : Sound Q E bindings (pure (some bindings)) := by
  intro s found heq
  cases heq
  exact ⟨[], (List.append_nil _).symm, nofun⟩

theorem bound {name : Name} {v : Value} (h : Q name v) :
    Sound Q E bindings (pure (some (bindings ++ [(name, v)]))) := by
  intro s found heq
  cases heq
  refine ⟨[(name, v)], rfl, fun x hx => ?_⟩
  rw [List.mem_singleton.mp hx]
  exact h

theorem bind {α : Type} {m : HostM σ α} {f : α → HostM σ (Option Bindings)} (hm : Safe E m)
    (hf : ∀ a, Sound Q E bindings (f a)) : Sound Q E bindings (m >>= f) :=
  fun s => (hm s).bind fun a s' _ => hf a s'

/-- A part that matched hands its bindings on. -/
theorem andThen {m : HostM σ (Option Bindings)} {f : Bindings → HostM σ (Option Bindings)}
    (hm : Sound Q E bindings m) (hf : ∀ found, Sound Q E found (f found)) :
    Sound Q E bindings (do
      match ← m with
      | some bindings => f bindings
      | none => pure none) := by
  intro s
  refine (hm s).bind fun result s' hresult => ?_
  cases result with
  | none => exact missed s'
  | some found =>
      obtain ⟨more, rfl, hmore⟩ := hresult found rfl
      refine (hf _ s').imp (fun result' _ hfound found' heq => ?_) fun _ _ he => he
      obtain ⟨more', rfl, hmore'⟩ := hfound found' heq
      refine ⟨more ++ more', List.append_assoc .., fun x hx => ?_⟩
      rcases List.mem_append.mp hx with hx | hx
      · exact hmore x hx
      · exact hmore' x hx

end Sound

@[simp] theorem expectType_self (ty : TypeId) (typeName : String) :
    (expectType ty typeName ty : HostM σ Unit) = pure () := by
  rw [expectType, if_pos rfl]

/-! ## Sound nodes -/

namespace Node

/-- Run on any value of the type that can be relied on, the node only ends with errors in `E` and only
makes bindings in `Q`. -/
def SoundAt (host : Host γ σ) (outer : Lookup) (r : Registry) (Q : Name → Value → Prop)
    (E : EvalError → σ → Prop) (node : Node γ) (ty : TypeId) : Prop :=
  ∀ v bindings, host.Reliable r v ty → Sound Q E bindings (node.run host outer v bindings)

variable {ty : TypeId}

theorem soundAt_wildcard : SoundAt host outer r Q E .wildcard ty := by
  intro v bindings hv
  rw [run]
  exact .kept

theorem soundAt_literal {value : Literal} {test : LiteralTest} {kind : TypeKind} {span : Span}
    (hr : r.Consistent) (hkind : r.kind? ty = some kind)
    (htest : r.literalTest value kind ty span = .ok test) :
    SoundAt host outer r Q E (.literal test) ty := by
  intro v bindings hv
  have hrun : Safe E (test.run v : HostM σ Bool) := by
    have hfits := hv.fits hkind
    unfold Registry.literalTest at htest
    split at htest
    · cases htest
      cases hfits
      exact safe_pure _
    · cases htest
      cases hfits
      exact safe_pure _
    · cases htest
      cases hfits
      exact safe_pure _
    · split at htest
      · cases htest
        cases hfits
        have hty := hr.ty_of_kind? hkind rfl
        dsimp only at hty
        rw [LiteralTest.run, hty, expectType_self, pure_bind]
        exact safe_pure _
      · cases htest
    · cases htest
  rw [run]
  refine .bind hrun fun holds => ?_
  split
  · exact .kept
  · exact .missed

theorem soundAt_binding {name : Name} {sub : Node γ} (h : SoundAt host outer r Q E sub ty)
    (hname : ∀ v, host.Reliable r v ty → Q name v) :
    SoundAt host outer r Q E (.binding name sub) ty := by
  intro v bindings hv
  rw [run]
  exact (h v bindings hv).andThen fun _ => .bound (hname v hv)

theorem soundAt_null {pointee : TypeId} (hkind : r.kind? ty = some (.pointer pointee)) :
    SoundAt host outer r Q E .null ty := by
  intro v bindings hv
  cases hv.fits hkind with
  | null => rw [run]; exact .kept
  | pointer => rw [run]; exact .missed

theorem soundAt_deref {pointee : TypeId} {sub : Node γ}
    (hkind : r.kind? ty = some (.pointer pointee)) (h : SoundAt host outer r Q E sub pointee) :
    SoundAt host outer r Q E (.deref sub) ty := by
  intro v bindings hv
  cases hv.fits hkind with
  | null => rw [run]; exact .missed
  | pointer hpointee =>
      rw [run]
      exact h _ bindings (hv.part (List.mem_singleton.mpr rfl) hpointee)

theorem soundAt_union {d : UnionDef} {a : AlternativeDef} {discriminator : Nat}
    {typeName : String} {sub : Node γ} (hr : r.Consistent) (hkind : r.kind? ty = some (.union d))
    (ha : d.alternatives[discriminator]? = some a) (h : SoundAt host outer r Q E sub a.payload) :
    SoundAt host outer r Q E (.unionAlternative ty typeName discriminator sub) ty := by
  intro v bindings hv
  cases hv.fits hkind with
  | @union _ active b payload hactive hpayload =>
      obtain rfl : d.ty = ty := hr.ty_of_kind? hkind rfl
      rw [run, expectType_self, pure_bind]
      split
      · next heq =>
          subst heq
          rw [ha] at hactive
          cases hactive
          exact h _ bindings (hv.part (List.mem_singleton.mpr rfl) hpayload)
      · exact .missed

theorem soundAt_variant {d : ExtensionDef} {shape : VariantShape} {a : VariantAlternativeDef}
    {typeName : String} {sub : Node γ} (hkind : r.kind? ty = some (.extension d))
    (hshape : d.variant = some shape) (ha : a ∈ shape.alternatives)
    (h : SoundAt host outer r Q E sub a.payload) :
    SoundAt host outer r Q E (.variantAlternative ty typeName a.discriminator sub) ty := by
  intro v bindings hv
  cases hv.fits hkind with
  | extension _ object =>
      have honours := hv.faithful.honours
      rw [run, expectType_self, pure_bind]
      intro s
      refine ends_bind.mpr (ends_lift.mpr ?_)
      rw [if_pos (honours.givesVariant hkind hshape s)]
      refine ends_bind.mpr (ends_lift.mpr ?_)
      rcases hreported : (host.discriminator object).run ((host.givesVariant object).run s).2
        with ⟨active, s'⟩
      dsimp only
      split
      · next hactive =>
          obtain ⟨w, hw, hty⟩ := honours.payload hkind hshape hreported ha hactive.symm
          refine ends_bind.mpr (ends_lift.mpr ?_)
          rw [hw]
          exact h w bindings (hv.answer (.payload _ _ _ hreported hw) hty) _
      · exact Sound.missed _

/-! ### Products

What the lists of nodes below a product have to have is said place by place. -/

theorem runItems_sound {items : List (Node γ)} {vs : List Value}
    (h : ∀ item v, (item, v) ∈ items.zip vs →
      ∀ bindings, Sound Q E bindings (item.run host outer v bindings)) (bindings : Bindings) :
    Sound Q E bindings (runItems host outer items vs bindings) := by
  induction items generalizing vs bindings with
  | nil =>
      simp only [runItems]
      exact .kept
  | cons item items ih =>
      cases vs with
      | nil =>
          simp only [runItems]
          exact .kept
      | cons v vs =>
          rw [runItems]
          refine (h item v List.mem_cons_self bindings).andThen fun bindings' => ?_
          exact ih (fun item' v' hmem => h item' v' (List.mem_cons_of_mem _ hmem)) bindings'

theorem soundAt_tuple {elements : List TypeId} {items : List (Node γ)}
    (hkind : r.kind? ty = some (.tuple elements)) (hlength : items.length = elements.length)
    (h : ∀ (i : Nat) item element, items[i]? = some item → elements[i]? = some element →
      SoundAt host outer r Q E item element) :
    SoundAt host outer r Q E (.tuple items) ty := by
  intro v bindings hv
  cases hv.fits hkind with
  | @tuple _ vs hvs =>
      rw [run, if_pos (hvs.length_eq.trans hlength.symm)]
      refine runItems_sound (fun item w hmem => ?_) bindings
      obtain ⟨i, hi⟩ := List.mem_iff_getElem?.mp hmem
      obtain ⟨hitem, hw⟩ := List.getElem?_zip_eq_some.mp hi
      obtain ⟨element, helement, hty⟩ := forall₂_getElem? hvs.flip hw
      exact fun bindings' => h i item element hitem helement w bindings'
        (hv.part (List.of_mem_zip hmem).2 hty)

theorem runFields_sound {slots : List (Nat × Node γ)} {vs : List Value}
    (h : ∀ slot ∈ slots, ∃ v, vs[slot.1]? = some v ∧
      ∀ bindings, Sound Q E bindings (slot.2.run host outer v bindings)) (bindings : Bindings) :
    Sound Q E bindings (runFields host outer slots vs bindings) := by
  induction slots generalizing bindings with
  | nil =>
      rw [runFields]
      exact .kept
  | cons slot slots ih =>
      rw [List.forall_mem_cons] at h
      obtain ⟨⟨v, hv, hsound⟩, hrest⟩ := h
      rw [runFields, hv]
      exact (hsound bindings).andThen fun bindings' => ih hrest bindings'

theorem soundAt_fields {d : AggregateDef} {typeName : String} {slots : List (Nat × Node γ)}
    (hr : r.Consistent) (hkind : r.kind? ty = some (.aggregate d))
    (h : ∀ slot ∈ slots, ∃ f, d.fields[slot.1]? = some f ∧
      SoundAt host outer r Q E slot.2 f.ty) :
    SoundAt host outer r Q E (.fields ty typeName slots) ty := by
  intro v bindings hv
  cases hv.fits hkind with
  | @aggregate _ vs hvs =>
      obtain rfl : d.ty = ty := hr.ty_of_kind? hkind rfl
      rw [run, expectType_self, pure_bind]
      refine runFields_sound (fun slot hslot => ?_) bindings
      obtain ⟨f, hf, hsound⟩ := h slot hslot
      obtain ⟨w, hw, hty⟩ := forall₂_getElem? hvs hf
      exact ⟨w, hw, fun bindings' => hsound w bindings' (hv.part (List.mem_of_getElem? hw) hty)⟩

theorem runPieces_sound {slots : List (Nat × Node γ)} {object : ObjectId} {typeName : String}
    (h : ∀ slot ∈ slots, ∀ s, ∃ w, ((host.piece object slot.1).run s).1 = some w ∧
      ∀ bindings, Sound Q E bindings (slot.2.run host outer w bindings)) (bindings : Bindings) :
    Sound Q E bindings (runPieces host outer typeName object slots bindings) := by
  induction slots generalizing bindings with
  | nil =>
      rw [runPieces]
      exact .kept
  | cons slot slots ih =>
      rw [List.forall_mem_cons] at h
      rw [runPieces]
      intro s
      refine ends_bind.mpr (ends_lift.mpr ?_)
      obtain ⟨w, hw, hsound⟩ := h.1 s
      rw [hw]
      exact (hsound bindings).andThen (fun bindings' => ih h.2 bindings') _

theorem soundAt_pieces {d : ExtensionDef} {shape : AggregateShape} {typeName : String}
    {slots : List (Nat × Node γ)} (hkind : r.kind? ty = some (.extension d))
    (hshape : d.aggregate = some shape)
    (h : ∀ slot ∈ slots, ∃ part, shape.pieces[slot.1]? = some part ∧
      SoundAt host outer r Q E slot.2 part.ty) :
    SoundAt host outer r Q E (.pieces ty typeName slots) ty := by
  intro v bindings hv
  cases hv.fits hkind with
  | extension _ object =>
      have honours := hv.faithful.honours
      rw [run, expectType_self, pure_bind]
      intro s
      refine ends_bind.mpr (ends_lift.mpr ?_)
      rw [if_pos (honours.givesPieces hkind hshape s)]
      refine runPieces_sound (fun slot hslot s => ?_) bindings _
      obtain ⟨part, hpart, hsound⟩ := h slot hslot
      obtain ⟨w, hw, hty⟩ := honours.piece hkind hshape hpart s
      exact ⟨w, hw, fun bindings' => hsound w bindings' (hv.answer (.piece _ s hw) hty)⟩

theorem soundAt_guarded {sub : Node γ} {guard : γ} (h : SoundAt host outer r Q E sub ty)
    (hguard : ∀ scope, Safe E (host.test guard scope)) :
    SoundAt host outer r Q E (.guarded sub guard) ty := by
  intro v bindings hv
  rw [run]
  refine (h v bindings hv).andThen fun bindings' => .bind (hguard _) fun holds => ?_
  split
  · exact .kept
  · exact .missed

/-- A slot of a product is sound if its node is sound at the type of the part it stands for. -/
def SlotSound (host : Host γ σ) (outer : Lookup) (r : Registry) (Q : Name → Value → Prop)
    (E : EvalError → σ → Prop) (parts : List PieceDef) (slot : Nat × Node γ) : Prop :=
  ∃ part, parts[slot.1]? = some part ∧ SoundAt host outer r Q E slot.2 part.ty

theorem soundAt_fields_of_slots {d : AggregateDef} {typeName : String}
    {slots : List (Nat × Node γ)} (hr : r.Consistent) (hkind : r.kind? ty = some (.aggregate d))
    (h : ∀ slot ∈ slots,
      SlotSound host outer r Q E (d.fields.map fun f => ⟨some f.name, f.ty⟩) slot) :
    SoundAt host outer r Q E (.fields ty typeName slots) ty := by
  refine soundAt_fields hr hkind fun slot hslot => ?_
  obtain ⟨part, hpart, hsound⟩ := h slot hslot
  rw [List.getElem?_map, Option.map_eq_some_iff] at hpart
  obtain ⟨f, hf, rfl⟩ := hpart
  exact ⟨f, hf, hsound⟩

/-- The node that tests every part of a product is sound if the nodes of the parts are. -/
theorem soundAt_ofItems (hr : r.Consistent) {kind : TypeKind} {layout : Layout} {span : Span}
    {nodes : List (Node γ)} (hkind : r.kind? ty = some kind)
    (hlayout : r.layout kind ty span = .ok layout) (hlength : nodes.length = layout.parts.length)
    (h : ∀ (i : Nat) node part, nodes[i]? = some node → layout.parts[i]? = some part →
      SoundAt host outer r Q E node part.ty) :
    SoundAt host outer r Q E (layout.ofItems nodes) ty := by
  have hslots : ∀ slot ∈ nodes.zipIdx.map Prod.swap,
      SlotSound host outer r Q E layout.parts slot := by
    rintro ⟨i, node⟩ hslot
    have hnode : nodes[i]? = some node := mem_slots_iff.mp hslot
    have hi : i < layout.parts.length := by
      rw [← hlength]
      exact (List.getElem?_eq_some_iff.mp hnode).1
    have hpart : layout.parts[i]? = some layout.parts[i] := List.getElem?_eq_getElem hi
    exact ⟨layout.parts[i], hpart, h i node _ hnode hpart⟩
  rcases Registry.layout_eq_ok hlayout with
    ⟨elements, rfl, rfl⟩ | ⟨d, rfl, -, rfl⟩ | ⟨d, shape, rfl, hshape, rfl⟩
  · refine soundAt_tuple hkind (by simpa using hlength) fun i node element hnode helement => ?_
    exact h i node ⟨none, element⟩ hnode (by simp [helement])
  · exact soundAt_fields_of_slots hr hkind hslots
  · exact soundAt_pieces hkind hshape hslots

/-- The node that tests some parts of a product is sound if their slots are. -/
theorem soundAt_ofSlots (hr : r.Consistent) {kind : TypeKind} {layout : Layout} {span : Span}
    {slots : List (Nat × Node γ)} (hkind : r.kind? ty = some kind)
    (hlayout : r.layout kind ty span = .ok layout)
    (h : ∀ slot ∈ slots, SlotSound host outer r Q E layout.parts slot) :
    SoundAt host outer r Q E (layout.ofSlots slots) ty := by
  have hsorted : ∀ slot ∈ slots.mergeSort fun a b => a.1 ≤ b.1,
      SlotSound host outer r Q E layout.parts slot :=
    fun slot hslot => h slot (List.mem_mergeSort.mp hslot)
  rcases Registry.layout_eq_ok hlayout with
    ⟨elements, rfl, rfl⟩ | ⟨d, rfl, -, rfl⟩ | ⟨d, shape, rfl, hshape, rfl⟩
  · refine soundAt_tuple hkind (by simp) fun i node element hnode _ => ?_
    obtain rfl : node = .wildcard := List.eq_of_mem_replicate (List.mem_of_getElem? hnode)
    exact soundAt_wildcard
  · exact soundAt_fields_of_slots hr hkind hsorted
  · exact soundAt_pieces hkind hshape hsorted

end Node

/-! ## Legal patterns -/

namespace Pattern

variable {ty : TypeId}

/-- A legal pattern is drafted into a node that is sound at the pattern's type: its only errors are
those of its guards, and it binds each identifier to a value that can be relied on to be of the type
that the identifier is bound at. -/
theorem Legal.soundAt (hr : r.Consistent) {p : Pattern γ} (h : p.Legal r ty)
    (hbinders : ∀ name t, p.BindsAt r ty name t → ∀ v, host.Reliable r v t → Q name v)
    (hguards : ∀ guard ∈ p.guards, ∀ scope, Safe E (host.test guard scope)) :
    (p.draft r ty).node.SoundAt host outer r Q E ty := by
  induction h with
  | wildcard known =>
      obtain ⟨kind, hkind⟩ := Registry.knows_iff.mp known
      rw [draft_wildcard hkind]
      exact Node.soundAt_wildcard
  | literal admitted =>
      obtain ⟨kind, test, hkind, htest⟩ := literalTest_of_admits admitted
      rw [draft_literal hkind htest]
      exact Node.soundAt_literal hr hkind htest
  | binding inner ih =>
      obtain ⟨kind, hkind⟩ := inner.kind?
      rw [draft_binding hkind]
      exact Node.soundAt_binding (ih (fun name t h => hbinders name t h.binding) hguards)
        (hbinders _ _ .here)
  | null hkind =>
      rw [draft_null hkind]
      exact Node.soundAt_null hkind
  | deref hkind _ ih =>
      rw [draft_deref hkind]
      exact Node.soundAt_deref hkind
        (ih (fun name t h => hbinders name t (.deref hkind h)) hguards)
  | union hkind first _ ih =>
      obtain ⟨index, -, ha, htest⟩ := Registry.alternativeTest_union _ first
      rw [draft_alternative hkind htest]
      exact Node.soundAt_union hr hkind ha
        (ih (fun name t h => hbinders name t (.union hkind first h)) hguards)
  | variant hkind declared first one _ ih =>
      rw [draft_alternative hkind (Registry.alternativeTest_variant _ declared first one)]
      exact Node.soundAt_variant hkind declared (List.mem_of_find?_eq_some first)
        (ih (fun name t h => hbinders name t (.variant hkind declared first h)) hguards)
  | @sequence span items _ _ shown arity _ ih =>
      obtain ⟨kind, layout, hkind, hlayout, rfl⟩ := (Registry.shows_iff span).mp shown
      rw [draft_sequence hkind hlayout arity, draftItems_eq]
      rw [guards_sequence] at hguards
      refine Node.soundAt_ofItems hr hkind hlayout (by simp [arity])
        fun i node part hnode hpart => ?_
      rw [List.getElem?_zipWith_eq_some] at hnode
      obtain ⟨item, partTy, hitem, hpartTy, rfl⟩ := hnode
      obtain rfl : part.ty = partTy := by simpa [hpart] using hpartTy
      have hmem : (item, part) ∈ items.zip layout.parts :=
        List.mem_of_getElem? (List.getElem?_zip_eq_some.mpr ⟨hitem, hpart⟩)
      exact ih item part hmem (fun name t h => hbinders name t (.sequence shown hmem h))
        fun guard hguard =>
          hguards guard (List.mem_flatMap.mpr ⟨item, List.mem_of_getElem? hitem, hguard⟩)
  | @fields span entries _ _ shown distinct resolved _ ih =>
      obtain ⟨kind, layout, slot, hkind, hlayout, rfl, hslot, hdraft⟩ :=
        draft_fields_of_shows span shown distinct resolved
      rw [hdraft]
      rw [guards_fields] at hguards
      refine Node.soundAt_ofSlots hr hkind hlayout fun slot' hmem => ?_
      obtain ⟨e, he, rfl⟩ := List.mem_map.mp hmem
      obtain ⟨part, hpart, hat, hty⟩ := hslot e he
      refine ⟨part, hat, ?_⟩
      rw [hty]
      exact ih e he part hpart (fun name t h => hbinders name t (.fields shown he hpart h))
        fun guard hguard => hguards guard (List.mem_flatMap.mpr ⟨e, he, hguard⟩)
  | @guarded sub guard _ _ inner ih =>
      obtain ⟨kind, hkind⟩ := inner.kind?
      rw [draft_guarded hkind]
      exact Node.soundAt_guarded
        (ih (fun name t h => hbinders name t h.guarded)
          fun g hg => hguards g (List.mem_cons_of_mem _ hg))
        (hguards guard List.mem_cons_self)

/-- The errors of a legal pattern are those of its guards. -/
theorem Legal.safeAt (hr : r.Consistent) {p : Pattern γ} (h : p.Legal r ty)
    (hguards : ∀ guard ∈ p.guards, ∀ scope, Safe E (host.test guard scope)) (v : Value)
    (bindings : Bindings) (hv : host.Reliable r v ty) :
    Safe E ((p.draft r ty).node.run host outer v bindings) := by
  have hsound : (p.draft r ty).node.SoundAt host outer r (fun _ _ => True) E ty :=
    h.soundAt hr (fun _ _ _ _ _ => trivial) hguards
  exact fun s => (hsound v bindings hv s).imp (fun _ _ _ => trivial) fun _ _ he => he

theorem check_eq_ok {p : Pattern γ} {c : Compiled γ} (h : p.check r ty = .ok c) :
    p.Legal r ty ∧ c.root = (p.draft r ty).node := by
  obtain ⟨⟨hclean, -⟩, rfl⟩ := check_eq_ok_iff.mp h
  exact ⟨legal_of_clean hclean, rfl⟩

end Pattern

namespace Compiled

/-- A match of a checked pattern, on a value of the type that it was checked against, ends with an
error only if its last call was to a guard of the pattern, which returned just that error. -/
theorem error_of_guard {p : Pattern γ} {ty : TypeId} {c : Compiled γ} {v : Value} {s s' : σ}
    {e : EvalError} (checked : p.check r ty = .ok c) (built : v.Built r)
    (conforms : v.conforms r ty = true) (faithful : host.Faithful r v)
    (failed : (c.run host v outer).run s = (.error e, s')) :
    ∃ before guard scope, c.calls host v outer s = before ++ [.test guard scope (.error e)] ∧
      guard ∈ p.guards := by
  -- The error and the calls made by then, seen by a host that records its calls.
  let E : EvalError → σ × List (Call γ) → Prop := fun e s =>
    ∃ before guard scope, s.2 = before ++ [.test guard scope (.error e)] ∧ guard ∈ p.guards
  obtain ⟨hlegal, hroot⟩ := Pattern.check_eq_ok checked
  have hguards : ∀ guard ∈ p.guards, ∀ scope, Safe E (host.recorded.test guard scope) := by
    intro guard hguard scope s
    rw [ends_recorded_test, Ends]
    split
    · trivial
    · exact ⟨s.2, guard, scope, rfl, hguard⟩
  have hsafe : Ends ((p.draft r ty).node.run host.recorded outer v []) (s, []) _ E :=
    hlegal.safeAt built.consistent hguards v []
      ⟨built.wellFormed, conforms, faithful.recorded⟩ (s, [])
  have hrun := run_recorded host c v outer s
  rw [failed, run, hroot] at hrun
  rw [Ends, hrun] at hsafe
  exact hsafe

end Compiled

/-! ## A box

What is asked of hosts can be had: here is one whose objects are boxes with a number in them, and a
match that takes the number out before its guard fails. -/

/-- The registry of a program with one extension type, whose objects give out one number. -/
def boxRegistry : Registry :=
  Registry.fresh.apply (.extension "Box" (some ⟨[⟨none, TypeId.int⟩]⟩) none)

/-- A host whose objects give out 7 and whose guards fail. -/
def boxHost : Host Unit Unit where
  test _ _ := throw (.custom "no")
  givesPieces _ := pure true
  piece _ index := pure (if index = 0 then some (.int 7) else none)
  givesVariant _ := pure false
  discriminator _ := pure 0
  alternative _ _ := pure none

def box : Value := .extension ⟨5⟩ ⟨0⟩

theorem boxRegistry_kind? : boxRegistry.kind? ⟨5⟩ =
    some (.extension ⟨⟨1⟩, ⟨5⟩, some ⟨[⟨none, TypeId.int⟩]⟩, none⟩) := by decide +kernel

theorem reachable_box : Session.Reachable ⟨boxRegistry, [.int 7, box], []⟩ := by
  have hstart : Session.Reachable ⟨boxRegistry, [], []⟩ := .step .start (.operate _)
  have hbox : Session.Reachable ⟨boxRegistry, [box], []⟩ :=
    .step hstart (.hold (.extension ⟨5⟩ ⟨0⟩))
  exact .step hbox (.hold (.int 7))

theorem boxHost_answers {object : ObjectId} {w : Value} (h : boxHost.Answers object w) :
    w = .int 7 := by
  cases h with
  | piece index s h =>
      change (if index = 0 then some (Value.int 7) else none) = some w at h
      split at h
      · exact (Option.some.inj h).symm
      · cases h
  | payload active s s' reported h => cases h

theorem honours_box : boxHost.Honours boxRegistry ⟨5⟩ ⟨0⟩ where
  registered := ⟨_, boxRegistry_kind?⟩
  givesPieces _ _ _ := rfl
  piece hkind hshape index part hpart s := by
    rw [boxRegistry_kind?] at hkind
    cases hkind
    cases hshape
    cases index with
    | zero =>
        cases hpart
        exact ⟨.int 7, rfl, by decide +kernel⟩
    | succ index => cases hpart
  givesVariant hkind hshape := by
    rw [boxRegistry_kind?] at hkind
    cases hkind
    cases hshape
  payload hkind hshape := by
    rw [boxRegistry_kind?] at hkind
    cases hkind
    cases hshape
  built hw := by
    rw [boxHost_answers hw]
    exact ⟨_, reachable_box, rfl, List.mem_cons_self⟩

theorem faithful_box : boxHost.Faithful boxRegistry box := by
  intro ty object met
  have hclosed : boxHost.Closed fun w => w = box ∨ w = .int 7 := by
    refine ⟨?_, fun _ hw => .inr (boxHost_answers hw)⟩
    rintro v p (rfl | rfl) hp
    · cases hp
    · cases hp
  rcases met.closed hclosed (.inl rfl) with heq | heq
  · cases heq
    exact honours_box
  · cases heq

/-- Binds the number in a box, if the guard holds. -/
def boxPattern : Pattern Unit :=
  .guarded Span.dummy (.sequence Span.dummy [.bind Span.dummy ⟨9⟩]) ()

def boxCompiled : Compiled Unit :=
  ⟨.guarded (.pieces ⟨5⟩ "Box" [(0, .binding ⟨9⟩ .wildcard)]) (), ⟨5⟩, [⟨9⟩], Span.dummy⟩

theorem error_of_guard_on_box :
    ∃ before guard scope, boxCompiled.calls boxHost box Lookup.empty () =
      before ++ [.test guard scope (.error (.custom "no"))] ∧ guard ∈ boxPattern.guards := by
  have checked : boxPattern.check boxRegistry ⟨5⟩ = .ok boxCompiled := by with_unfolding_all rfl
  have built : box.Built boxRegistry :=
    ⟨_, reachable_box, rfl, List.mem_cons_of_mem _ List.mem_cons_self⟩
  have conforms : box.conforms boxRegistry ⟨5⟩ = true := by decide +kernel
  have failed : (boxCompiled.run boxHost box Lookup.empty).run () =
      (.error (.custom "no"), ()) := by rfl
  exact Compiled.error_of_guard checked built conforms faithful_box failed

end TaggedMatch
