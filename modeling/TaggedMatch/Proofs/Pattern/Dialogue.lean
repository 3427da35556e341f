import TaggedMatch.Proofs.Host.Transcript
import TaggedMatch.Proofs.Pattern.Draft

/-!
# The dialogue of a match with the host

`Pattern.Dialogue` describes the conversations that a match may have, rule by rule along the pattern as
it is written: which calls are made, with which answers, and whether the match then succeeds. It knows
nothing of nodes and of hosts. A call stands in a rule only where the type that the pattern is written
for declares the capability, with the index or the discriminator that is declared; and a rule goes on
after a part only if the part matched.

Every match of a checked pattern keeps to it, whatever the value and whatever the host answers
(`Legal.follows`): an object that does not honour its type can cut the conversation short and cannot
change its course. So nothing is asked here of the value or of the registry.
-/

namespace TaggedMatch

variable {γ σ : Type}

/-! ## The rules -/

/-- Objects of the type report alternatives, and this is the first under the selector. -/
inductive Registry.Reports (r : Registry) (ty : TypeId) (selector : Name)
    (a : VariantAlternativeDef) : Prop
  | intro {d : ExtensionDef} {shape : VariantShape} (kind : r.kind? ty = some (.extension d))
      (declared : d.variant = some shape)
      (first : shape.alternatives.find? (·.selector == selector) = some a)

/-- The value is the one that the literal denotes where it is written for the type. -/
inductive Registry.Denotes (r : Registry) (ty : TypeId) : Literal → Value → Prop
  | int (n : Int64) : Denotes r ty (.int n) (.int n)
  | bool (b : Bool) : Denotes r ty (.bool b) (.bool b)
  | char (c : Char) : Denotes r ty (.char c) (.char c)
  | constant {d own : EnumDef} {name : Name} {index : Nat}
      (kind : r.kind? ty = some (.enumeration d)) (named : d.constantIndex? name = some index)
      (type : ty = own.ty) : Denotes r ty (.constant name) (.constant own index)

namespace Pattern

/-- A part of a product that is to be matched: where it is, against what, and as which type. -/
structure Turn (γ : Type) where
  index : Nat
  pattern : Pattern γ
  ty : TypeId

/-- The turns are at parts that are declared, in the order of declaration and none of them twice. -/
structure Turn.Ordered (parts : List PieceDef) (turns : List (Turn γ)) : Prop where
  declared : ∀ turn ∈ turns, ∃ part, parts[turn.index]? = some part ∧ part.ty = turn.ty
  ascending : turns.Pairwise fun turn later => turn.index < later.index

/-- The turns of a product pattern: every pattern in it has its turn, at a part that the type shows. -/
inductive Schedule (r : Registry) (ty : TypeId) : Pattern γ → List (Turn γ) → Prop
  | sequence {span : Span} {items : List (Pattern γ)} {parts : List PieceDef}
      {turns : List (Turn γ)} (shown : r.Shows ty parts) (ordered : Turn.Ordered parts turns)
      (every : turns.map (·.pattern) = items) : Schedule r ty (.sequence span items) turns
  | fields {span : Span} {entries : List (FieldEntry (Pattern γ))} {parts : List PieceDef}
      {turns : List (Turn γ)} (shown : r.Shows ty parts) (ordered : Turn.Ordered parts turns)
      (every : (turns.map (·.pattern)).Perm (entries.map (·.pattern))) :
      Schedule r ty (.fields span entries) turns

/-- Where the parts of a product come from. -/
inductive Source where
  | values (vs : List Value)
  | object (object : ObjectId)

/-- `source.Gives index part calls`: getting the part takes these calls. There may be no part to get. -/
inductive Source.Gives : Source → Nat → Option Value → List (Call γ) → Prop
  | value {vs : List Value} {index : Nat} {part : Option Value} (found : vs[index]? = part) :
      Gives (.values vs) index part []
  | piece {object : ObjectId} {index : Nat} {part : Option Value} :
      Gives (.object object) index part [.piece object index part]

mutual

/-- `p.Dialogue r ty v calls matched`: a match of `v` against the pattern, written for the type, may
make these calls, in this order and with these answers, and then end so. -/
inductive Dialogue (r : Registry) : Pattern γ → TypeId → Value → List (Call γ) → Bool → Prop
  /-- Nothing has to be asked to see that a value does not match. -/
  | refused {p : Pattern γ} {ty : TypeId} {v : Value} : Dialogue r p ty v [] false
  | wildcard {span : Span} {ty : TypeId} {v : Value} : Dialogue r (.wildcard span) ty v [] true
  | literal {span : Span} {value : Literal} {ty : TypeId} {v : Value} (h : r.Denotes ty value v) :
      Dialogue r (.literal span value) ty v [] true
  | null {span : Span} {ty : TypeId} : Dialogue r (.null span) ty .null [] true
  | binding {span : Span} {name : Name} {sub : Pattern γ} {ty : TypeId} {v : Value}
      {calls : List (Call γ)} {matched : Bool} (inner : Dialogue r sub ty v calls matched) :
      Dialogue r (.binding span name sub) ty v calls matched
  | deref {span : Span} {sub : Pattern γ} {ty pointee : TypeId} {v : Value}
      {calls : List (Call γ)} {matched : Bool} (kind : r.kind? ty = some (.pointer pointee))
      (inner : Dialogue r sub pointee v calls matched) :
      Dialogue r (.deref span sub) ty (.pointer v) calls matched
  | union {span : Span} {selector : Name} {payload : Pattern γ} {ty : TypeId} {d own : UnionDef}
      {index : Nat} {a : AlternativeDef} {v : Value} {calls : List (Call γ)} {matched : Bool}
      (kind : r.kind? ty = some (.union d)) (selected : d.alternativeIndex? selector = some index)
      (active : d.alternatives[index]? = some a) (type : ty = own.ty)
      (inner : Dialogue r payload a.payload v calls matched) :
      Dialogue r (.alternative span selector payload) ty (.union own index v) calls matched
  /-- An object without the capability its type declares. -/
  | incapable {span : Span} {selector : Name} {payload : Pattern γ} {ty : TypeId}
      {a : VariantAlternativeDef} {object : ObjectId} (reports : r.Reports ty selector a) :
      Dialogue r (.alternative span selector payload) ty (.extension ty object)
        [.givesVariant object false] false
  | inactive {span : Span} {selector : Name} {payload : Pattern γ} {ty : TypeId}
      {a : VariantAlternativeDef} {object : ObjectId} {active : Int64}
      (reports : r.Reports ty selector a) (other : active ≠ a.discriminator) :
      Dialogue r (.alternative span selector payload) ty (.extension ty object)
        [.givesVariant object true, .discriminator object active] false
  /-- An object that has no payload under the discriminator it reports. -/
  | withheld {span : Span} {selector : Name} {payload : Pattern γ} {ty : TypeId}
      {a : VariantAlternativeDef} {object : ObjectId} (reports : r.Reports ty selector a) :
      Dialogue r (.alternative span selector payload) ty (.extension ty object)
        [.givesVariant object true, .discriminator object a.discriminator,
          .alternative object a.discriminator none] false
  | variant {span : Span} {selector : Name} {payload : Pattern γ} {ty : TypeId}
      {a : VariantAlternativeDef} {object : ObjectId} {v : Value} {calls : List (Call γ)}
      {matched : Bool} (reports : r.Reports ty selector a)
      (inner : Dialogue r payload a.payload v calls matched) :
      Dialogue r (.alternative span selector payload) ty (.extension ty object)
        ([.givesVariant object true, .discriminator object a.discriminator,
          .alternative object a.discriminator (some v)] ++ calls) matched
  | tuple {p : Pattern γ} {ty : TypeId} {elements : List TypeId} {vs : List Value}
      {turns : List (Turn γ)} {calls : List (Call γ)} {matched : Bool}
      (kind : r.kind? ty = some (.tuple elements)) (arity : vs.length = elements.length)
      (schedule : Schedule r ty p turns) (rounds : Rounds r (.values vs) turns calls matched) :
      Dialogue r p ty (.tuple vs) calls matched
  | aggregate {p : Pattern γ} {ty : TypeId} {d own : AggregateDef} {vs : List Value}
      {turns : List (Turn γ)} {calls : List (Call γ)} {matched : Bool}
      (kind : r.kind? ty = some (.aggregate d)) (type : ty = own.ty)
      (schedule : Schedule r ty p turns) (rounds : Rounds r (.values vs) turns calls matched) :
      Dialogue r p ty (.aggregate own vs) calls matched
  /-- An object without the capability its type declares. -/
  | closed {p : Pattern γ} {ty : TypeId} {d : ExtensionDef} {shape : AggregateShape}
      {object : ObjectId} {turns : List (Turn γ)} (kind : r.kind? ty = some (.extension d))
      (declared : d.aggregate = some shape) (schedule : Schedule r ty p turns) :
      Dialogue r p ty (.extension ty object) [.givesPieces object false] false
  | pieces {p : Pattern γ} {ty : TypeId} {d : ExtensionDef} {shape : AggregateShape}
      {object : ObjectId} {turns : List (Turn γ)} {calls : List (Call γ)} {matched : Bool}
      (kind : r.kind? ty = some (.extension d)) (declared : d.aggregate = some shape)
      (schedule : Schedule r ty p turns) (rounds : Rounds r (.object object) turns calls matched) :
      Dialogue r p ty (.extension ty object) ([.givesPieces object true] ++ calls) matched
  /-- The guard of a pattern that did not match is not asked. -/
  | unguarded {span : Span} {sub : Pattern γ} {guard : γ} {ty : TypeId} {v : Value}
      {calls : List (Call γ)} (inner : Dialogue r sub ty v calls false) :
      Dialogue r (.guarded span sub guard) ty v calls false
  | granted {span : Span} {sub : Pattern γ} {guard : γ} {ty : TypeId} {v : Value}
      {calls : List (Call γ)} {scope : Lookup} (inner : Dialogue r sub ty v calls true) :
      Dialogue r (.guarded span sub guard) ty v (calls ++ [.test guard scope (.ok true)]) true
  | denied {span : Span} {sub : Pattern γ} {guard : γ} {ty : TypeId} {v : Value}
      {calls : List (Call γ)} {scope : Lookup} {answer : Except EvalError Bool}
      (inner : Dialogue r sub ty v calls true) (no : answer ≠ .ok true) :
      Dialogue r (.guarded span sub guard) ty v (calls ++ [.test guard scope answer]) false

/-- The calls of the turns of a product: each part is got and matched when its turn comes, and the
first that cannot be got or does not match is the last. -/
inductive Rounds (r : Registry) : Source → List (Turn γ) → List (Call γ) → Bool → Prop
  | done {source : Source} : Rounds r source [] [] true
  | missing {source : Source} {turn : Turn γ} {turns : List (Turn γ)} {got : List (Call γ)}
      (asked : source.Gives turn.index none got) : Rounds r source (turn :: turns) got false
  | last {source : Source} {turn : Turn γ} {turns : List (Turn γ)} {v : Value}
      {got calls : List (Call γ)} (asked : source.Gives turn.index (some v) got)
      (inner : Dialogue r turn.pattern turn.ty v calls false) :
      Rounds r source (turn :: turns) (got ++ calls) false
  | next {source : Source} {turn : Turn γ} {turns : List (Turn γ)} {v : Value}
      {got calls more : List (Call γ)} {matched : Bool}
      (asked : source.Gives turn.index (some v) got)
      (inner : Dialogue r turn.pattern turn.ty v calls true)
      (others : Rounds r source turns more matched) :
      Rounds r source (turn :: turns) (got ++ (calls ++ more)) matched

end

end Pattern

/-! ## Nodes that keep to a dialogue -/

namespace Node

variable {r : Registry} {host : Host γ σ} {outer : Lookup} {ty : TypeId} {span : Span}

open Pattern (Dialogue Rounds Schedule Turn)

/-- What the node says to the host, run on any value, is in `D`. -/
def Follows (host : Host γ σ) (outer : Lookup) (node : Node γ)
    (D : Value → List (Call γ) → Bool → Prop) : Prop :=
  ∀ v bindings, Says (D v) (node.run host.recorded outer v bindings)

theorem follows_wildcard : Follows host outer .wildcard (Dialogue r (.wildcard span) ty) := by
  intro v bindings
  rw [run]
  exact .matched .wildcard

/-- Testing a literal leaves the state alone, and it only succeeds for the value that is denoted. -/
theorem ends_literal {kind : TypeKind} {value : Literal} {test : LiteralTest}
    (hkind : r.kind? ty = some kind) (htest : r.literalTest value kind ty span = .ok test)
    (v : Value) (s : σ) :
    Ends (test.run v) s (fun holds s' => s' = s ∧ (holds = true → r.Denotes ty value v))
      fun _ s' => s' = s := by
  unfold Registry.literalTest at htest
  split at htest
  · cases htest
    cases v with
    | int m =>
        refine ⟨rfl, fun hholds => ?_⟩
        rw [eq_of_beq hholds]
        exact .int m
    | _ => exact rfl
  · cases htest
    cases v with
    | bool c =>
        refine ⟨rfl, fun hholds => ?_⟩
        rw [eq_of_beq hholds]
        exact .bool c
    | _ => exact rfl
  · cases htest
    cases v with
    | char d =>
        refine ⟨rfl, fun hholds => ?_⟩
        rw [eq_of_beq hholds]
        exact .char d
    | _ => exact rfl
  · split at htest
    · next hindex =>
        cases htest
        cases v with
        | constant own actual =>
            rw [LiteralTest.run, expectType]
            split
            · next htype =>
                rw [pure_bind]
                refine ⟨rfl, fun hholds => ?_⟩
                rw [eq_of_beq hholds] at hindex
                exact .constant hkind hindex htype
            · exact rfl
        | _ => exact rfl
    · cases htest
  · cases htest

theorem follows_literal {kind : TypeKind} {value : Literal} {test : LiteralTest}
    (hkind : r.kind? ty = some kind) (htest : r.literalTest value kind ty span = .ok test) :
    Follows host outer (.literal test) (Dialogue r (.literal span value) ty) := by
  intro v bindings s before
  rw [run]
  refine ends_bind.mpr ((ends_literal hkind htest v (s, before)).imp (fun holds s' h => ?_)
    fun _ s' heq => ?_)
  · obtain ⟨rfl, hdenotes⟩ := h
    split
    · next hholds => exact Says.matched (.literal (hdenotes hholds)) s before
    · exact Says.missed .refused s before
  · subst heq
    exact ⟨[], (List.append_nil _).symm, .refused⟩

theorem follows_binding {name : Name} {sub : Pattern γ} {node : Node γ}
    (h : Follows host outer node (Dialogue r sub ty)) :
    Follows host outer (.binding name node) (Dialogue r (.binding span name sub) ty) := by
  intro v bindings
  rw [run]
  refine (h v bindings).andThen (fun _ hmade => .binding hmade) fun _ made hmade => ?_
  exact .matched (by rw [List.append_nil]; exact .binding hmade)

theorem follows_null : Follows host outer .null (Dialogue r (.null span) ty) := by
  intro v bindings
  unfold run
  split
  · exact .matched .null
  · exact .missed .refused
  · exact .failed .refused

theorem follows_deref {pointee : TypeId} {sub : Pattern γ} {node : Node γ}
    (hkind : r.kind? ty = some (.pointer pointee))
    (h : Follows host outer node (Dialogue r sub pointee)) :
    Follows host outer (.deref node) (Dialogue r (.deref span sub) ty) := by
  intro v bindings
  unfold run
  split
  · exact (h _ bindings).imp fun _ _ hmade => .deref hkind hmade
  · exact .missed .refused
  · exact .failed .refused

theorem follows_union {d : UnionDef} {a : AlternativeDef} {selector : Name} {index : Nat}
    {typeName : String} {payload : Pattern γ} {node : Node γ}
    (hkind : r.kind? ty = some (.union d)) (hindex : d.alternativeIndex? selector = some index)
    (ha : d.alternatives[index]? = some a)
    (h : Follows host outer node (Dialogue r payload a.payload)) :
    Follows host outer (.unionAlternative ty typeName index node)
      (Dialogue r (.alternative span selector payload) ty) := by
  intro v bindings
  unfold run
  split
  · refine .expectType .refused fun hty => ?_
    split
    · next hactive =>
        subst hactive
        exact (h _ bindings).imp fun _ _ hmade => .union hkind hindex ha hty hmade
    · exact .missed .refused
  · exact .failed .refused

theorem follows_variant {a : VariantAlternativeDef} {selector : Name} {typeName : String}
    {payload : Pattern γ} {node : Node γ} (reports : r.Reports ty selector a)
    (h : Follows host outer node (Dialogue r payload a.payload)) :
    Follows host outer (.variantAlternative ty typeName a.discriminator node)
      (Dialogue r (.alternative span selector payload) ty) := by
  intro v bindings
  unfold run
  split
  · refine .expectType .refused fun hty => ?_
    subst hty
    refine .ask fun capable => ?_
    split
    · next hcapable =>
        subst hcapable
        refine .ask fun active => ?_
        split
        · next hactive =>
            subst hactive
            refine .ask fun answer => ?_
            split
            · exact (h _ bindings).imp fun _ _ hmade => .variant reports hmade
            · exact .failed (.withheld reports)
        · next hactive => exact .missed (.inactive reports hactive)
    · next hincapable =>
        rw [Bool.not_eq_true] at hincapable
        subst hincapable
        exact .failed (.incapable reports)
  · exact .failed .refused

theorem follows_guarded {sub : Pattern γ} {guard : γ} {node : Node γ}
    (h : Follows host outer node (Dialogue r sub ty)) :
    Follows host outer (.guarded node guard) (Dialogue r (.guarded span sub guard) ty) := by
  intro v bindings
  rw [run]
  refine (h v bindings).andThen (fun _ hmade => .unguarded hmade) fun _ made hmade => ?_
  exact .test (.granted hmade) fun _ hno => .denied hmade hno

/-! ### Products -/

/-- The slot takes the turn: it is at the turn's part, and its node keeps to the dialogue of the turn's
pattern. -/
structure Takes (host : Host γ σ) (outer : Lookup) (r : Registry) (slot : Nat × Node γ)
    (turn : Turn γ) : Prop where
  index : slot.1 = turn.index
  follows : Follows host outer slot.2 (Dialogue r turn.pattern turn.ty)

variable {p : Pattern γ} {slots : List (Nat × Node γ)} {turns : List (Turn γ)} {typeName : String}

theorem says_runFields (h : List.Forall₂ (Takes host outer r) slots turns) (vs : List Value)
    (bindings : Bindings) :
    Says (Rounds r (.values vs) turns) (runFields host.recorded outer slots vs bindings) := by
  induction h generalizing bindings with
  | nil =>
      rw [runFields]
      exact .matched .done
  | @cons slot turn slots turns htakes _ ih =>
      rw [runFields, htakes.index]
      split
      · next v hv =>
          refine (htakes.follows v bindings).andThen (fun _ hmade => .last (.value hv) hmade)
            fun bindings' _ hmade => ?_
          exact (ih bindings').imp fun _ _ hmore => .next (.value hv) hmade hmore
      · next hnone => exact .failed (.missing (.value hnone))

theorem says_runPieces (h : List.Forall₂ (Takes host outer r) slots turns) (object : ObjectId)
    (bindings : Bindings) :
    Says (Rounds r (.object object) turns)
      (runPieces host.recorded outer typeName object slots bindings) := by
  induction h generalizing bindings with
  | nil =>
      rw [runPieces]
      exact .matched .done
  | @cons slot turn slots turns htakes _ ih =>
      rw [runPieces, htakes.index]
      refine .ask fun answer => ?_
      split
      · next v =>
          refine (htakes.follows v bindings).andThen (fun _ hmade => .last .piece hmade)
            fun bindings' _ hmade => ?_
          exact (ih bindings').imp fun _ _ hmore => .next .piece hmade hmore
      · exact .failed (.missing .piece)

/-- Going through the values in step is going through slots at all positions. -/
theorem runItems_eq_runFields {items : List (Node γ)} {vs : List Value}
    (hlength : vs.length = items.length) (passed : List Value) (bindings : Bindings) :
    runItems host outer items vs bindings = runFields host outer
      ((items.zipIdx passed.length).map Prod.swap) (passed ++ vs) bindings := by
  induction items generalizing vs passed bindings with
  | nil =>
      simp only [runItems, List.zipIdx_nil, List.map_nil, runFields]
  | cons item items ih =>
      cases vs with
      | nil => cases hlength
      | cons v vs =>
          have hv : (passed ++ v :: vs)[passed.length]? = some v := by simp
          have hpassed : passed ++ v :: vs = (passed ++ [v]) ++ vs := by simp
          rw [runItems, List.zipIdx_cons, List.map_cons, Prod.swap_prod_mk, runFields, hv]
          refine bind_congr fun result => ?_
          cases result with
          | none => rfl
          | some bindings' =>
              have hrest := ih (Nat.succ.inj hlength) (passed ++ [v]) bindings'
              rw [List.length_append, List.length_singleton, ← hpassed] at hrest
              exact hrest

theorem follows_tuple {elements : List TypeId} {items : List (Node γ)}
    (hkind : r.kind? ty = some (.tuple elements)) (hlength : items.length = elements.length)
    (schedule : Schedule r ty p turns)
    (h : ∀ vs, vs.length = items.length → ∀ bindings,
      Says (Rounds r (.values vs) turns) (runItems host.recorded outer items vs bindings)) :
    Follows host outer (.tuple items) (Dialogue r p ty) := by
  intro v bindings
  unfold run
  split
  · next vs =>
      split
      · next harity =>
          exact (h vs harity bindings).imp fun _ _ hmade =>
            .tuple hkind (harity.trans hlength) schedule hmade
      · exact .failed .refused
  · exact .failed .refused

theorem follows_fields {d : AggregateDef} (hkind : r.kind? ty = some (.aggregate d))
    (schedule : Schedule r ty p turns) (h : List.Forall₂ (Takes host outer r) slots turns) :
    Follows host outer (.fields ty typeName slots) (Dialogue r p ty) := by
  intro v bindings
  unfold run
  split
  · next vs =>
      refine .expectType .refused fun hty => ?_
      exact (says_runFields h vs bindings).imp fun _ _ hmade =>
        .aggregate hkind hty schedule hmade
  · exact .failed .refused

theorem follows_pieces {d : ExtensionDef} {shape : AggregateShape}
    (hkind : r.kind? ty = some (.extension d)) (hshape : d.aggregate = some shape)
    (schedule : Schedule r ty p turns) (h : List.Forall₂ (Takes host outer r) slots turns) :
    Follows host outer (.pieces ty typeName slots) (Dialogue r p ty) := by
  intro v bindings
  unfold run
  split
  · next own object =>
      refine .expectType .refused fun hty => ?_
      subst hty
      refine .ask fun capable => ?_
      split
      · next hcapable =>
          subst hcapable
          exact (says_runPieces h object bindings).imp fun _ _ hmade =>
            .pieces hkind hshape schedule hmade
      · next hincapable =>
          rw [Bool.not_eq_true] at hincapable
          subst hincapable
          exact .failed (.closed hkind hshape schedule)
  · exact .failed .refused

/-- The node that tests every part of a product gives the parts their turns. -/
theorem follows_ofItems {kind : TypeKind} {layout : Layout} {nodes : List (Node γ)}
    (hkind : r.kind? ty = some kind) (hlayout : r.layout kind ty span = .ok layout)
    (hlength : nodes.length = layout.parts.length) (schedule : Schedule r ty p turns)
    (h : List.Forall₂ (Takes host outer r) (nodes.zipIdx.map Prod.swap) turns) :
    Follows host outer (layout.ofItems nodes) (Dialogue r p ty) := by
  rcases Registry.layout_eq_ok hlayout with
    ⟨elements, rfl, rfl⟩ | ⟨d, rfl, -, rfl⟩ | ⟨d, shape, rfl, hshape, rfl⟩
  · refine follows_tuple hkind (by simpa using hlength) schedule fun vs harity bindings => ?_
    rw [runItems_eq_runFields harity []]
    exact says_runFields h vs bindings
  · exact follows_fields hkind schedule h
  · exact follows_pieces hkind hshape schedule h

/-- The node that tests some parts of a product gives these parts their turns. A tuple has no labels,
so no part of it is one of them. -/
theorem follows_ofSlots {kind : TypeKind} {layout : Layout} (hkind : r.kind? ty = some kind)
    (hlayout : r.layout kind ty span = .ok layout)
    (labelled : ∀ slot ∈ slots, ∃ part ∈ layout.parts, part.label.isSome)
    (schedule : Schedule r ty p turns)
    (h : List.Forall₂ (Takes host outer r) (slots.mergeSort fun a b => a.1 ≤ b.1) turns) :
    Follows host outer (layout.ofSlots slots) (Dialogue r p ty) := by
  rcases Registry.layout_eq_ok hlayout with
    ⟨elements, rfl, rfl⟩ | ⟨d, rfl, -, rfl⟩ | ⟨d, shape, rfl, hshape, rfl⟩
  · obtain rfl : slots = [] := by
      refine List.eq_nil_iff_forall_not_mem.mpr fun slot hslot => ?_
      obtain ⟨part, hpart, hlabel⟩ := labelled slot hslot
      obtain ⟨element, -, rfl⟩ := List.mem_map.mp hpart
      cases hlabel
    rw [List.mergeSort_nil] at h
    cases h
    refine follows_tuple hkind (by simp) schedule fun vs _ bindings => ?_
    rw [runItems_wildcards]
    exact .matched .done
  · exact follows_fields hkind schedule h
  · exact follows_pieces hkind hshape schedule h

end Node

namespace Pattern

variable {r : Registry} {host : Host γ σ} {outer : Lookup} {ty : TypeId}

/-- The turns of a sequence pattern, in the order in which the parts stand. -/
def itemTurns (items : List (Pattern γ)) (parts : List PieceDef) : List (Turn γ) :=
  (items.zip parts).zipIdx.map fun x => ⟨x.2, x.1.1, x.1.2.ty⟩

theorem schedule_itemTurns (span : Span) {items : List (Pattern γ)} {parts : List PieceDef}
    (shown : r.Shows ty parts) (arity : items.length = parts.length) :
    Schedule r ty (.sequence span items) (itemTurns items parts) := by
  refine .sequence shown ⟨fun turn hturn => ?_, ?_⟩ ?_
  · obtain ⟨⟨⟨item, part⟩, index⟩, hmem, rfl⟩ := List.mem_map.mp hturn
    have hplace := List.getElem?_zip_eq_some.mp (List.mem_zipIdx_iff_getElem?.mp hmem)
    exact ⟨part, hplace.2, rfl⟩
  · exact List.pairwise_map.mpr (zipIdx_ascending (items.zip parts))
  · have hfirst := List.map_fst_zip (Nat.le_of_eq arity)
    have hall : (itemTurns items parts).map (·.pattern) =
        ((items.zip parts).zipIdx.map Prod.fst).map Prod.fst := by
      rw [itemTurns, List.map_map, List.map_map]
      rfl
    rw [hall, List.zipIdx_map_fst, hfirst]

/-- The nodes of the items take the turns. -/
theorem takes_itemTurns {items : List (Pattern γ)} {parts : List PieceDef}
    (arity : items.length = parts.length)
    (h : ∀ item part, (item, part) ∈ items.zip parts →
      (item.draft r part.ty).node.Follows host outer (Dialogue r item part.ty)) :
    List.Forall₂ (Node.Takes host outer r)
      ((List.zipWith (fun item ty => (item.draft r ty).node) items
        (parts.map (·.ty))).zipIdx.map Prod.swap) (itemTurns items parts) := by
  refine List.forall₂_iff_get.mpr ⟨by simp [itemTurns, arity], fun i hi hi' => ?_⟩
  have hplace : i < (items.zip parts).length := by simpa [itemTurns] using hi'
  have hmem : (items.zip parts)[i] ∈ items.zip parts := List.getElem_mem hplace
  rw [List.getElem_zip] at hmem
  simp only [itemTurns, List.get_eq_getElem, List.getElem_map, List.getElem_zipIdx,
    List.getElem_zipWith, List.getElem_zip, Nat.zero_add]
  exact ⟨rfl, h _ _ hmem⟩

/-- The turns of a field pattern whose entries have these places, in the order of the places. -/
def entryTurns (entries : List (FieldEntry (Pattern γ))) (place : Name → Nat × TypeId) :
    List (Turn γ) :=
  (entries.mergeSort fun e f => (place e.name).1 ≤ (place f.name).1).map fun e =>
    ⟨(place e.name).1, e.pattern, (place e.name).2⟩

/-- Sorted by their positions, slots are in the order of the sorted entries. -/
theorem mergeSort_slots_of_entries {α : Type} {entries : List (FieldEntry (Pattern γ))}
    (place : Name → Nat × TypeId) (f : FieldEntry (Pattern γ) → α) :
    ((entries.map fun e => ((place e.name).1, f e)).mergeSort fun a b => a.1 ≤ b.1) =
      (entries.mergeSort fun e f => (place e.name).1 ≤ (place f.name).1).map fun e =>
        ((place e.name).1, f e) := by
  have hsame : ∀ e ∈ entries, ∀ e' ∈ entries,
      decide ((place e.name).1 ≤ (place e'.name).1) =
        decide (((place e.name).1, f e).1 ≤ ((place e'.name).1, f e').1) :=
    fun _ _ _ _ => rfl
  exact (List.map_mergeSort hsame).symm

/-- Entries with different names have different places. -/
theorem entryTurns_ascending {entries : List (FieldEntry (Pattern γ))} {parts : List PieceDef}
    {place : Name → Nat × TypeId} (distinct : (entries.map (·.name)).Nodup)
    (hplace : ∀ e ∈ entries, ∃ part, parts[(place e.name).1]? = some part ∧
      part.label = some e.name) :
    (entryTurns entries place).Pairwise fun turn later => turn.index < later.index := by
  have hnodup : ((entries.map fun e => (e.name, e)).map (·.1)).Nodup := by
    rw [List.map_map]
    exact distinct
  have hkeys := nodup_positions (fun name => (place name).1) hnodup
    (List.forall_mem_map.mpr hplace)
  have hslots : (entries.map fun e => (e.name, e)).map (fun x => ((place x.1).1, x.2)) =
      entries.map fun e => ((place e.name).1, e) := List.map_map
  rw [hslots] at hkeys
  have hascending := ascending_mergeSort_slots hkeys
  rw [mergeSort_slots_of_entries place, List.pairwise_map] at hascending
  exact List.pairwise_map.mpr hascending

theorem schedule_entryTurns (span : Span) {entries : List (FieldEntry (Pattern γ))}
    {parts : List PieceDef} {place : Name → Nat × TypeId} (shown : r.Shows ty parts)
    (distinct : (entries.map (·.name)).Nodup)
    (hplace : ∀ e ∈ entries, ∃ part, parts.find? (·.label == some e.name) = some part ∧
      parts[(place e.name).1]? = some part ∧ (place e.name).2 = part.ty) :
    Schedule r ty (.fields span entries) (entryTurns entries place) := by
  have hlabels (e) (he : e ∈ entries) : ∃ part, parts[(place e.name).1]? = some part ∧
      part.label = some e.name := by
    obtain ⟨part, hfind, hat, -⟩ := hplace e he
    exact ⟨part, hat, by simpa using List.find?_some hfind⟩
  refine .fields shown ⟨fun turn hturn => ?_, entryTurns_ascending distinct hlabels⟩ ?_
  · obtain ⟨e, he, rfl⟩ := List.mem_map.mp hturn
    obtain ⟨part, -, hat, hty⟩ := hplace e (List.mem_mergeSort.mp he)
    exact ⟨part, hat, hty.symm⟩
  · rw [entryTurns, List.map_map]
    exact (List.mergeSort_perm entries _).map (·.pattern)

/-- The nodes of the entries take the turns. -/
theorem takes_entryTurns {entries : List (FieldEntry (Pattern γ))} {place : Name → Nat × TypeId}
    (h : ∀ e ∈ entries, (e.pattern.draft r (place e.name).2).node.Follows host outer
      (Dialogue r e.pattern (place e.name).2)) :
    List.Forall₂ (Node.Takes host outer r)
      ((entries.map fun e => ((place e.name).1,
        (e.pattern.draft r (place e.name).2).node)).mergeSort fun a b => a.1 ≤ b.1)
      (entryTurns entries place) := by
  rw [mergeSort_slots_of_entries place, entryTurns, List.forall₂_map_left_iff,
    List.forall₂_map_right_iff, List.forall₂_same]
  intro e he
  exact ⟨rfl, h e (List.mem_mergeSort.mp he)⟩

/-- A match of a legal pattern keeps to the dialogue of the pattern. -/
theorem Legal.follows {p : Pattern γ} (h : p.Legal r ty) :
    (p.draft r ty).node.Follows host outer (p.Dialogue r ty) := by
  induction h with
  | wildcard known =>
      obtain ⟨kind, hkind⟩ := Registry.knows_iff.mp known
      rw [draft_wildcard hkind]
      exact Node.follows_wildcard
  | literal admitted =>
      obtain ⟨kind, test, hkind, htest⟩ := literalTest_of_admits admitted
      rw [draft_literal hkind htest]
      exact Node.follows_literal hkind htest
  | binding inner ih =>
      obtain ⟨kind, hkind⟩ := inner.kind?
      rw [draft_binding hkind]
      exact Node.follows_binding ih
  | null hkind =>
      rw [draft_null hkind]
      exact Node.follows_null
  | deref hkind _ ih =>
      rw [draft_deref hkind]
      exact Node.follows_deref hkind ih
  | union hkind first _ ih =>
      obtain ⟨index, hindex, ha, htest⟩ := Registry.alternativeTest_union _ first
      rw [draft_alternative hkind htest]
      exact Node.follows_union hkind hindex ha ih
  | variant hkind declared first one _ ih =>
      rw [draft_alternative hkind (Registry.alternativeTest_variant _ declared first one)]
      exact Node.follows_variant ⟨hkind, declared, first⟩ ih
  | @sequence span items _ _ shown arity _ ih =>
      have hschedule := schedule_itemTurns span shown arity
      obtain ⟨kind, layout, hkind, hlayout, rfl⟩ := (Registry.shows_iff span).mp shown
      rw [draft_sequence hkind hlayout arity, draftItems_eq]
      exact Node.follows_ofItems hkind hlayout (by simp [arity]) hschedule (takes_itemTurns arity ih)
  | @fields span entries _ _ shown distinct resolved _ ih =>
      obtain ⟨kind, layout, slot, hkind, hlayout, rfl, hslot, hdraft⟩ :=
        draft_fields_of_shows span shown distinct resolved
      have hschedule := schedule_entryTurns span shown distinct hslot
      rw [hdraft]
      have hfollows (e) (he : e ∈ entries) : (e.pattern.draft r (slot e.name).2).node.Follows host
          outer (Dialogue r e.pattern (slot e.name).2) := by
        obtain ⟨part, hpart, -, hty⟩ := hslot e he
        rw [hty]
        exact ih e he part hpart
      refine Node.follows_ofSlots hkind hlayout (fun x hx => ?_) hschedule (takes_entryTurns hfollows)
      obtain ⟨e, he, rfl⟩ := List.mem_map.mp hx
      obtain ⟨part, hpart⟩ := resolved e he
      have hlabel : part.label = some e.name := by simpa using List.find?_some hpart
      exact ⟨part, List.mem_of_find?_eq_some hpart, by rw [hlabel]; rfl⟩
  | guarded inner ih =>
      obtain ⟨kind, hkind⟩ := inner.kind?
      rw [draft_guarded hkind]
      exact Node.follows_guarded ih

end Pattern

end TaggedMatch
