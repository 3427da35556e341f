import TaggedMatch.Proofs.Inspect.FirstMatch
import TaggedMatch.Proofs.Pattern.Soundness
import TaggedMatch.Proofs.Registry.Names
import TaggedMatch.Proofs.Value.Construct

/-!
# The active alternative

An alternative is referred to in three ways. Constructors and queries compare the texts of names, a
check compares names, a match compares positions. They agree where a name stands for one text and a
position for one name: the table of texts has no text twice, the names are in it, and a valid
registry has no alternative twice in a union. Then everything that can be said about a union value
by the names of the alternatives singles out the same one, and one arm for each of them leaves
nothing to fall through. It is the same with the constants of an enum.
-/

namespace TaggedMatch

variable {γ σ α β : Type} {r : Registry} {ty : TypeId}

/-! ## Positions, names and texts -/

section Places

variable {ι κ : Type} {l : List ι} {f : ι → κ} {i j : Nat} {a b : ι}

/-- Where no two members are alike, members that are alike have one place. -/
theorem place_eq_iff (hnodup : (l.map f).Nodup) (ha : l[i]? = some a) (hb : l[j]? = some b) :
    i = j ↔ f a = f b := by
  have hi : i < (l.map f).length := by
    rw [List.length_map]
    exact (List.getElem?_eq_some_iff.mp ha).1
  rw [← List.getElem?_inj hi hnodup, List.getElem?_map, List.getElem?_map, ha, hb]
  exact Option.some_inj

/-- Then the first that is like a member is the member. -/
theorem findIdx?_of_nodup [BEq κ] [LawfulBEq κ] (hnodup : (l.map f).Nodup) (ha : l[i]? = some a) :
    l.findIdx? (f · == f a) = some i := by
  obtain ⟨hi, rfl⟩ := List.getElem?_eq_some_iff.mp ha
  refine List.findIdx?_eq_some_iff_getElem.mpr ⟨hi, beq_self_eq_true _, fun j hj hlike => ?_⟩
  have hj' : l[j]? = some l[j] := List.getElem?_eq_getElem (Nat.lt_trans hj hi)
  exact Nat.ne_of_lt hj ((place_eq_iff hnodup hj' ha).mpr (eq_of_beq hlike))

end Places

/-- The names of the alternatives of a union or the constants of an enum. -/
def TypeKind.choices : TypeKind → List Name
  | .enumeration d => d.constants
  | .union d => d.alternatives.map (·.name)
  | .int | .bool | .char | .str | .unit | .declared | .aggregate _ | .extension _ | .tuple _
  | .pointer _ => []

namespace Registry

/-- Alternatives and constants have names of the registry's own table. -/
def NamesOwn (r : Registry) : Prop :=
  ∀ entry ∈ r.entries, ∀ n ∈ entry.kind.choices, n.index < r.interner.size

instance (r : Registry) : Decidable r.NamesOwn :=
  inferInstanceAs <| Decidable <|
    ∀ entry ∈ r.entries, ∀ n ∈ entry.kind.choices, n.index < r.interner.size

theorem NamesOwn.issued (h : r.NamesOwn) {kind : TypeKind} (hkind : r.kind? ty = some kind) :
    ∀ n ∈ kind.choices, n.index < r.interner.size := by
  obtain ⟨entry, hentry, rfl⟩ := Option.map_eq_some_iff.mp hkind
  exact h entry (Array.mem_of_getElem? hentry)

/-- A name of the table is the name of its text. -/
theorem intern_text (distinct : r.interner.Distinct) {n : Name} (hn : n.index < r.interner.size) :
    (r.intern (r.text n)).1 = n :=
  (distinct.intern_eq_iff hn).mpr rfl

/-- Different names of the table have different texts. -/
theorem nodup_texts (distinct : r.interner.Distinct) {names : List Name}
    (issued : ∀ n ∈ names, n.index < r.interner.size) (hnodup : names.Nodup) :
    (names.map r.text).Nodup :=
  hnodup.map_on fun n hn m hm heq => distinct.lookup_inj (issued n hn) (issued m hm) heq

end Registry

/-! ## One union value -/

section Union

variable {d : UnionDef} {a b : AlternativeDef} {i j : Nat} {v : Value}

theorem indexOfText?_of_nodup (htexts : (d.alternatives.map (r.text ·.name)).Nodup)
    (ha : d.alternatives[i]? = some a) : d.indexOfText? r (r.text a.name) = some i :=
  findIdx?_of_nodup htexts ha

theorem indexOfText?_eq_none {s : String} (h : ∀ a ∈ d.alternatives, r.text a.name ≠ s) :
    d.indexOfText? r s = none := by
  rw [UnionDef.indexOfText?, List.findIdx?_eq_none_iff]
  simpa using h

theorem payloadType_of_getElem? (ha : d.alternatives[i]? = some a) :
    d.payloadType i = a.payload := by
  simp [UnionDef.payloadType, UnionDef.alternative?, ha]

theorem alternativeName_of_getElem? (ha : d.alternatives[i]? = some a) :
    d.alternativeName i = a.name := by
  simp [UnionDef.alternativeName, UnionDef.alternative?, ha]

/-- The pattern for an alternative lets the pattern below it decide if the alternative is active. -/
theorem run_alternative (hkind : r.kind? ty = some (.union d)) (hty : d.ty = ty)
    (hnames : (d.alternatives.map (·.name)).Nodup) (hb : d.alternatives[j]? = some b)
    (span : Span) {sub : Pattern γ} (hlegal : sub.Legal r b.payload) (hnodup : sub.binders.Nodup) :
    ∃ c, (Pattern.alternative span b.name sub).check r ty = .ok c ∧
      ∀ {σ : Type} (host : Host γ σ) (outer : Lookup) (i : Nat) (v : Value),
        c.run host (.union d i v) outer =
          if j = i then (sub.draft r b.payload).node.run host outer v [] else pure none := by
  have hj : d.alternativeIndex? b.name = some j := findIdx?_of_nodup hnames hb
  have hfirst : d.alternatives.find? (·.name == b.name) = some b :=
    find?_eq_some_iff_findIdx?.mpr ⟨j, hj, hb⟩
  obtain ⟨index, hindex, -, htest⟩ := Registry.alternativeTest_union span hfirst
  cases hj.symm.trans hindex
  refine ⟨_, Pattern.check_eq_ok_iff_legal.mpr ⟨.union hkind hfirst hlegal, hnodup, rfl⟩, ?_⟩
  intro σ host outer i v
  rw [Compiled.run, Pattern.draft_alternative hkind htest, AlternativeTest.node, Node.run, hty,
    expectType_self, pure_bind]
  exact if_congr eq_comm rfl rfl

/-- What names say of the union value with the payload `v` where `a`, the alternative at `i`, is
active. -/
structure UnionAgrees (r : Registry) (ty : TypeId) (d : UnionDef) (i : Nat) (a : AlternativeDef)
    (v : Value) : Prop where
  constructed : UnionValue.construct r ty (r.text a.name) v = .ok ⟨d, i, v⟩
  active : UnionValue.activeName ⟨d, i, v⟩ = a.name
  queried : UnionValue.payloadAs r ⟨d, i, v⟩ (r.text a.name) = .ok v
  inactive : ∀ j b, d.alternatives[j]? = some b → j ≠ i →
    UnionValue.payloadAs r ⟨d, i, v⟩ (r.text b.name) =
      .error (.of (.wrongAlternative (r.text b.name) (r.text a.name)))
  unknown : ∀ s, (∀ b ∈ d.alternatives, r.text b.name ≠ s) →
    UnionValue.payloadAs r ⟨d, i, v⟩ s = .error (.of (.unknownAlternative (r.text d.name) s)) ∧
      ∀ payload, UnionValue.construct r ty s payload =
        .error (.of (.unknownAlternative (r.text d.name) s))
  tested : ∀ {γ : Type} (span inner : Span) (j : Nat) (b : AlternativeDef),
    d.alternatives[j]? = some b → ∃ c : Compiled γ,
      (Pattern.alternative span (r.intern (r.text b.name)).1 (.wildcard inner)).check r ty = .ok c ∧
        ∀ {σ : Type} (host : Host γ σ) (outer : Lookup),
          c.run host (.union d i v) outer = pure (if j = i then some [] else none)
  bound : ∀ {γ : Type} (span inner : Span) (name : Name), ∃ c : Compiled γ,
    (Pattern.alternative span (r.intern (r.text a.name)).1 (.bind inner name)).check r ty = .ok c ∧
      ∀ {σ : Type} (host : Host γ σ) (outer : Lookup),
        c.run host (.union d i v) outer = pure (some [(name, v)])

/-- What the names of the alternatives of a union are relied on for. -/
structure Registry.UnionNames (r : Registry) (ty : TypeId) (d : UnionDef) : Prop where
  kind : r.kind? ty = some (.union d)
  own : d.ty = ty
  known : ∀ a ∈ d.alternatives, r.knows a.payload = true
  issued : ∀ a ∈ d.alternatives, (r.intern (r.text a.name)).1 = a.name
  names : (d.alternatives.map (·.name)).Nodup
  texts : (d.alternatives.map (r.text ·.name)).Nodup

theorem Registry.Reachable.unionNames (reachable : r.Reachable) (valid : r.isValid = true)
    (own : r.NamesOwn) (hd : r.union? ty = some d) : r.UnionNames ty d := by
  have hkind := Registry.union?_eq_some_iff.mp hd
  have hnames := Registry.nodup_alternatives valid hkind
  have htexts := Registry.nodup_texts reachable.distinct (own.issued hkind) hnames
  rw [TypeKind.choices, List.map_map] at htexts
  exact {
    kind := hkind
    own := reachable.consistent.ty_of_kind? hkind rfl
    known := (Registry.approves_of_isValid valid hkind).2.2.1
    issued := fun a ha => Registry.intern_text reachable.distinct
      (own.issued hkind a.name (List.mem_map_of_mem ha))
    names := hnames
    texts := htexts }

/-- The pattern that selects an alternative by the name of its text, whatever the payload. -/
theorem Registry.UnionNames.run_wildcard (h : r.UnionNames ty d) (hb : d.alternatives[j]? = some b)
    (span inner : Span) : ∃ c : Compiled γ,
      (Pattern.alternative span (r.intern (r.text b.name)).1 (.wildcard inner)).check r ty = .ok c ∧
        ∀ {σ : Type} (host : Host γ σ) (outer : Lookup) (i : Nat) (v : Value),
          c.run host (.union d i v) outer = pure (if j = i then some [] else none) := by
  have hmem := List.mem_of_getElem? hb
  obtain ⟨kind, hkind⟩ := Registry.knows_iff.mp (h.known b hmem)
  have hlegal : (Pattern.wildcard inner : Pattern γ).Legal r b.payload :=
    .wildcard (h.known b hmem)
  obtain ⟨c, hcheck, hrun⟩ := run_alternative h.kind h.own h.names hb span hlegal List.nodup_nil
  refine ⟨c, by rw [h.issued b hmem, hcheck], fun host outer i v => ?_⟩
  rw [hrun, Pattern.draft_wildcard hkind, Node.run]
  split
  · rfl
  · rfl

theorem Registry.UnionNames.agrees (h : r.UnionNames ty d) (ha : d.alternatives[i]? = some a)
    (hfits : v.conforms r a.payload = true) : UnionAgrees r ty d i a v := by
  have hd : r.unionDef ty = .ok d := unionDef_eq_ok.mpr (Registry.union?_eq_some_iff.mpr h.kind)
  have hindex := indexOfText?_of_nodup h.texts ha
  constructor
  case constructed =>
    rw [UnionValue.construct, hd]
    simp only [bind, Except.bind, UnionDef.constructor, hindex, UnionDef.Constructor.build,
      UnionDef.Constructor.payloadType, payloadType_of_getElem? ha, hfits, if_true]
  case active => exact alternativeName_of_getElem? ha
  case queried =>
    simp only [UnionValue.payloadAs, hindex, beq_self_eq_true, if_true]
  case inactive =>
    intro j b hb hne
    simp only [UnionValue.payloadAs, indexOfText?_of_nodup h.texts hb, UnionValue.activeName,
      alternativeName_of_getElem? ha, beq_iff_eq, hne, if_false]
  case unknown =>
    intro s hs
    have hnone := indexOfText?_eq_none hs
    refine ⟨by simp only [UnionValue.payloadAs, hnone], fun payload => ?_⟩
    rw [UnionValue.construct, hd]
    simp only [bind, Except.bind, UnionDef.constructor, hnone]
  case tested =>
    intro γ span inner j b hb
    obtain ⟨c, hcheck, hrun⟩ := h.run_wildcard (γ := γ) hb span inner
    exact ⟨c, hcheck, fun host outer => hrun host outer i v⟩
  case bound =>
    intro γ span inner name
    have hmem := List.mem_of_getElem? ha
    obtain ⟨kind, hkind⟩ := Registry.knows_iff.mp (h.known a hmem)
    have hlegal : (Pattern.bind inner name : Pattern γ).Legal r a.payload :=
      .binding (.wildcard (h.known a hmem))
    obtain ⟨c, hcheck, hrun⟩ := run_alternative h.kind h.own h.names ha span hlegal
      (List.nodup_singleton name)
    refine ⟨c, by rw [h.issued a hmem, hcheck], fun host outer => ?_⟩
    rw [hrun, if_pos rfl, Pattern.bind, Pattern.draft_binding hkind,
      Pattern.draft_wildcard hkind, Node.run, Node.run]
    rfl

end Union

/-! ## One arm for each alternative -/

/-- The state when it is the turn of arm `k`, if trying the arms before it did nothing. -/
def InspectHost.scanned (host : InspectHost γ σ α β) : Nat → σ → σ
  | 0, s => host.shown none (.scanning 0) s
  | k + 1, s => host.shown (some (.scanning k)) (.scanning (k + 1)) (host.scanned k s)

theorem InspectHost.passes_of_silent {host : InspectHost γ σ α β} {outer : Lookup}
    {subject : Value} {arms : List (Arm γ α)} {s : σ}
    (silent : ∀ arm ∈ arms, arm.pattern.run host.toHost subject outer = pure none) (i : Nat) :
    host.Passes outer subject i arms (host.scanned i s) (host.scanned (i + arms.length) s) := by
  induction arms generalizing i with
  | nil => exact .nil
  | cons arm rest ih =>
      rw [List.forall_mem_cons] at silent
      have hrest := ih silent.2 (i + 1)
      rw [Nat.add_right_comm] at hrest
      have hmissed : (arm.pattern.run host.toHost subject outer).run (host.scanned i s) =
          (.ok none, host.scanned i s) := by
        rw [silent.1]
        rfl
      exact .cons hmissed hrest

namespace Inspect

theorem FirstAt.of_silent {host : InspectHost γ σ α β} {inspect : Inspect γ α}
    {subjects : List Value} {env : Environment} {k : Nat} {arm : Arm γ α} {bindings : Bindings}
    (harm : inspect.arms[k]? = some arm)
    (silent : ∀ other ∈ inspect.arms.take k,
      other.pattern.run host.toHost (Value.joint subjects) env.lookup = pure none)
    (matched : arm.pattern.run host.toHost (Value.joint subjects) env.lookup =
      pure (some bindings)) (s : σ) :
    inspect.FirstAt host subjects env s k arm (.ok (some bindings)) (host.scanned k s) := by
  obtain ⟨hk, rfl⟩ := List.getElem?_eq_some_iff.mp harm
  have hlength : (inspect.arms.take k).length = k := List.length_take_of_le (Nat.le_of_lt hk)
  have hpasses := InspectHost.passes_of_silent (s := s) silent 0
  rw [hlength, Nat.zero_add] at hpasses
  refine ⟨inspect.arms.take k, inspect.arms.drop (k + 1), host.scanned k s, ?_, hlength,
    hpasses, ?_, nofun⟩
  · rw [← List.drop_eq_getElem_cons hk, List.take_append_drop]
  · rw [matched]
    rfl

/-- A call on these subjects goes to arm `k` without anything done on the way, and its action runs
in a scope without bindings. -/
structure Chooses (inspect : Inspect γ α) (subjects : List Value) (k : Nat) (action : α) :
    Prop where
  evaluate : ∀ {σ β : Type} (host : InspectHost γ σ α β) (env : Environment) (s : σ),
    (inspect.evaluate host subjects).run (env, s) =
      host.finished k (fun value => value) ((host.act action).run
        (env.push, host.shown (some (.scanning k)) (.matched k) (host.scanned k s)))
  execute : ∀ {σ : Type} (host : InspectHost γ σ α Unit) (env : Environment) (s : σ),
    (inspect.execute host subjects).run (env, s) =
      host.finished k (fun _ => .matched k) ((host.act action).run
        (env.push, host.shown (some (.scanning k)) (.matched k) (host.scanned k s)))

theorem Chooses.of_silent {b : Builder γ α} {inspect : Inspect γ α}
    (built : (b.build r).1 = .ok inspect) {subjects : List Value}
    (hcount : subjects.length = inspect.subjectCount) {k : Nat} {arm : Arm γ α}
    (harm : inspect.arms[k]? = some arm)
    (silent : ∀ other ∈ inspect.arms.take k, ∀ {σ : Type} (host : Host γ σ) (outer : Lookup),
      other.pattern.run host (Value.joint subjects) outer = pure none)
    (matched : ∀ {σ : Type} (host : Host γ σ) (outer : Lookup),
      arm.pattern.run host (Value.joint subjects) outer = pure (some [])) :
    inspect.Chooses subjects k arm.action where
  evaluate host env s :=
    ((firstMatch_run built host .expression).of_call valueOf (run_evaluate host)
      fun _ _ => rfl).found subjects env s k arm [] _ hcount
        (FirstAt.of_silent harm (fun other hother => silent other hother host.toHost _)
          (matched host.toHost _) s)
  execute host env s :=
    ((firstMatch_run built host .statement).of_call outcomeOf (run_execute host)
      fun _ _ => rfl).found subjects env s k arm [] _ hcount
        (FirstAt.of_silent harm (fun other hother => silent other hother host.toHost _)
          (matched host.toHost _) s)

end Inspect

/-- An arm for one alternative, whatever its payload. -/
structure AlternativeArm (α : Type) where
  alternative : AlternativeDef
  span : Span
  inner : Span
  action : α

/-- The arm as it is written, by the name of its alternative. -/
def AlternativeArm.written (r : Registry) (arm : AlternativeArm α) : Pattern γ × α :=
  (.alternative arm.span (r.intern (r.text arm.alternative.name)).1 (.wildcard arm.inner),
    arm.action)

/-- The arm `compiled` is for the alternative of `arm`, which it matches just if that is active. -/
def AlternativeArm.Tests (d : UnionDef) (arm : AlternativeArm α) (compiled : Arm γ α) : Prop :=
  compiled.action = arm.action ∧ ∃ j, d.alternatives[j]? = some arm.alternative ∧
    ∀ {σ : Type} (host : Host γ σ) (outer : Lookup) (i : Nat) (v : Value),
      compiled.pattern.run host (.union d i v) outer = pure (if j = i then some [] else none)

section Covering

variable {d : UnionDef} {arms : List (AlternativeArm α)}

theorem Registry.UnionNames.tests (h : r.UnionNames ty d) {arm : AlternativeArm α}
    (harm : arm.alternative ∈ d.alternatives) :
    ∃ c : Compiled γ, (arm.written r).1.check r ty = .ok c ∧ arm.Tests d ⟨c, arm.action⟩ := by
  obtain ⟨j, hj⟩ := List.mem_iff_getElem?.mp harm
  obtain ⟨c, hcheck, hrun⟩ := h.run_wildcard hj arm.span arm.inner
  exact ⟨c, hcheck, rfl, j, hj, hrun⟩

theorem Registry.UnionNames.exists_tested (h : r.UnionNames ty d)
    (declared : ∀ arm ∈ arms, arm.alternative ∈ d.alternatives) :
    ∃ inspect : Inspect γ α,
      (((Inspect.Builder.ofSubjects [ty]).withArms (arms.map (·.written r))).build r).1 =
          .ok inspect ∧
        inspect.subjectCount = 1 ∧ List.Forall₂ (AlternativeArm.Tests d) arms inspect.arms := by
  rw [Inspect.Builder.withArms_eq]
  have hall : ∀ pair ∈ arms.map (·.written (γ := γ) r), ∃ c, pair.1.check r ty = .ok c :=
    List.forall_mem_map.mpr fun arm harm => (h.tests (declared arm harm)).imp fun _ hc => hc.1
  obtain ⟨inspect, built⟩ := (Inspect.Builder.exists_build_iff (r := r)
    (b := ⟨[ty], arms.map (·.written r), []⟩) rfl).mpr ⟨rfl, hall⟩
  obtain ⟨-, -, hcount, haccepts⟩ := (Inspect.Builder.build_eq_ok_iff rfl).mp built
  rw [List.forall₂_map_left_iff] at haccepts
  refine ⟨inspect, built, hcount, ?_⟩
  refine ((List.forall₂_and_left arms inspect.arms).mpr ⟨declared, haccepts⟩).imp ?_
  rintro arm ⟨c, action⟩ ⟨harm, hcheck, rfl⟩
  obtain ⟨c', hcheck', htests⟩ := h.tests (γ := γ) harm
  cases hcheck.symm.trans hcheck'
  exact htests

/-- The first arm for the active alternative is chosen. -/
theorem chooses_of_tests (hnames : (d.alternatives.map (·.name)).Nodup)
    {b : Inspect.Builder γ α} {inspect : Inspect γ α} (built : (b.build r).1 = .ok inspect)
    (hcount : inspect.subjectCount = 1)
    (htests : List.Forall₂ (AlternativeArm.Tests d) arms inspect.arms) {i : Nat}
    {a : AlternativeDef} (ha : d.alternatives[i]? = some a)
    (hmem : a ∈ arms.map (·.alternative)) (v : Value) :
    ∃ k arm, arms[k]? = some arm ∧ arm.alternative = a ∧
      inspect.Chooses [.union d i v] k arm.action := by
  have htest (m) (hm : m < arms.length) (hm' : m < inspect.arms.length) :
      arms[m].Tests d inspect.arms[m] := htests.get hm hm'
  obtain ⟨arm, harm, rfl⟩ := List.mem_map.mp hmem
  obtain ⟨first, -, hsame, hfind⟩ :=
    exists_find?_eq_some (·.alternative == arm.alternative) harm (beq_self_eq_true _)
  obtain ⟨k, hindex, hat⟩ := find?_eq_some_iff_findIdx?.mp hfind
  obtain ⟨hk, -, hbefore⟩ := List.findIdx?_eq_some_iff_getElem.mp hindex
  have hk' : k < inspect.arms.length := htests.length_eq ▸ hk
  rw [List.getElem?_eq_getElem hk] at hat
  cases hat
  obtain ⟨haction, j, hj, hrun⟩ := htest k hk hk'
  -- An alternative has one place, so the arm tests for the active one.
  have hji : j = i := (place_eq_iff hnames hj ha).mpr (congrArg _ (eq_of_beq hsame))
  refine ⟨k, arms[k], List.getElem?_eq_getElem hk, eq_of_beq hsame, ?_⟩
  rw [← haction]
  refine Inspect.Chooses.of_silent built (by rw [hcount]; rfl) (List.getElem?_eq_getElem hk')
    (fun other hother => ?_) fun host outer => ?_
  · obtain ⟨m, hm, rfl⟩ := List.mem_take_iff_getElem.mp hother
    have hmk : m < k := Nat.lt_of_lt_of_le hm (Nat.min_le_left _ _)
    obtain ⟨-, j', hj', hrun'⟩ := htest m (Nat.lt_trans hmk hk) (Nat.lt_trans hmk hk')
    have hne : j' ≠ i := by
      rintro rfl
      rw [ha] at hj'
      exact hbefore m hmk (beq_iff_eq.mpr (Option.some.inj hj').symm)
    intro σ host outer
    rw [Value.joint, hrun', if_neg hne]
  · rw [Value.joint, hrun, if_pos hji]

end Covering

/-! ## Constants -/

/-- What names say of the constant at `k` of an enum, which is `x`. -/
structure ConstantAgrees (r : Registry) (ty : TypeId) (e : EnumDef) (k : Nat) (x : Name) :
    Prop where
  constructed : Value.ofConstant r ty (r.text x) = .ok (.constant e k)
  tested : ∀ {γ : Type} (span : Span), ∀ y ∈ e.constants, ∃ c : Compiled γ,
    (Pattern.literal span (.constant (r.intern (r.text y)).1)).check r ty = .ok c ∧
      ∀ {σ : Type} (host : Host γ σ) (outer : Lookup),
        c.run host (.constant e k) outer = pure (if r.text x = r.text y then some [] else none)

theorem Registry.Reachable.constantAgrees (reachable : r.Reachable) (valid : r.isValid = true)
    (own : r.NamesOwn) {e : EnumDef} (he : r.enum? ty = some e) {k : Nat} {x : Name}
    (hx : e.constants[k]? = some x) : ConstantAgrees r ty e k x := by
  have hkind := Registry.enum?_eq_some_iff.mp he
  have hty : e.ty = ty := reachable.consistent.ty_of_kind? hkind rfl
  have hnodup := Registry.nodup_constants valid hkind
  have hissued := own.issued hkind
  have htexts := Registry.nodup_texts reachable.distinct hissued hnodup
  constructor
  case constructed =>
    have hindex : e.constants.findIdx? (r.text · == r.text x) = some k :=
      findIdx?_of_nodup htexts hx
    simp only [Value.ofConstant, he, hindex]
  case tested =>
    intro γ span y hy
    obtain ⟨l, hl⟩ := List.mem_iff_getElem?.mp hy
    have hindex : e.constantIndex? y = some l := findIdx?_of_nodup (f := id) (by simpa) hl
    have htest : r.literalTest (.constant y) (.enumeration e) ty span =
        .ok (.constant ty (r.text e.name) l) := by
      simp only [Registry.literalTest, hindex]
    rw [Registry.intern_text reachable.distinct (hissued y hy)]
    refine ⟨_, Pattern.check_eq_ok_iff_legal.mpr
      ⟨.literal (.constant hkind hy), List.nodup_nil, rfl⟩, fun host outer => ?_⟩
    have hsame : (l == k) = decide (r.text x = r.text y) := by
      rw [beq_eq_decide, decide_eq_decide, place_eq_iff htexts hl hx, eq_comm]
    rw [Compiled.run, Pattern.draft_literal hkind htest, Node.run, LiteralTest.run, hty,
      expectType_self, pure_bind, hsame]
    by_cases heq : r.text x = r.text y
    · simp [heq]
    · simp [heq]

/-! ## Agreement -/

/-- Building values, asking them and matching them agree on what a name stands for. -/
structure AlternativesAgree (r : Registry) : Prop where
  union : ∀ ty d i a v, r.union? ty = some d → d.alternatives[i]? = some a →
    v.conforms r a.payload = true → UnionAgrees r ty d i a v
  covered : ∀ ty d, r.union? ty = some d → ∀ {γ α : Type} (arms : List (AlternativeArm α)),
    (arms.map (·.alternative)).Perm d.alternatives → ∃ inspect : Inspect γ α,
      (((Inspect.Builder.ofSubjects [ty]).withArms (arms.map (·.written r))).build r).1 =
        .ok inspect ∧
      ∀ i a v, d.alternatives[i]? = some a → ∃ k arm, arms[k]? = some arm ∧ arm.alternative = a ∧
        inspect.Chooses [.union d i v] k arm.action
  constant : ∀ ty e k x, r.enum? ty = some e → e.constants[k]? = some x →
    ConstantAgrees r ty e k x

theorem alternativesAgree (reachable : r.Reachable) (valid : r.isValid = true)
    (own : r.NamesOwn) : AlternativesAgree r where
  union _ _ _ _ _ hd ha hfits := (reachable.unionNames valid own hd).agrees ha hfits
  covered ty d hd γ α arms hperm := by
    have h := reachable.unionNames valid own hd
    obtain ⟨inspect, built, hcount, htests⟩ := h.exists_tested (γ := γ) fun arm harm =>
      hperm.mem_iff.mp (List.mem_map_of_mem harm)
    exact ⟨inspect, built, fun i a v ha => chooses_of_tests h.names built hcount htests ha
      (hperm.mem_iff.mpr (List.mem_of_getElem? ha)) v⟩
  constant _ _ _ _ he hx := reachable.constantAgrees valid own he hx

/-- A registry of results, each a number or a text, and of lamps. -/
def resultRegistry : Registry :=
  Registry.fresh.run [.union "Result" [("ok", TypeId.int), ("err", TypeId.str)] .propagate,
    .enumeration "Lamp" ["red", "green"]]

def resultDef : UnionDef where
  name := ⟨1⟩
  ty := ⟨5⟩
  alternatives := [⟨⟨2⟩, TypeId.int, Span.dummy⟩, ⟨⟨3⟩, TypeId.str, Span.dummy⟩]
  policy := .propagate

def lampDef : EnumDef where
  name := ⟨4⟩
  ty := ⟨6⟩
  constants := [⟨5⟩, ⟨6⟩]

/-- An arm for each alternative, the last alternative first. -/
def resultArms : List (AlternativeArm Nat) :=
  [⟨⟨⟨3⟩, TypeId.str, Span.dummy⟩, Span.dummy, Span.dummy, 10⟩,
    ⟨⟨⟨2⟩, TypeId.int, Span.dummy⟩, Span.dummy, Span.dummy, 20⟩]

theorem alternativesAgree_result :
    resultRegistry.Reachable ∧ resultRegistry.isValid = true ∧ resultRegistry.NamesOwn ∧
      UnionAgrees resultRegistry ⟨5⟩ resultDef 1 ⟨⟨3⟩, TypeId.str, Span.dummy⟩ (.str "empty") ∧
      (∃ inspect : Inspect Unit Nat, ∃ k arm, resultArms[k]? = some arm ∧
        arm.alternative = ⟨⟨3⟩, TypeId.str, Span.dummy⟩ ∧
        inspect.Chooses [.union resultDef 1 (.str "empty")] k arm.action) ∧
      ConstantAgrees resultRegistry ⟨6⟩ lampDef 0 ⟨5⟩ := by
  have reachable : resultRegistry.Reachable := ⟨_, rfl⟩
  have valid : resultRegistry.isValid = true := by decide +kernel
  have own : resultRegistry.NamesOwn := by decide +kernel
  have hd : resultRegistry.union? ⟨5⟩ = some resultDef := by decide +kernel
  have he : resultRegistry.enum? ⟨6⟩ = some lampDef := by decide +kernel
  have hagree := alternativesAgree reachable valid own
  obtain ⟨inspect, -, hchooses⟩ :=
    hagree.covered ⟨5⟩ resultDef hd (γ := Unit) resultArms (by decide +kernel)
  exact ⟨reachable, valid, own, hagree.union _ _ _ _ _ hd rfl (by with_unfolding_all rfl),
    ⟨inspect, hchooses 1 _ (.str "empty") rfl⟩, hagree.constant _ _ _ _ he rfl⟩

end TaggedMatch
