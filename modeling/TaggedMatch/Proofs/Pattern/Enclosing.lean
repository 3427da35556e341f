import TaggedMatch.Pattern.Match

/-!
# Bindings of before are a scope outside

What a match has bound when it comes to a part of it, the part cannot tell from what was bound outside
the match. It looks names up in one scope, in which the bindings stand over the enclosing scope, and it
puts its own at the end of them. So a part can be run on its own, in a scope enclosed by those bindings,
and they can be put in front of what it binds afterwards. The two runs are the same computation: they
make the same calls, with the same scopes, and leave the same state.
-/

namespace TaggedMatch

variable {γ σ α : Type} {host : Host γ σ} {outer : Lookup} {before bindings : Bindings}

/-- Bindings over bindings over a scope. -/
theorem Bindings.scope_append (before bindings : Bindings) (outer : Lookup) :
    Bindings.scope (before ++ bindings) outer = bindings.scope (before.scope outer) := by
  funext name
  simp only [Bindings.scope, List.reverse_append, List.lookup_append, Option.or_assoc]

/-- The first computation does what the second does, and the bindings it ends with have `before` in
front. -/
def Prefixed (before : Bindings) (m' m : HostM σ (Option Bindings)) : Prop :=
  m' = Option.map (before ++ ·) <$> m

namespace Prefixed

variable {m' m : HostM σ (Option Bindings)}

theorem matched : Prefixed before (pure (some (before ++ bindings)) : HostM σ _)
    (pure (some bindings)) := by
  rw [Prefixed, map_pure]
  rfl

theorem missed : Prefixed before (pure none : HostM σ _) (pure none) := by
  rw [Prefixed, map_pure]
  rfl

theorem failed (e : EvalError) : Prefixed before (throw e : HostM σ _) (throw e) := rfl

theorem bind {m : HostM σ α} {f' f : α → HostM σ (Option Bindings)}
    (hf : ∀ a, Prefixed before (f' a) (f a)) : Prefixed before (m >>= f') (m >>= f) := by
  rw [Prefixed, map_bind]
  exact bind_congr hf

/-- A part that matched hands its bindings on, with those of before in front. -/
theorem andThen {f' f : Bindings → HostM σ (Option Bindings)} (hm : Prefixed before m' m)
    (hf : ∀ found, Prefixed before (f' (before ++ found)) (f found)) :
    Prefixed before (do
      match ← m' with
      | some bindings => f' bindings
      | none => pure none) (do
      match ← m with
      | some bindings => f bindings
      | none => pure none) := by
  rw [Prefixed, hm, map_bind, bind_map_left]
  refine bind_congr fun result => ?_
  cases result with
  | none => exact missed
  | some found => exact hf found

end Prefixed

namespace Node

mutual

theorem run_enclosed (node : Node γ) (v : Value) (before bindings : Bindings) :
    Prefixed before (node.run host outer v (before ++ bindings))
      (node.run host (before.scope outer) v bindings) := by
  match node with
  | .wildcard =>
      simp only [run]
      exact .matched
  | .literal test =>
      simp only [run]
      refine .bind fun fits => ?_
      split
      · exact .matched
      · exact .missed
  | .binding name sub =>
      simp only [run]
      refine (run_enclosed sub v before bindings).andThen fun found => ?_
      rw [List.append_assoc]
      exact .matched
  | .null =>
      unfold run
      split
      · exact .matched
      · exact .missed
      · exact .failed _
  | .deref sub =>
      unfold run
      split
      · exact run_enclosed sub _ before bindings
      · exact .missed
      · exact .failed _
  | .unionAlternative ty typeName discriminator sub =>
      unfold run
      split
      · refine .bind fun _ => ?_
        split
        · exact run_enclosed sub _ before bindings
        · exact .missed
      · exact .failed _
  | .variantAlternative ty typeName discriminator sub =>
      unfold run
      split
      · refine .bind fun _ => .bind fun gives => ?_
        split
        · refine .bind fun active => ?_
          split
          · refine .bind fun payload => ?_
            split
            · exact run_enclosed sub _ before bindings
            · exact .failed _
          · exact .missed
        · exact .failed _
      · exact .failed _
  | .tuple items =>
      unfold run
      split
      · split
        · exact runItems_enclosed items _ before bindings
        · exact .failed _
      · exact .failed _
  | .fields ty typeName slots =>
      unfold run
      split
      · exact .bind fun _ => runFields_enclosed slots _ before bindings
      · exact .failed _
  | .pieces ty typeName slots =>
      unfold run
      split
      · refine .bind fun _ => .bind fun gives => ?_
        split
        · exact runPieces_enclosed slots typeName _ before bindings
        · exact .failed _
      · exact .failed _
  | .guarded sub guard =>
      simp only [run]
      refine (run_enclosed sub v before bindings).andThen fun found => ?_
      rw [Bindings.scope_append]
      refine .bind fun holds => ?_
      split
      · exact .matched
      · exact .missed

theorem runItems_enclosed (items : List (Node γ)) (vs : List Value) (before bindings : Bindings) :
    Prefixed before (runItems host outer items vs (before ++ bindings))
      (runItems host (before.scope outer) items vs bindings) := by
  match items, vs with
  | item :: items, v :: vs =>
      simp only [runItems]
      exact (run_enclosed item v before bindings).andThen fun found =>
        runItems_enclosed items vs before found
  | [], _ | _ :: _, [] =>
      simp only [runItems]
      exact .matched

theorem runFields_enclosed (slots : List (Nat × Node γ)) (vs : List Value)
    (before bindings : Bindings) :
    Prefixed before (runFields host outer slots vs (before ++ bindings))
      (runFields host (before.scope outer) slots vs bindings) := by
  match slots with
  | [] =>
      simp only [runFields]
      exact .matched
  | (index, node) :: slots =>
      unfold runFields
      split
      · exact (run_enclosed node _ before bindings).andThen fun found =>
          runFields_enclosed slots vs before found
      · exact .failed _

theorem runPieces_enclosed (slots : List (Nat × Node γ)) (typeName : String) (object : ObjectId)
    (before bindings : Bindings) :
    Prefixed before (runPieces host outer typeName object slots (before ++ bindings))
      (runPieces host (before.scope outer) typeName object slots bindings) := by
  match slots with
  | [] =>
      simp only [runPieces]
      exact .matched
  | (index, node) :: slots =>
      unfold runPieces
      refine .bind fun piece => ?_
      split
      · exact (run_enclosed node _ before bindings).andThen fun found =>
          runPieces_enclosed slots typeName object before found
      · exact .failed _

end

end Node

end TaggedMatch
