import TaggedMatch.Proofs.Pattern.Soundness

/-!
# Bindings are well typed

What a match binds can be read without asking what it is. Each identifier of a checked pattern is
bound at one type, and the value that a match gives it belongs to that type: on the way down to the
identifier the match and the type go the same way, and what is met there is what soundness relies on.
-/

namespace TaggedMatch

variable {γ σ : Type} {r : Registry} {host : Host γ σ} {outer : Lookup}

/-- A value that a match of a checked pattern binds belongs to the one type that its identifier is
bound at. -/
theorem Compiled.conforms_of_bound {p : Pattern γ} {ty : TypeId} {c : Compiled γ} {v w : Value}
    {s s' : σ} {bindings : Bindings} {name : Name} (checked : p.check r ty = .ok c)
    (built : v.Built r) (conforms : v.conforms r ty = true) (faithful : host.Faithful r v)
    (matched : (c.run host v outer).run s = (.ok (some bindings), s'))
    (bound : (name, w) ∈ bindings) :
    ∃ t, (∀ t', p.BindsAt r ty name t' ↔ t' = t) ∧ w.conforms r t = true := by
  obtain ⟨hlegal, hroot⟩ := Pattern.check_eq_ok checked
  have hnodup : p.binders.Nodup := ((p.check_succeeds_iff r ty).mp ⟨c, checked⟩).2
  let Q : Name → Value → Prop := fun name w =>
    ∃ t, p.BindsAt r ty name t ∧ w.conforms r t = true
  have hsound : c.root.SoundAt host outer r Q (fun _ _ => True) ty := by
    rw [hroot]
    exact hlegal.soundAt built.consistent (fun name t ht w hw => ⟨t, ht, hw.conforms⟩)
      fun guard _ scope => ends_somehow (host.test guard scope)
  have hends := hsound v [] ⟨built.wellFormed, conforms, faithful⟩ s
  rw [Compiled.run] at matched
  rw [Ends, matched] at hends
  obtain ⟨more, rfl, hmore⟩ := hends bindings rfl
  obtain ⟨t, ht, hconforms⟩ := hmore (name, w) bound
  refine ⟨t, fun t' => ⟨fun ht' => ht'.unique hnodup ht, ?_⟩, hconforms⟩
  rintro rfl
  exact ht

/-- Binds the number in a box. -/
def openPattern : Pattern Unit := .sequence Span.dummy [.bind Span.dummy ⟨9⟩]

def openCompiled : Compiled Unit :=
  ⟨.pieces ⟨5⟩ "Box" [(0, .binding ⟨9⟩ .wildcard)], ⟨5⟩, [⟨9⟩], Span.dummy⟩

theorem conforms_in_box :
    (openCompiled.run boxHost box Lookup.empty).run () = (.ok (some [(⟨9⟩, .int 7)]), ()) ∧
      ∃ t, (∀ t', openPattern.BindsAt boxRegistry ⟨5⟩ ⟨9⟩ t' ↔ t' = t) ∧
        (Value.int 7).conforms boxRegistry t = true := by
  have checked : openPattern.check boxRegistry ⟨5⟩ = .ok openCompiled := by with_unfolding_all rfl
  have built : box.Built boxRegistry :=
    ⟨_, reachable_box, rfl, List.mem_cons_of_mem _ List.mem_cons_self⟩
  have conforms : box.conforms boxRegistry ⟨5⟩ = true := by decide +kernel
  have matched : (openCompiled.run boxHost box Lookup.empty).run () =
      (.ok (some [(⟨9⟩, .int 7)]), ()) := by rfl
  exact ⟨matched, Compiled.conforms_of_bound checked built conforms faithful_box matched
    List.mem_cons_self⟩

end TaggedMatch
