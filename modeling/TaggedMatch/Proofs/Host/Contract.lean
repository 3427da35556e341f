import TaggedMatch.Proofs.Host.Recording
import TaggedMatch.Proofs.Session

/-!
# What is relied on of host objects

The registry says of an extension type what its objects can do, and nothing in the program makes them
do it. `Host.Honours` is what a match relies on of one object; `Host.Faithful` asks it of the objects
of all extension values that a match can meet. Objects may change their answers from call to call, as
long as every answer is as promised. The values they answer are made by the program, like any other
(`Value.Built`).
-/

namespace TaggedMatch

variable {γ σ : Type} {r : Registry}

/-- Some program came to hold the value while its registry was `r`. -/
def Value.Built (r : Registry) (v : Value) : Prop :=
  ∃ s : Session, s.Reachable ∧ s.registry = r ∧ v ∈ s.held

theorem Value.Built.wellFormed {v : Value} (h : v.Built r) : v.WellFormed r := by
  obtain ⟨s, hs, rfl, hv⟩ := h
  exact hs.invariant.wellFormed v hv

theorem Value.Built.consistent {v : Value} (h : v.Built r) : r.Consistent := by
  obtain ⟨s, hs, rfl, -⟩ := h
  exact hs.invariant.consistent

namespace Host

/-- The object has the capabilities that its type declares, and what it answers in them is of the
types that are declared. -/
structure Honours (host : Host γ σ) (r : Registry) (ty : TypeId) (object : ObjectId) : Prop where
  registered : ∃ d, r.kind? ty = some (.extension d)
  givesPieces : ∀ {d shape}, r.kind? ty = some (.extension d) → d.aggregate = some shape →
    ∀ s, ((host.givesPieces object).run s).1 = true
  piece : ∀ {d shape}, r.kind? ty = some (.extension d) → d.aggregate = some shape →
    ∀ {index part}, shape.pieces[index]? = some part →
      ∀ s, ∃ w, ((host.piece object index).run s).1 = some w ∧ w.conforms r part.ty = true
  givesVariant : ∀ {d shape}, r.kind? ty = some (.extension d) → d.variant = some shape →
    ∀ s, ((host.givesVariant object).run s).1 = true
  /-- Under the discriminator it has just reported, if that is declared. -/
  payload : ∀ {d shape}, r.kind? ty = some (.extension d) → d.variant = some shape →
    ∀ {s active s'}, (host.discriminator object).run s = (active, s') →
      ∀ {a}, a ∈ shape.alternatives → a.discriminator = active →
        ∃ w, ((host.alternative object active).run s').1 = some w ∧ w.conforms r a.payload = true
  built : ∀ {w}, host.Answers object w → w.Built r

/-- All objects that a match of `v` can meet honour their types. -/
def Faithful (host : Host γ σ) (r : Registry) (v : Value) : Prop :=
  ∀ ty object, host.Meets v (.extension ty object) → host.Honours r ty object

theorem Faithful.meets {host : Host γ σ} {v w : Value} (h : host.Faithful r v)
    (hw : host.Meets v w) : host.Faithful r w :=
  fun ty object met => h ty object (hw.trans met)

theorem Faithful.part {host : Host γ σ} {v p : Value} (h : host.Faithful r v)
    (hp : p ∈ v.parts) : host.Faithful r p :=
  h.meets (.part .here hp)

theorem Faithful.answer {host : Host γ σ} {ty : TypeId} {object : ObjectId} {w : Value}
    (h : host.Faithful r (.extension ty object)) (hw : host.Answers object w) :
    host.Faithful r w :=
  h.meets (.answer .here hw)

theorem Faithful.honours {host : Host γ σ} {ty : TypeId} {object : ObjectId}
    (h : host.Faithful r (.extension ty object)) : host.Honours r ty object :=
  h ty object .here

/-! ## Recorded hosts

A host that writes its calls down gives the answers that it gave before. -/

theorem Answers.of_recorded {host : Host γ σ} {object : ObjectId} {w : Value}
    (h : host.recorded.Answers object w) : host.Answers object w := by
  cases h with
  | piece index s h => exact .piece index s.1 h
  | payload active s s' reported h =>
      cases reported
      exact .payload _ s.1 _ rfl h

theorem Meets.of_recorded {host : Host γ σ} {v w : Value} (h : host.recorded.Meets v w) :
    host.Meets v w :=
  h.closed ⟨.part, fun met hw => .answer met hw.of_recorded⟩ .here

theorem Honours.recorded {host : Host γ σ} {ty : TypeId} {object : ObjectId}
    (h : host.Honours r ty object) : host.recorded.Honours r ty object where
  registered := h.registered
  givesPieces hkind hshape s := h.givesPieces hkind hshape s.1
  piece hkind hshape _ _ hpart s := h.piece hkind hshape hpart s.1
  givesVariant hkind hshape s := h.givesVariant hkind hshape s.1
  payload hkind hshape s active s' reported a ha hactive := by
    cases reported
    exact h.payload hkind hshape rfl ha hactive
  built hw := h.built hw.of_recorded

theorem Faithful.recorded {host : Host γ σ} {v : Value} (h : host.Faithful r v) :
    host.recorded.Faithful r v :=
  fun ty object met => (h ty object met.of_recorded).recorded

end Host

end TaggedMatch
