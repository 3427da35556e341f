import TaggedMatch.Text.Quoted
import TaggedMatch.Value.Default

/-!
# Cells that hold union values

A cell is a slot for values of one union type. Assigning a value that is already built replaces the
old one or changes nothing. Assigning a value that is still to be built gives up the old one first;
when the building fails, the policy of the cell says what it holds then:

* `propagate`: nothing, and the failure goes to the caller;
* `fallbackToEmpty`: the default of the alternative that the union names, and the failure is only
  reported;
* `abort`: nothing any more, since the program ends.

So only a cell that propagates can be found without a value.
-/

namespace TaggedMatch

/-- The policy that a cell follows. -/
inductive CellPolicy where
  | propagate
  | abort
  | fallbackToEmpty
deriving DecidableEq, Repr

/-- What a cell is left with when the building of a value failed. -/
inductive Recovery where
  | valueless (error : EvalError)
  | holding (value : UnionValue) (cause : EvalError)
  /-- The program ends. -/
  | halt (error : EvalError)
deriving Repr

namespace CellPolicy

/-- The word for a policy in messages. -/
def label : CellPolicy → String
  | .propagate => "propagate"
  | .abort => "abort"
  | .fallbackToEmpty => "fallback-to-empty"

/-- Whether the union that declares `declared` may be held by such a cell. -/
def admits : CellPolicy → AssignPolicy → Bool
  | .propagate, .propagate => true
  | .abort, .abort => true
  | .fallbackToEmpty, .fallbackToEmpty _ => true
  | _, _ => false

/-- The value to fall back to, made when the cell is. -/
def prepare (r : Registry) (policy : CellPolicy) (d : UnionDef) :
    Except EvalError (Option UnionValue) :=
  match policy with
  | .propagate | .abort => .ok none
  | .fallbackToEmpty =>
      match d.emptyIndex? with
      | none => .error (.of (.notDefaultConstructible (r.text d.name)))
      | some index => do
          let current ← r.unionDef d.ty
          let empty ← current.defaultAlternative r index
          .ok (some empty)

/-- What is left after a failure. -/
def recover (policy : CellPolicy) (fallback : Option UnionValue) (error : EvalError) : Recovery :=
  match policy, fallback with
  | .propagate, _ => .valueless error
  | .abort, _ => .halt error
  | .fallbackToEmpty, some empty => .holding empty error
  | .fallbackToEmpty, none => .valueless error

end CellPolicy

/-- A slot for values of one union type, with what it needs to recover. -/
structure UnionCell where
  policy : CellPolicy
  defn : UnionDef
  /-- The text of the union's name. -/
  name : String
  /-- The value held; none after a failure was propagated. -/
  current : Option UnionValue
  fallback : Option UnionValue
deriving Repr

/-- How an assignment of a value that was still to be built ended. -/
inductive Assignment where
  | assigned
  /-- The building failed and the cell holds the empty alternative. -/
  | fellBack (cause : EvalError)
  /-- The building failed and the cell holds nothing. -/
  | failed (error : EvalError)
  /-- The building failed and the program ends. -/
  | halted (error : EvalError)
deriving DecidableEq, Repr

namespace UnionCell

/-- A cell that holds a value from the start. The union has to declare the policy asked for. -/
def new (r : Registry) (policy : CellPolicy) (initial : UnionValue) :
    Except EvalError UnionCell :=
  let d := initial.defn
  if policy.admits d.policy then do
    let fallback ← policy.prepare r d
    .ok ⟨policy, d, r.text d.name, some initial, fallback⟩
  else .error (.of (.policyMismatch (r.text d.name) d.policy.label policy.label))

/-- A cell that holds the default value of a union type. -/
def withDefault (r : Registry) (policy : CellPolicy) (ty : TypeId) :
    Except EvalError UnionCell := do
  let initial ← UnionValue.default r ty
  UnionCell.new r policy initial

/-- The union type of the cell, whatever it holds. -/
def ty (c : UnionCell) : TypeId := c.defn.ty

/-- Whether the cell lost its value. -/
def isValueless (c : UnionCell) : Bool := c.current.isNone

/-- The value held. -/
def get (c : UnionCell) : Except EvalError UnionValue :=
  match c.current with
  | some u => .ok u
  | none => .error (.of (.valueless c.name))

/-- The value held, to be matched. -/
def toValue (c : UnionCell) : Except EvalError Value := c.get.map (·.toValue)

/-- The discriminator and the name of the active alternative. -/
def active (c : UnionCell) : Except EvalError (Nat × Name) :=
  c.get.map fun u => (u.discriminator, u.activeName)

/-- The payload, if the alternative of this name is active. -/
def payloadAs (r : Registry) (c : UnionCell) (alternative : String) : Except EvalError Value := do
  let u ← c.get
  u.payloadAs r alternative

/-- A value that may be put into the cell: one of the cell's own union. -/
def accept (c : UnionCell) (u : UnionValue) : Except EvalError UnionValue :=
  if u.ty = c.ty then .ok u
  else .error (.shapeMismatch s!"a value of union `{c.name}`"
    s!"a value of union {u.defn.name.tag}")

/-- Replaces the value by one that is built already. -/
def assign (c : UnionCell) (u : UnionValue) : Except EvalError UnionCell :=
  (c.accept u).map fun u => { c with current := some u }

/-- Gives up the value and takes the one that is `built`, if it was and is of the right union. -/
def assignWith (c : UnionCell) (built : Except EvalError UnionValue) : Assignment × UnionCell :=
  match built.bind c.accept with
  | .ok u => (.assigned, { c with current := some u })
  | .error error =>
      match c.policy.recover c.fallback error with
      | .holding u cause => (.fellBack cause, { c with current := some u })
      | .valueless error => (.failed error, { c with current := none })
      | .halt error => (.halted error, { c with current := none })

/-- A short text of a cell for traces. The value itself is not written out: only whether there is
one. -/
def summary (c : UnionCell) : String :=
  let current := if c.isValueless then "None" else "Some(..)"
  "UnionCell \x7b union: " ++ Text.quoted c.name ++ ", policy: " ++ Text.quoted c.policy.label
    ++ ", current: " ++ current ++ ", .. \x7d"

end UnionCell

end TaggedMatch
