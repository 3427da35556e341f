import TaggedMatch.Declaration

/-!
# Values

A value of a nominal type carries the definition it was built from, so it can name itself and its
parts. Definitions are given once and never change; so equality does not look at them and compares
type ids, indices and parts. Host objects are opaque here: a value of an extension type holds the
identity of its object, and what the object answers is the business of the surrounding program.

A pointer owns its pointee. Overwriting a pointee is building the pointer anew, so a copy taken
before keeps what it had.

`beq` says which values are equal. `==` spares itself the parts that both sides share, and `beq_eq`
says that its answer is the same.
-/

namespace TaggedMatch

/-- The identity of a host object. -/
structure ObjectId where
  index : Nat
deriving DecidableEq, Repr

/-- A value of any type. -/
inductive Value where
  | int (n : Int64)
  | bool (b : Bool)
  | char (c : Char)
  | unit
  | str (s : String)
  | tuple (items : List Value)
  /-- The null pointer, whatever its type. -/
  | null
  | pointer (pointee : Value)
  | constant (defn : EnumDef) (index : Nat)
  | aggregate (defn : AggregateDef) (fields : List Value)
  | union (defn : UnionDef) (discriminator : Nat) (payload : Value)
  | extension (ty : TypeId) (object : ObjectId)
deriving Inhabited, Repr

/-- A value known to be of a union type. -/
structure UnionValue where
  defn : UnionDef
  discriminator : Nat
  payload : Value
deriving Repr

namespace UnionValue

/-- The same value among values of all types. -/
def toValue (u : UnionValue) : Value := .union u.defn u.discriminator u.payload

def ty (u : UnionValue) : TypeId := u.defn.ty

/-- The name of the alternative that is active. -/
def activeName (u : UnionValue) : Name := u.defn.alternativeName u.discriminator

end UnionValue

namespace Value

/-! ## Queries -/

/-- The number that a value is. -/
def asInt? : Value → Option Int64
  | .int n => some n
  | _ => none

/-- The truth value that a value is. -/
def asBool? : Value → Option Bool
  | .bool b => some b
  | _ => none

/-- The text that a value is. -/
def asStr? : Value → Option String
  | .str s => some s
  | _ => none

/-- A value as a union value, if it is one. -/
def asUnion? : Value → Option UnionValue
  | .union defn discriminator payload => some ⟨defn, discriminator, payload⟩
  | _ => none

/-- Whether this is the null pointer. -/
def isNull : Value → Bool
  | .null => true
  | _ => false

/-- What a pointer that is not null points to. -/
def pointee? : Value → Option Value
  | .pointer pointee => some pointee
  | _ => none

/-- The field of this name of an aggregate. -/
def fieldNamed? (v : Value) (name : Name) : Option Value :=
  match v with
  | .aggregate defn fields => (defn.fieldIndex? name).bind (fields[·]?)
  | _ => none

/-- Puts `new` where `depth` pointers lead, if there are that many. -/
def overwrite (new : Value) : Nat → Value → Option Value
  | 0, _ => some new
  | depth + 1, .pointer pointee => (overwrite new depth pointee).map .pointer
  | _ + 1, _ => none

/-! ## Equality -/

mutual

/-- Equality of values. Two host objects are equal only if they are the same object. -/
def beq : Value → Value → Bool
  | .int m, .int n => m == n
  | .bool a, .bool b => a == b
  | .char c, .char d => c == d
  | .unit, .unit => true
  | .str s, .str t => s == t
  | .tuple vs, .tuple ws => beqAll vs ws
  | .null, .null => true
  | .pointer v, .pointer w => v.beq w
  | .constant d i, .constant e j => d.ty == e.ty && i == j
  | .aggregate d vs, .aggregate e ws => d.ty == e.ty && beqAll vs ws
  | .union d i v, .union e j w => d.ty == e.ty && i == j && v.beq w
  | .extension t a, .extension u b => t == u && a == b
  | _, _ => false

/-- Equality of lists of values, place by place. -/
def beqAll : List Value → List Value → Bool
  | [], [] => true
  | v :: vs, w :: ws => v.beq w && beqAll vs ws
  | _, _ => false

end

mutual

/-- Every value is equal to itself. -/
theorem beq_self : (v : Value) → v.beq v = true
  | .int _ | .bool _ | .char _ | .unit | .str _ | .null | .constant .. | .extension .. => by
      simp [beq]
  | .tuple vs => by simp [beq, beqAll_self vs]
  | .pointer v => by simp [beq, beq_self v]
  | .aggregate _ vs => by simp [beq, beqAll_self vs]
  | .union _ _ v => by simp [beq, beq_self v]

/-- Every list of values is equal to itself. -/
theorem beqAll_self : (vs : List Value) → beqAll vs vs = true
  | [] => by simp [beqAll]
  | v :: vs => by simp [beqAll, beq_self v, beqAll_self vs]

end

/-- Lists of different lengths are not equal. -/
theorem beqAll_of_length_ne : {vs ws : List Value} → vs.length ≠ ws.length → beqAll vs ws = false
  | [], [], h => absurd rfl h
  | [], _ :: _, _ => rfl
  | _ :: _, [], _ => by simp [beqAll]
  | v :: vs, w :: ws, h => by
      have hlen : vs.length ≠ ws.length := by simpa using h
      simp [beqAll, beqAll_of_length_ne hlen]

/-! ## Equality of values that share parts

A copy of a value has its parts in common with the value it was taken from, and one value may stand
in many places of another. Such a value can be small in memory while its parts, counted place by
place, are far too many to visit. So parts that are one object in memory are not looked into: they
are equal, because every value is equal to itself. Nor are the parts of two values that differ in
how many they have.
-/

/-- The answer of a comparison, which is not asked for if both sides are one object in memory. -/
@[inline] def unlessSame {α : Type} {equal : α → α → Bool} (equal_self : ∀ a, equal a a = true)
    (a b : α) (answer : Unit → { r : Bool // r = equal a b }) : { r : Bool // r = equal a b } :=
  ⟨withPtrEq a b (fun _ => (answer ()).1) fun h => by rw [(answer ()).2, h, equal_self],
    (answer ()).2⟩

/-- The answer of a comparison of lists, which is not asked for either if their lengths differ. -/
@[inline] def unlessPlain (vs ws : List Value) (answer : Unit → { r : Bool // r = beqAll vs ws }) :
    { r : Bool // r = beqAll vs ws } :=
  unlessSame beqAll_self vs ws fun _ =>
    if h : vs.length = ws.length then answer () else ⟨false, (beqAll_of_length_ne h).symm⟩

mutual

/-- The answer of `beq`, found without looking into parts that both sides share. -/
def beqSharing : (v w : Value) → { r : Bool // r = v.beq w }
  | .tuple vs, .tuple ws => unlessPlain vs ws fun _ => beqAllSharing vs ws
  | .pointer v, .pointer w => unlessSame beq_self v w fun _ => beqSharing v w
  | .aggregate d vs, .aggregate e ws =>
      let parts := fun _ => unlessPlain vs ws fun _ => beqAllSharing vs ws
      ⟨d.ty == e.ty && (parts ()).1, by rw [(parts ()).2, beq]⟩
  | .union d i v, .union e j w =>
      let payload := fun _ => unlessSame beq_self v w fun _ => beqSharing v w
      ⟨d.ty == e.ty && i == j && (payload ()).1, by rw [(payload ()).2, beq]⟩
  | v, w => ⟨v.beq w, rfl⟩

/-- The answer of `beqAll`, found in the same way. -/
def beqAllSharing : (vs ws : List Value) → { r : Bool // r = beqAll vs ws }
  | v :: vs, w :: ws =>
      ⟨(beqSharing v w).1 && (beqAllSharing vs ws).1, by
        rw [(beqSharing v w).2, (beqAllSharing vs ws).2, beqAll]⟩
  | vs, ws => ⟨beqAll vs ws, rfl⟩

end

instance : BEq Value := ⟨fun v w => (v.beqSharing w).1⟩

/-- Sharing makes no difference to the answer. -/
theorem beq_eq (v w : Value) : (v == w) = v.beq w := (v.beqSharing w).2

end Value

end TaggedMatch
