import TaggedMatch.Value.Basic

/-!
# How values are written

Nominal values name themselves by the tags of their names, since no registry is at hand; texts are
put in quotes as they are, without escapes.
-/

namespace TaggedMatch.Value

/-- The word for the form of a value in messages. -/
def kindName : Value → String
  | .int _ => "int"
  | .bool _ => "bool"
  | .char _ => "char"
  | .unit => "unit"
  | .str _ => "str"
  | .tuple _ => "tuple"
  | .null => "null pointer"
  | .pointer _ => "pointer"
  | .constant .. => "enum constant"
  | .aggregate .. => "aggregate"
  | .union .. => "union value"
  | .extension .. => "extension value"

mutual

/-- The text of a value. -/
def text : Value → String
  | .int n => toString n
  | .bool b => if b then "true" else "false"
  | .char c => "'" ++ c.toString ++ "'"
  | .unit => "()"
  | .str s => "\"" ++ s ++ "\""
  | .tuple items => "(" ++ ", ".intercalate (texts items) ++ ")"
  | .null => "null"
  | .pointer pointee => "*" ++ pointee.text
  | .constant d index => "<enum " ++ d.name.tag ++ "::" ++ (d.constantName index).tag ++ ">"
  | .aggregate d fields =>
      "<" ++ d.name.tag ++ " \x7b" ++ ", ".intercalate (texts fields) ++ "\x7d>"
  | .union d discriminator payload =>
      "<union " ++ d.name.tag ++ "." ++ (d.alternativeName discriminator).tag ++ "("
        ++ payload.text ++ ")>"
  | .extension ty _ => "<extension " ++ ty.tag ++ ">"

/-- The texts of a list of values. -/
def texts : List Value → List String
  | [] => []
  | v :: vs => v.text :: texts vs

end

end TaggedMatch.Value
