import TaggedMatch.Text.Combining
import TaggedMatch.Text.Unprinted

/-!
# Texts in quotes

Between its quotes a text is written so that every character of it can be seen. The quote and the
backslash are escaped by a backslash, the common controls by a letter or digit of their own, and
every other character that would not be seen by itself by its code point. That is one without a
printed form, and one that would melt into the character before it.
-/

namespace TaggedMatch.Text

/-- A character by its code point, in as few hexadecimal digits as it takes. -/
def byCodePoint (c : Char) : String :=
  "\\u\x7b" ++ String.ofList (Nat.toDigits 16 c.toNat) ++ "\x7d"

/-- A character between quotes. -/
def escaped (c : Char) : String :=
  match c with
  | '"' => "\\\""
  | '\\' => "\\\\"
  | '\n' => "\\n"
  | '\r' => "\\r"
  | '\t' => "\\t"
  | '\x00' => "\\0"
  | c => if isCombining c || isUnprinted c then byCodePoint c else c.toString

/-- A text in quotes. -/
def quoted (s : String) : String := "\"" ++ String.join (s.toList.map escaped) ++ "\""

end TaggedMatch.Text
