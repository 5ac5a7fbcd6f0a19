import HelloNegotiation.Text.Graphic
import HelloNegotiation.Text.Hex

/-!
# Text in double quotes

A character that would not show, or that would join the one before it, stands as the number of
its code point. The quote, the backslash and four control characters have short forms.
-/
namespace HelloNegotiation.Text.Quoted

def escape (c : Char) : String :=
  match c.toNat with
  | 0x00 => "\\0"
  | 0x09 => "\\t"
  | 0x0A => "\\n"
  | 0x0D => "\\r"
  | 0x22 => "\\\""
  | 0x5C => "\\\\"
  | n => if Graphic.isGraphic c then c.toString else "\\u\x7b" ++ Hex.number n ++ "\x7d"

def quote (s : String) : String := "\"" ++ String.join (s.toList.map escape) ++ "\""

/-- Several texts as a list in brackets. -/
def quoteAll (ss : List String) : String := "[" ++ String.intercalate ", " (ss.map quote) ++ "]"

end HelloNegotiation.Text.Quoted
