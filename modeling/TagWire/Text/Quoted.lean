import TagWire.Text.Hex
import TagWire.Text.Invisible

/-!
# Quoted text

How error messages show a text or a single character: between quotes, on one
line, with every character either a picture of its own or spelled out.
-/

namespace TagWire

namespace Quoted

/-- One character inside quotes of the kind `quote`.  The other kind of quote
needs no backslash. -/
def escape (quote char : Char) : String :=
  if char = quote ∨ char = '\\' then String.ofList ['\\', char]
  else if char = '\x00' then "\\0"
  else if char = '\t' then "\\t"
  else if char = '\r' then "\\r"
  else if char = '\n' then "\\n"
  else if Invisible.isInvisible char then
    "\\u\x7b" ++ Hex.ofNat char.toNat ++ "\x7d"
  else char.toString

def text (content : String) : String :=
  content.toList.foldl (fun shown char => shown ++ escape '"' char) "\"" ++ "\""

def char (content : Char) : String :=
  "'" ++ escape '\'' content ++ "'"

end Quoted

end TagWire
