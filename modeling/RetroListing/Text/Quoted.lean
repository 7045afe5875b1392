/-
Quoted text, the form in which messages show file names and region names: double quotes around the
text, a backslash before what would end or break it, and a numeric escape for every character that
has no shape of its own.
-/
import RetroListing.Text.Blank
import RetroListing.Text.Escaped
import RetroListing.Text.Hex

namespace RetroListing.Text

/-- One character inside quotes. -/
def quoteChar (c : Char) : String :=
  if c = '\x00' then "\\0"
  else if c = '\t' then "\\t"
  else if c = '\r' then "\\r"
  else if c = '\n' then "\\n"
  else if c = '"' then "\\\""
  else if c = '\\' then "\\\\"
  else if inRanges escapedRanges c then "\\u\x7b" ++ lowerHex c.toNat ++ "\x7d"
  else c.toString

/-- `text` in double quotes. -/
def quoted (text : String) : String :=
  "\"" ++ String.join (text.toList.map quoteChar) ++ "\""

end RetroListing.Text
