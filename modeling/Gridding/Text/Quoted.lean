import Gridding.Text.Printable
/-!
# Quoted text

The form in which messages show a text: in single quotes, or in double quotes if it holds a single
but no double one. The quote and the backslash are escaped, and so is every character without a
visible form.
-/

namespace Gridding.Text

private def hexDigits (width n : Nat) : List Char :=
  let ds := Nat.toDigits 16 n
  List.replicate (width - ds.length) '0' ++ ds

private def escaped (quote c : Char) : List Char :=
  if c == quote || c == '\\' then ['\\', c]
  else if c == '\n' then ['\\', 'n']
  else if c == '\r' then ['\\', 'r']
  else if c == '\t' then ['\\', 't']
  else if isPrintable c then [c]
  else if c.toNat < 0x100 then '\\' :: 'x' :: hexDigits 2 c.toNat
  else if c.toNat < 0x10000 then '\\' :: 'u' :: hexDigits 4 c.toNat
  else '\\' :: 'U' :: hexDigits 8 c.toNat

def quoted (s : String) : String :=
  let cs := s.toList
  let quote := if cs.contains '\'' && !cs.contains '"' then '"' else '\''
  String.ofList (quote :: cs.flatMap (escaped quote) ++ [quote])

/-- A list of quoted texts in brackets. -/
def quotedList (ss : List String) : String := "[" ++ ", ".intercalate (ss.map quoted) ++ "]"

end Gridding.Text
