import InstallMedia.Text.Printable

/-!
# Quoted text

A text is shown between double quotes, with a backslash before a quote or a backslash, the short
escapes for the common control characters, and the code point in braces for any character that
shows no shape of its own.  A file path is shown in the same way with the single quote escaped
too.

## Main definitions

* `Quoted.text`, `Quoted.path`: a text, and a path, between quotes
* `Quoted.some?`: a value that may be absent
* `Quoted.list`: values in brackets
* `Quoted.hex`: the hexadecimal digits of a number
-/

namespace InstallMedia.Quoted

/-- The lower-case hexadecimal digits of a number, without leading zeros. -/
def hex (n : Nat) : String :=
  String.ofList (Nat.toDigits 16 n)

/-- A character inside quotes; `single` says whether the single quote is escaped. -/
def char (single : Bool) (c : Char) : String :=
  if c = Char.ofNat 0 then "\\0"
  else if c = '\t' then "\\t"
  else if c = '\r' then "\\r"
  else if c = '\n' then "\\n"
  else if c = '"' then "\\\""
  else if c = '\\' then "\\\\"
  else if c = '\'' ∧ single then "\\'"
  else if Printable.isHidden c then "\\u\x7b" ++ hex c.toNat ++ "\x7d"
  else c.toString

/-- The characters of a text, quoted one by one, between double quotes. -/
def quote (single : Bool) (s : String) : String :=
  "\"" ++ String.join (s.toList.map (char single)) ++ "\""

def text (s : String) : String := quote false s

def path (s : String) : String := quote true s

def some? : Option String → String
  | none => "None"
  | some shown => "Some(" ++ shown ++ ")"

/-- Values in brackets, separated by commas. -/
def list (shown : List String) : String :=
  "[" ++ String.intercalate ", " shown ++ "]"

end InstallMedia.Quoted
