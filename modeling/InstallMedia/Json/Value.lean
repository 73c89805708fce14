import InstallMedia.Json.Text

/-!
# Writing JSON values

## Main definitions

* `Json.Value`
* `Json.Value.compact`: without blanks
* `Json.Value.pretty`: each member and element on a line of its own, indented by two blanks
-/

namespace InstallMedia.Json

/-- A value to be written. -/
inductive Value where
  | bool (value : Bool)
  | number (value : Nat)
  | text (value : String)
  | list (elements : List Value)
  | object (members : List (String × Value))

namespace Value

/-- A list of texts. -/
def texts (ss : List String) : Value := .list (ss.map .text)

/-- So many steps of indentation on a new line. -/
def newline (depth : Nat) : String :=
  "\n" ++ String.join (List.replicate depth "  ")

/-- A value without elements or members. -/
def atom : Value → String
  | .bool true => "true"
  | .bool false => "false"
  | .number n => toString n
  | .text s => escaped s
  | .list _ => "[]"
  | .object _ => "\x7b\x7d"

mutual

/-- A value without blanks. -/
def compact : Value → String
  | .list [] => "[]"
  | .list (x :: xs) => "[" ++ compact x ++ compactElements xs ++ "]"
  | .object [] => "\x7b\x7d"
  | .object ((name, x) :: rest) =>
    "\x7b" ++ escaped name ++ ":" ++ compact x ++ compactMembers rest ++ "\x7d"
  | .bool value => atom (.bool value)
  | .number value => atom (.number value)
  | .text value => atom (.text value)

/-- Elements that follow others, without blanks. -/
def compactElements : List Value → String
  | [] => ""
  | x :: xs => "," ++ compact x ++ compactElements xs

/-- Members that follow others, without blanks. -/
def compactMembers : List (String × Value) → String
  | [] => ""
  | (name, x) :: rest => "," ++ escaped name ++ ":" ++ compact x ++ compactMembers rest

end

mutual

/-- A value at a depth, each element and member on a line of its own. -/
def prettyAt (depth : Nat) : Value → String
  | .list [] => "[]"
  | .list (x :: xs) =>
    "[" ++ newline (depth + 1) ++ prettyAt (depth + 1) x ++ prettyElements (depth + 1) xs ++
      newline depth ++ "]"
  | .object [] => "\x7b\x7d"
  | .object ((name, x) :: rest) =>
    "\x7b" ++ newline (depth + 1) ++ escaped name ++ ": " ++ prettyAt (depth + 1) x ++
      prettyMembers (depth + 1) rest ++ newline depth ++ "\x7d"
  | .bool value => atom (.bool value)
  | .number value => atom (.number value)
  | .text value => atom (.text value)

/-- Elements that follow others, each on a line of its own. -/
def prettyElements (depth : Nat) : List Value → String
  | [] => ""
  | x :: xs => "," ++ newline depth ++ prettyAt depth x ++ prettyElements depth xs

/-- Members that follow others, each on a line of its own. -/
def prettyMembers (depth : Nat) : List (String × Value) → String
  | [] => ""
  | (name, x) :: rest =>
    "," ++ newline depth ++ escaped name ++ ": " ++ prettyAt depth x ++ prettyMembers depth rest

end

/-- A value, each element and member on a line of its own. -/
def pretty (x : Value) : String := prettyAt 0 x

end Value

end InstallMedia.Json
