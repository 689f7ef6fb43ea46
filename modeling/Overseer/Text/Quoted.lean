import Overseer.Text.Shows

/-!
# Quoted text and the written form of values

The form in which records show their fields: texts stand in quotes with what does not show escaped
(`quoted`), lists, sets and maps stand in brackets (`list`, `set`, `map`) and absent values are
spelled out (`option`). `mapOver` and `setOver` are the forms that give each entry a line of its
own.
-/

namespace Overseer.Text

/-- Lower-case hexadecimal digits of a number, without leading zeros. -/
def hex (n : Nat) : String := String.ofList (Nat.toDigits 16 n)

/-- How one character stands between quotes. -/
def escaped (c : Char) : List Char :=
  match c with
  | '"' => ['\\', '"']
  | '\\' => ['\\', '\\']
  | '\n' => ['\\', 'n']
  | '\r' => ['\\', 'r']
  | '\t' => ['\\', 't']
  | '\x00' => ['\\', '0']
  | c => if shows c then [c] else ("\\u\x7b" ++ hex c.toNat ++ "\x7d").toList

/-- A text in quotes. -/
def quoted (s : String) : String :=
  "\"" ++ String.ofList (s.toList.flatMap escaped) ++ "\""

/-- A list in brackets. -/
def list (items : List String) : String := "[" ++ ", ".intercalate items ++ "]"

/-- A set in braces. -/
def set (items : List String) : String := "\x7b" ++ ", ".intercalate items ++ "\x7d"

/-- A map in braces. -/
def map (entries : List (String × String)) : String :=
  set (entries.map fun (key, value) => key ++ ": " ++ value)

/-- An optional value. -/
def option (value : Option String) : String :=
  match value with
  | none => "None"
  | some s => "Some(" ++ s ++ ")"

/-- A set with a line for each item. -/
def setOver (items : List String) : String :=
  if items.isEmpty then "\x7b\x7d"
  else "\x7b\n" ++ String.join (items.map fun item => "    " ++ item ++ ",\n") ++ "\x7d"

/-- A map with a line for each entry. -/
def mapOver (entries : List (String × String)) : String :=
  setOver (entries.map fun (key, value) => key ++ ": " ++ value)

/-- Named fields of a record, and whether it has more that are not shown. -/
def struct (name : String) (fields : List (String × String)) (more : Bool) : String :=
  let shown := fields.map fun (field, value) => field ++ ": " ++ value
  name ++ " \x7b " ++ ", ".intercalate (shown ++ if more then [".."] else []) ++ " \x7d"

end Overseer.Text
