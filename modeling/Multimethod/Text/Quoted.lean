/-
  Multimethod.Text.Quoted — quoted text, and the written form of records, lists and optional values.
-/
import Multimethod.Text.Hidden

/-!
A quoted text stands between double quotes; a quote, a backslash, the three common controls and zero are
written with a backslash, any other hidden character by its code point. Records are written with the names
of their fields, so that a reader of the journal sees what each part is.
-/

namespace Multimethod.Text

/-- The digits of `n` in base sixteen, most significant first. -/
def hexDigits (n : Nat) : List Char :=
  if n < 16 then [Nat.digitChar n] else hexDigits (n / 16) ++ [Nat.digitChar (n % 16)]

/-- How a character is written between quotes. -/
def quoteChar (c : Char) : List Char :=
  if c = '\x00' then ['\\', '0']
  else if c = '\t' then ['\\', 't']
  else if c = '\n' then ['\\', 'n']
  else if c = '\r' then ['\\', 'r']
  else if c = '"' then ['\\', '"']
  else if c = '\\' then ['\\', '\\']
  else if isHidden c then ['\\', 'u', '\x7b'] ++ hexDigits c.toNat ++ ['\x7d']
  else [c]

/-- A text between double quotes. -/
def quote (s : String) : String := String.ofList ('"' :: s.toList.flatMap quoteChar ++ ['"'])

/-- A list of written items between brackets. -/
def bracket (items : List String) : String := "[" ++ ", ".intercalate items ++ "]"

/-- A record of written fields under its name. -/
def record (name : String) (fields : List (String × String)) : String :=
  name ++ " \x7b " ++ ", ".intercalate (fields.map fun f => f.1 ++ ": " ++ f.2) ++ " \x7d"

/-- An optional value that is written already. -/
def optional : Option String → String
  | some s => "Some(" ++ s ++ ")"
  | none => "None"

end Multimethod.Text
