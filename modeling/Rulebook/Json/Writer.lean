import Rulebook.Json.Value

/-!
# Writing JSON texts

The compact form of a value: no blanks, members in their order, and in strings an escape only where
the grammar asks for one.
-/

namespace Rulebook.Json

/-- Four hexadecimal digits of a code. -/
def hexChars (code : Nat) : List Char :=
  [code / 4096 % 16, code / 256 % 16, code / 16 % 16, code % 16].map Nat.digitChar

/-- A code as an escape. -/
def codeChars (code : Nat) : List Char :=
  '\\' :: 'u' :: hexChars code

def charChars (c : Char) : List Char :=
  if c = '"' then ['\\', '"']
  else if c = '\\' then ['\\', '\\']
  else if c = '\x08' then ['\\', 'b']
  else if c = '\x0c' then ['\\', 'f']
  else if c = '\n' then ['\\', 'n']
  else if c = '\r' then ['\\', 'r']
  else if c = '\t' then ['\\', 't']
  else if c < ' ' then codeChars c.toNat
  else [c]

def Piece.toChars : Piece → List Char
  | .char c => charChars c
  | .high offset => codeChars (highStart + offset)
  | .low offset => codeChars (lowStart + offset)

/-- The written form of a string, quotes included. -/
def stringChars (pieces : List Piece) : List Char :=
  '"' :: pieces.flatMap Piece.toChars ++ ['"']

mutual

def Value.toChars : Value → List Char
  | .null => ['n', 'u', 'l', 'l']
  | .bool true => ['t', 'r', 'u', 'e']
  | .bool false => ['f', 'a', 'l', 's', 'e']
  | .number numeral => numeral.toChars
  | .string pieces => stringChars pieces
  | .array [] => ['[', ']']
  | .array (item :: items) => '[' :: item.toChars ++ itemsChars items
  | .object [] => ['\x7b', '\x7d']
  | .object ((key, value) :: members) =>
    '\x7b' :: stringChars key ++ ':' :: value.toChars ++ membersChars members

/-- The items after the first one, and the closing bracket. -/
def itemsChars : List Value → List Char
  | [] => [']']
  | item :: items => ',' :: item.toChars ++ itemsChars items

/-- The members after the first one, and the closing bracket. -/
def membersChars : List (List Piece × Value) → List Char
  | [] => ['\x7d']
  | (key, value) :: members =>
    ',' :: stringChars key ++ ':' :: value.toChars ++ membersChars members

end

def Value.toText (value : Value) : String :=
  String.ofList value.toChars

end Rulebook.Json
