import Rulebook.Number.Numeral

/-!
# JSON values

A JSON text as a tree. The tree keeps what the grammar of JSON lets through: numbers stay as they
are written, objects may repeat a key, and a string may hold half of a surrogate pair, although no
text has such a half. Whether a value has the meaning that a reader expects is decided later, on the
parts that the reader uses.
-/

namespace Rulebook.Json

/-- One piece of a string: a character, or a half of a surrogate pair written as an escape. -/
inductive Piece where
  | char (c : Char)
  /-- The first half of a pair, by its distance from the first such half. -/
  | high (offset : Nat)
  /-- The second half of a pair, by its distance from the first such half. -/
  | low (offset : Nat)
  deriving DecidableEq

/-- The code of the first half that opens a pair. -/
def highStart : Nat := 0xD800

/-- The code of the first half that closes a pair. -/
def lowStart : Nat := 0xDC00

/-- The code after the last half that closes a pair. -/
def lowEnd : Nat := 0xE000

/-- The code of the first character that a pair stands for. -/
def pairStart : Nat := 0x10000

/-- How many codes a half of a pair can have. -/
def halves : Nat := 0x400

/-- The piece with the given code, which has at most four hexadecimal digits. -/
def Piece.ofCode (code : Nat) : Piece :=
  if highStart ≤ code && code < lowStart then .high (code - highStart)
  else if lowStart ≤ code && code < lowEnd then .low (code - lowStart)
  else .char (Char.ofNat code)

/-- The characters of a string; `none` where half of a pair stands alone. -/
def joinPieces : List Piece → Option (List Char)
  | [] => some []
  | .char c :: rest => (joinPieces rest).map (c :: ·)
  | .high high :: .low low :: rest =>
    (joinPieces rest).map (Char.ofNat (pairStart + high * halves + low) :: ·)
  | .high _ :: _ => none
  | .low _ :: _ => none

def piecesOf (text : String) : List Piece :=
  text.toList.map .char

inductive Value where
  | null
  | bool (value : Bool)
  | number (numeral : Number.Numeral)
  | string (pieces : List Piece)
  | array (items : List Value)
  /-- The members in the order of the text, each with its key. -/
  | object (members : List (List Piece × Value))

def textOf? (pieces : List Piece) : Option String :=
  (joinPieces pieces).map String.ofList

def Value.ofText (text : String) : Value :=
  .string (piecesOf text)

def Value.ofFields (fields : List (String × Value)) : Value :=
  .object (fields.map fun field => (piecesOf field.1, field.2))

theorem joinPieces_map_char (text : List Char) : joinPieces (text.map .char) = some text := by
  induction text with
  | nil => rfl
  | cons c rest ih => simp [joinPieces, ih]

@[simp] theorem textOf?_piecesOf (text : String) : textOf? (piecesOf text) = some text := by
  simp [textOf?, piecesOf, joinPieces_map_char]

end Rulebook.Json
