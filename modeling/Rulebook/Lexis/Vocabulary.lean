import Rulebook.Lexis.Token
import Rulebook.Text.Characters

/-!
# The vocabulary

The words of the rule language, English and Russian, and the kind of token that a word denotes.
Keywords and operators have several spellings each, and letter case does not matter.
-/

namespace Rulebook.Lexis

/-- Kinds of tokens with their spellings, in lower case. -/
abbrev Spellings := List (TokenKind × List String)

def keywords : Spellings :=
  [(.ifWord, ["if", "если", "коли", "ежели"]),
   (.thenWord, ["then", "то", "следовательно"]),
   (.andWord, ["and", "и"])]

/-- The spellings of the comparisons and of the assignment, as symbols and as words. -/
def operators : Spellings :=
  [(.equal, ["==", "equals", "equal", "равно", "равен", "является"]),
   (.less, ["<", "less", "меньше"]),
   (.more, [">", "more", "больше"]),
   (.lessOrEqual, ["<=", "less_or_equal", "меньше_или_равно"]),
   (.moreOrEqual, [">=", "more_or_equal", "больше_или_равно"]),
   (.notEqual, ["!=", "not_equal", "не_равно", "не_равен"]),
   (.assign, ["=", "set", "assign", "присвоить", "будет"])]

/--
The lower case of a Latin or Russian capital letter; any other character stays as it is. The
spellings hold Latin and Russian letters only, so folding further letters would match no spelling
more: the lower case of every other letter holds a character that occurs in none of them.
-/
def foldCase (c : Char) : Char :=
  if 'A' ≤ c && c ≤ 'Z' then Char.ofNat (c.toNat + 0x20)
  else if 'А' ≤ c && c ≤ 'Я' then Char.ofNat (c.toNat + 0x20)
  else if c == 'Ё' then 'ё'
  else c

/-- The kind that has the text among its spellings, whatever the letter case of the text. -/
def Spellings.kind? (spellings : Spellings) (text : String) : Option TokenKind :=
  let folded := String.ofList (text.toList.map foldCase)
  (spellings.find? fun group => group.2.contains folded).map (·.1)

def operatorKind? (text : String) : Option TokenKind :=
  operators.kind? text

def keywordKind? (text : String) : Option TokenKind :=
  keywords.kind? text

/-- Decimal digits, with no minus sign before them. -/
def isUnsignedNumeral (text : List Char) : Bool :=
  !(text.takeWhile Text.isDecimalDigit).isEmpty &&
    match text.dropWhile Text.isDecimalDigit with
    | [] => true
    | '.' :: fraction => !fraction.isEmpty && fraction.all Text.isDecimalDigit
    | _ => false

/--
Decimal digits of any script, with a minus sign before them or not, and with a point and further
digits after them or not.
-/
def isNumeral (text : String) : Bool :=
  match text.toList with
  | '-' :: unsigned => isUnsignedNumeral unsigned
  | unsigned => isUnsignedNumeral unsigned

/-- The kind of a word that stands without quotes. -/
def wordKind (text : String) : TokenKind :=
  if text.isEmpty then .endOfInput
  else if isNumeral text then .number
  else ((operatorKind? text).or (keywordKind? text)).getD .identifier

end Rulebook.Lexis
