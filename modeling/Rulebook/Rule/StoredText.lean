import Rulebook.Json.Reader
import Rulebook.Json.Record
import Rulebook.Json.Writer
import Rulebook.Rule.Stored

/-!
# The JSON texts of stored rules

A stored rule is an object with the fields `conditions`, `target` and `value`; a comparison has
`left`, `op` and `value`; a literal has `kind` and the payload that it holds, `number` or `text`.
-/

namespace Rulebook

open Json (Value)
open Number (Binary64 Numeral)

/-! ## Writing -/

/-- The JSON value of a stored literal. A payload that is absent is left out. -/
def StoredLiteral.toJson (stored : StoredLiteral) : Value :=
  .ofFields <|
    [("kind", Value.ofText stored.kind)]
      ++ (stored.number.map fun x => ("number", Json.ofNumber x)).toList
      ++ (stored.text.map fun value => ("text", Value.ofText value)).toList

def StoredComparison.toJson (stored : StoredComparison) : Value :=
  .ofFields
    [("left", .ofText stored.left), ("op", .ofText stored.op), ("value", stored.value.toJson)]

def StoredRule.toJson (stored : StoredRule) : Value :=
  .ofFields
    [("conditions", .array (stored.conditions.map StoredComparison.toJson)),
     ("target", .ofText stored.target), ("value", stored.value.toJson)]

def StoredRule.toText (stored : StoredRule) : String :=
  stored.toJson.toText

/-! ## Reading

What a number of the text stands for is a parameter, so that the structure of the texts can be
studied apart from the precision of the numbers.
-/

def StoredLiteral.ofJson? (read : Numeral → Option Binary64) (value : Value) :
    Option StoredLiteral := do
  match ← value.fields? ["kind", "number", "text"] with
  | [some kind, number, text] =>
    let kind ← kind.text?
    let number ← Json.optional? (·.number? read) number
    let text ← Json.optional? (·.text?) text
    return ⟨kind, number, text⟩
  | _ => none

def StoredComparison.ofJson? (read : Numeral → Option Binary64) (value : Value) :
    Option StoredComparison := do
  match ← value.fields? ["left", "op", "value"] with
  | [some left, some op, some literal] =>
    let left ← left.text?
    let op ← op.text?
    let literal ← StoredLiteral.ofJson? read literal
    return ⟨left, op, literal⟩
  | _ => none

def StoredRule.ofJson? (read : Numeral → Option Binary64) (value : Value) :
    Option StoredRule := do
  match ← value.fields? ["conditions", "target", "value"] with
  | [some conditions, some target, some literal] =>
    let conditions ← conditions.items?
    let conditions ← conditions.mapM (StoredComparison.ofJson? read)
    let target ← target.text?
    let literal ← StoredLiteral.ofJson? read literal
    return ⟨conditions, target, literal⟩
  | _ => none

/-- The stored rule of a JSON text, its numbers read by `read`. -/
def StoredRule.ofText? (read : Numeral → Option Binary64) (text : String) : Option StoredRule :=
  (Json.read? text).bind (StoredRule.ofJson? read)

def StoredRule.ofText (text : String) : Except Fault StoredRule :=
  match StoredRule.ofText? Json.readNumber? text with
  | some stored => .ok stored
  | none => .error (.storage .unreadable)

end Rulebook
