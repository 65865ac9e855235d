import Rulebook.Json.Numbers

/-!
# Records in JSON values

A record is read from an object with the record's keys, or from an array of its fields in their
order. Keys that the record does not have are ignored; a key of the record may not occur twice.
Whether a field may be missing is for the record to say, so a missing field is `none`.
-/

namespace Rulebook.Json

open Number (Numeral Binary64)

/-! ## Simple values -/

def Value.text? : Value → Option String
  | .string pieces => textOf? pieces
  | .null | .bool _ | .number _ | .array _ | .object _ => none

def Value.items? : Value → Option (List Value)
  | .array items => some items
  | .null | .bool _ | .number _ | .string _ | .object _ => none

def Value.texts? (value : Value) : Option (List String) :=
  value.items?.bind fun items => items.mapM Value.text?

/-- A number, as `read` reads it. -/
def Value.number? (read : Numeral → Option Binary64) : Value → Option Binary64
  | .number numeral => read numeral
  | .null | .bool _ | .string _ | .array _ | .object _ => none

/-- An optional value: `null` stands for no value, as a missing field does. -/
def optional? {α : Type} (read : Value → Option α) : Option Value → Option (Option α)
  | none => some none
  | some .null => some none
  | some value => (read value).map some

/-! ## Fields -/

/-- Members with their keys as texts. -/
abbrev Members := List (String × Value)

def Value.members? : Value → Option Members
  | .object members => members.mapM fun member => (textOf? member.1).map (·, member.2)
  | .null | .bool _ | .number _ | .string _ | .array _ => none

/-- The value of a key, or no value where the key does not occur; `none` where it occurs twice. -/
def Members.field? (members : Members) (key : String) : Option (Option Value) :=
  match members.filter (·.1 == key) with
  | [] => some none
  | [member] => some (some member.2)
  | _ => none

/-- The values of a record's fields, from an object or from an array. -/
def Value.fields? (keys : List String) : Value → Option (List (Option Value))
  | .array items =>
    if items.length ≤ keys.length then
      some (items.map some ++ List.replicate (keys.length - items.length) none)
    else none
  | value => value.members?.bind fun members => keys.mapM members.field?

/-! ## Values that are kept while their use is undecided -/

mutual

/--
A reader can keep the value: arrays and objects nest at most `depth` deep, numbers are in range, and
strings and keys are texts.
-/
def Value.isSound (depth : Nat) : Value → Bool
  | .null | .bool _ => true
  | .number numeral => (readNumber? numeral).isSome
  | .string pieces => (joinPieces pieces).isSome
  | .array items => depth != 0 && itemsSound (depth - 1) items
  | .object members => depth != 0 && membersSound (depth - 1) members

def itemsSound (depth : Nat) : List Value → Bool
  | [] => true
  | item :: items => item.isSound depth && itemsSound depth items

def membersSound (depth : Nat) : List (List Piece × Value) → Bool
  | [] => true
  | (key, value) :: members =>
    (joinPieces key).isSome && value.isSound depth && membersSound depth members

end

end Rulebook.Json
