import Rulebook.Proofs.Json.Numbers
import Rulebook.Proofs.Json.ReadBack
import Rulebook.Rule.StoredText

/-!
# Texts of stored rules

The text of a stored rule gives the rule back, up to what reading makes of each number on its own
(`ofText?_toText`). A reader that keeps the numbers which were written therefore loses nothing, and
what it reads from other texts it can write and read again (`stored_text_reads_back`).
-/

namespace Rulebook

open Json (Value)
open Number (Binary64 Numeral)

/-! ## Changing numbers -/

/-- The literal with another number in place of each number. -/
def StoredLiteral.mapNumbers (change : Binary64 → Binary64) (stored : StoredLiteral) :
    StoredLiteral :=
  { stored with number := stored.number.map change }

def StoredComparison.mapNumbers (change : Binary64 → Binary64) (stored : StoredComparison) :
    StoredComparison :=
  { stored with value := stored.value.mapNumbers change }

def StoredRule.mapNumbers (change : Binary64 → Binary64) (stored : StoredRule) : StoredRule where
  conditions := stored.conditions.map (StoredComparison.mapNumbers change)
  target := stored.target
  value := stored.value.mapNumbers change

theorem StoredRule.mapNumbers_id (stored : StoredRule) : stored.mapNumbers id = stored := by
  have literal (stored : StoredLiteral) : stored.mapNumbers id = stored := by
    rw [StoredLiteral.mapNumbers, Option.map_id_fun, id]
  have comparison : StoredComparison.mapNumbers id = id := by
    funext stored
    rw [StoredComparison.mapNumbers, literal]
    rfl
  rw [mapNumbers, comparison, List.map_id_fun, literal]
  rfl

/-! ## Numbers that have a text -/

/-- A number, where there is one, is finite. -/
def StoredLiteral.IsFinite (stored : StoredLiteral) : Prop :=
  ∀ x ∈ stored.number, x.isFinite = true

structure StoredRule.IsFinite (stored : StoredRule) : Prop where
  conditions : ∀ comparison ∈ stored.conditions, comparison.value.IsFinite
  value : stored.value.IsFinite

/-! ## Writing -/

theorem StoredLiteral.isWritable_toJson (stored : StoredLiteral) : stored.toJson.IsWritable := by
  apply Value.isWritable_ofFields
  intro field hfield
  simp only [List.mem_append, List.mem_singleton, Option.mem_toList, Option.map_eq_some_iff]
    at hfield
  rcases hfield with (rfl | ⟨x, -, rfl⟩) | ⟨text, -, rfl⟩
  · exact Value.isWritable_ofText _
  · exact Json.isWritable_ofNumber _
  · exact Value.isWritable_ofText _

theorem StoredComparison.isWritable_toJson (stored : StoredComparison) :
    stored.toJson.IsWritable := by
  apply Value.isWritable_ofFields
  intro field hfield
  simp only [List.mem_cons, List.not_mem_nil, or_false] at hfield
  rcases hfield with rfl | rfl | rfl
  · exact Value.isWritable_ofText _
  · exact Value.isWritable_ofText _
  · exact stored.value.isWritable_toJson

theorem StoredRule.isWritable_toJson (stored : StoredRule) : stored.toJson.IsWritable := by
  apply Value.isWritable_ofFields
  intro field hfield
  simp only [List.mem_cons, List.not_mem_nil, or_false] at hfield
  rcases hfield with rfl | rfl | rfl
  · exact Value.isWritable_map StoredComparison.isWritable_toJson _
  · exact Value.isWritable_ofText _
  · exact stored.value.isWritable_toJson

theorem StoredRule.read?_toText (stored : StoredRule) :
    Json.read? stored.toText = some stored.toJson :=
  Json.read?_toText stored.isWritable_toJson

/-! ## Reading what was written -/

theorem StoredLiteral.fields?_toJson (stored : StoredLiteral) :
    stored.toJson.fields? ["kind", "number", "text"]
      = some [some (.ofText stored.kind), stored.number.map Json.ofNumber,
          stored.text.map Value.ofText] := by
  obtain ⟨kind, number, text⟩ := stored
  rw [toJson, Value.fields?_ofFields]
  cases number with
  | none =>
    cases text with
    | none => rfl
    | some text => rfl
  | some x =>
    cases text with
    | none => rfl
    | some text => rfl

theorem StoredComparison.fields?_toJson (stored : StoredComparison) :
    stored.toJson.fields? ["left", "op", "value"]
      = some [some (.ofText stored.left), some (.ofText stored.op), some stored.value.toJson] := by
  rw [toJson, Value.fields?_ofFields]
  rfl

theorem StoredRule.fields?_toJson (stored : StoredRule) :
    stored.toJson.fields? ["conditions", "target", "value"]
      = some [some (.array (stored.conditions.map StoredComparison.toJson)),
          some (.ofText stored.target), some stored.value.toJson] := by
  rw [toJson, Value.fields?_ofFields]
  rfl

section

variable {read : Numeral → Option Binary64} {change : Binary64 → Binary64}
  (hread : ∀ x, x.isFinite = true → read (Json.numberLayout.numeral x) = some (change x))

include hread

theorem optional?_ofNumber {number : Option Binary64}
    (finite : ∀ x ∈ number, x.isFinite = true) :
    Json.optional? (·.number? read) (number.map Json.ofNumber) = some (number.map change) := by
  cases number with
  | none => rfl
  | some x =>
    have finite := finite x rfl
    rw [Option.map_some, Json.ofNumber, if_pos finite]
    exact congrArg (Option.map some) (hread x finite)

theorem StoredLiteral.ofJson?_toJson {stored : StoredLiteral} (finite : stored.IsFinite) :
    StoredLiteral.ofJson? read stored.toJson = some (stored.mapNumbers change) := by
  have number := optional?_ofNumber hread finite
  simp only [ofJson?, fields?_toJson, Option.bind_eq_bind, Option.bind_some, Value.text?_ofText,
    number, Json.optional?_ofText]
  rfl

theorem StoredComparison.ofJson?_toJson {stored : StoredComparison}
    (finite : stored.value.IsFinite) :
    StoredComparison.ofJson? read stored.toJson = some (stored.mapNumbers change) := by
  simp only [ofJson?, fields?_toJson, Option.bind_eq_bind, Option.bind_some, Value.text?_ofText,
    StoredLiteral.ofJson?_toJson hread finite]
  rfl

theorem StoredRule.ofJson?_toJson {stored : StoredRule} (finite : stored.IsFinite) :
    StoredRule.ofJson? read stored.toJson = some (stored.mapNumbers change) := by
  have conditions := Json.mapM_map_eq_some fun comparison hmem =>
    StoredComparison.ofJson?_toJson hread (finite.conditions comparison hmem)
  simp only [ofJson?, fields?_toJson, Option.bind_eq_bind, Option.bind_some, Value.text?_ofText,
    Value.items?_array, conditions, StoredLiteral.ofJson?_toJson hread finite.value]
  rfl

/--
**The text of a stored rule gives the rule back.** Each number is what its numeral is read as; all
else is unchanged.
-/
theorem StoredRule.ofText?_toText {stored : StoredRule} (finite : stored.IsFinite) :
    StoredRule.ofText? read stored.toText = some (stored.mapNumbers change) := by
  rw [ofText?, read?_toText, Option.bind_some, ofJson?_toJson hread finite]

end

/-! ## What is read -/

section

variable {read : Numeral → Option Binary64}
  (inRange : ∀ numeral x, read numeral = some x → x.isFinite = true)

include inRange

theorem isFinite_of_optional? {field : Option Value} {number : Option Binary64}
    (h : Json.optional? (·.number? read) field = some number) :
    ∀ x ∈ number, x.isFinite = true := by
  intro x hx
  cases hx
  unfold Json.optional? at h
  split at h
  · cases h
  · cases h
  · next value _ =>
    obtain ⟨y, hread, hy⟩ := Option.map_eq_some_iff.1 h
    cases hy
    cases value with
    | number numeral => exact inRange numeral x hread
    | null | bool | string | array | object => cases hread

theorem StoredLiteral.isFinite_of_ofJson? {value : Value} {stored : StoredLiteral}
    (h : StoredLiteral.ofJson? read value = some stored) : stored.IsFinite := by
  unfold ofJson? at h
  obtain ⟨fields, -, h⟩ := Option.bind_eq_some_iff.1 h
  split at h
  · next kind number text =>
    obtain ⟨kind, -, h⟩ := Option.bind_eq_some_iff.1 h
    obtain ⟨number, hnumber, h⟩ := Option.bind_eq_some_iff.1 h
    obtain ⟨text, -, h⟩ := Option.bind_eq_some_iff.1 h
    cases h
    exact isFinite_of_optional? inRange hnumber
  · cases h

theorem StoredComparison.isFinite_of_ofJson? {value : Value} {stored : StoredComparison}
    (h : StoredComparison.ofJson? read value = some stored) : stored.value.IsFinite := by
  unfold ofJson? at h
  obtain ⟨fields, -, h⟩ := Option.bind_eq_some_iff.1 h
  split at h
  · next left op literal =>
    obtain ⟨left, -, h⟩ := Option.bind_eq_some_iff.1 h
    obtain ⟨op, -, h⟩ := Option.bind_eq_some_iff.1 h
    obtain ⟨literal, hliteral, h⟩ := Option.bind_eq_some_iff.1 h
    cases h
    exact StoredLiteral.isFinite_of_ofJson? inRange hliteral
  · cases h

theorem StoredRule.isFinite_of_ofJson? {value : Value} {stored : StoredRule}
    (h : StoredRule.ofJson? read value = some stored) : stored.IsFinite := by
  unfold ofJson? at h
  obtain ⟨fields, -, h⟩ := Option.bind_eq_some_iff.1 h
  split at h
  · next conditions target literal =>
    obtain ⟨items, -, h⟩ := Option.bind_eq_some_iff.1 h
    obtain ⟨conditions, hconditions, h⟩ := Option.bind_eq_some_iff.1 h
    obtain ⟨target, -, h⟩ := Option.bind_eq_some_iff.1 h
    obtain ⟨literal, hliteral, h⟩ := Option.bind_eq_some_iff.1 h
    cases h
    refine ⟨fun comparison hmem => ?_, StoredLiteral.isFinite_of_ofJson? inRange hliteral⟩
    obtain ⟨item, -, hitem⟩ := Json.exists_of_mem_mapM hconditions comparison hmem
    exact StoredComparison.isFinite_of_ofJson? inRange hitem
  · cases h

theorem StoredRule.isFinite_of_ofText? {text : String} {stored : StoredRule}
    (h : StoredRule.ofText? read text = some stored) : stored.IsFinite := by
  obtain ⟨value, -, hvalue⟩ := Option.bind_eq_some_iff.1 h
  exact isFinite_of_ofJson? inRange hvalue

end

/-! ## Main statement -/

/--
**The texts of stored rules lose nothing.** Suppose that a numeral is read as a finite number or not
at all, and that a number that was written is read as it was. Then every stored rule with finite
numbers, whatever its texts and tags and whichever payloads are there, is read back from its text;
and whatever is read from any text has finite numbers, so it can be written and read again. The
quick reader gives finite numbers only as well.
-/
theorem stored_text_reads_back {read : Numeral → Option Binary64}
    (inRange : ∀ numeral x, read numeral = some x → x.isFinite = true)
    (kept : ∀ x, x.isFinite = true → read (Json.numberLayout.numeral x) = some x) :
    (∀ stored : StoredRule, stored.IsFinite →
      StoredRule.ofText? read stored.toText = some stored) ∧
    (∀ text stored, StoredRule.ofText? read text = some stored →
      stored.IsFinite ∧ StoredRule.ofText? read stored.toText = some stored) ∧
    (∀ text stored, StoredRule.ofText text = .ok stored → stored.IsFinite) := by
  have reads_back (stored : StoredRule) (finite : stored.IsFinite) :
      StoredRule.ofText? read stored.toText = some stored := by
    rw [@StoredRule.ofText?_toText read id kept stored finite, stored.mapNumbers_id]
  refine ⟨reads_back, fun text stored h => ?_, fun text stored h => ?_⟩
  · have finite := StoredRule.isFinite_of_ofText? inRange h
    exact ⟨finite, reads_back stored finite⟩
  · unfold StoredRule.ofText at h
    split at h
    · next hread =>
      cases h
      exact StoredRule.isFinite_of_ofText? (fun _ _ => Json.isFinite_of_readNumber?) hread
    · cases h

/-- The reader that rounds a numeral once, to the nearest number. -/
def Json.nearestNumber? (numeral : Numeral) : Option Binary64 :=
  if numeral.nearest.isFinite then some numeral.nearest else none

/--
A rule that never binds: no name, unknown tags, characters that need escapes, both payloads in one
literal and none in another. The quick reader agrees with the exact one on its numbers.
-/
theorem stored_text_reads_back_odd :
    let tenth : Binary64 := ⟨true, 0x3FB999999999999A, by decide⟩
    let both : StoredLiteral := ⟨"num\x00ber", some tenth, some "a \"b\"\\\n"⟩
    let neither : StoredLiteral := ⟨"", none, none⟩
    let stored : StoredRule := ⟨[⟨"возраст", "=>", both⟩, ⟨"", "eq", neither⟩], "", neither⟩
    (∀ numeral x, Json.nearestNumber? numeral = some x → x.isFinite = true) ∧
      (∀ x, x.isFinite = true → Json.nearestNumber? (Json.numberLayout.numeral x) = some x) ∧
      stored.IsFinite ∧
      StoredRule.ofText? Json.nearestNumber? stored.toText = some stored ∧
      StoredRule.ofText? Json.readNumber? stored.toText = some stored := by
  intro tenth both neither stored
  have inRange : ∀ numeral x, Json.nearestNumber? numeral = some x → x.isFinite = true := by
    intro numeral x h
    unfold Json.nearestNumber? at h
    split at h
    · next finite => cases h; exact finite
    · cases h
  have kept : ∀ x, x.isFinite = true →
      Json.nearestNumber? (Json.numberLayout.numeral x) = some x := by
    intro x finite
    rw [Json.nearestNumber?, Number.nearest_numeral Json.numberLayout finite, if_pos finite]
  have tenth_finite : both.IsFinite := by
    rintro x ⟨⟩
    decide
  have finite : stored.IsFinite :=
    ⟨List.forall_mem_cons.2 ⟨tenth_finite, List.forall_mem_singleton.2 nofun⟩, nofun⟩
  exact ⟨inRange, kept, finite, (stored_text_reads_back inRange kept).1 stored finite,
    by decide +kernel⟩

end Rulebook
