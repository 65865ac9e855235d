import Rulebook.Model.ModelText
import Rulebook.Proofs.Json.ReadBack
import Rulebook.Proofs.Outcome

/-!
# Texts of models

The fields that say a kind of values stand in the same object as the name or the text they are
about. They have keys of their own, so the reader takes the object apart as the writer put it
together (`ValueKind.ofMembers?_fields`). Every model is the model of its value
(`Model.ofJson?_toJson`), and so the model of its text if it is valid (`model_text_reads_back`).
-/

namespace Rulebook

open Json (Value Members)

/-! ## Writing -/

theorem ValueKind.isWritable_fields (kind : ValueKind) :
    ∀ field ∈ kind.fields, field.2.IsWritable := by
  cases kind with
  | number => exact List.forall_mem_singleton.2 (Value.isWritable_ofText _)
  | choice values =>
    have listed := Value.isWritable_map Value.isWritable_ofText values
    exact List.forall_mem_cons.2
      ⟨Value.isWritable_ofText _, List.forall_mem_singleton.2 listed⟩

theorem Declaration.isWritable_toJson (declaration : Declaration) :
    declaration.toJson.IsWritable :=
  Value.isWritable_ofFields
    (List.forall_mem_cons.2 ⟨Value.isWritable_ofText _, declaration.kind.isWritable_fields⟩)

theorem Question.isWritable_toJson (question : Question) : question.toJson.IsWritable := by
  apply Value.isWritable_ofFields
  have kind := question.kind.isWritable_fields
  exact List.forall_mem_cons.2 ⟨Value.isWritable_ofText _,
    List.forall_mem_cons.2 ⟨Value.isWritable_ofText _, kind⟩⟩

theorem Model.isWritable_toJson (model : Model) : model.toJson.IsWritable := by
  apply Value.isWritable_ofFields
  intro field hfield
  simp only [List.mem_cons, List.not_mem_nil, or_false] at hfield
  rcases hfield with rfl | rfl | rfl | rfl
  · exact Value.isWritable_ofText _
  · exact Value.isWritable_map Declaration.isWritable_toJson _
  · exact Value.isWritable_map Question.isWritable_toJson _
  · exact Value.isWritable_map Value.isWritable_ofText _

theorem Model.read?_toText (model : Model) : Json.read? model.toText = some model.toJson :=
  Json.read?_toText model.isWritable_toJson

/-! ## Kinds of values -/

/-- The lists of choices are the deepest values in the fields of a kind. -/
theorem ValueKind.isSound_fields (depth : Nat) (kind : ValueKind) :
    ∀ field ∈ kind.fields, field.2.isSound (depth + 1) = true := by
  cases kind with
  | number => exact List.forall_mem_singleton.2 (Value.isSound_ofText _ _)
  | choice values =>
    have listed : (Value.array (values.map Value.ofText)).isSound (depth + 1) = true := by
      apply Value.isSound_array
      intro value hvalue
      obtain ⟨text, -, rfl⟩ := List.mem_map.1 hvalue
      exact Value.isSound_ofText _ text
    exact List.forall_mem_cons.2 ⟨Value.isSound_ofText _ _, List.forall_mem_singleton.2 listed⟩

/-- The keys that say a kind, whatever kind it is. -/
def ValueKind.keys : List String :=
  ["type", "values"]

theorem ValueKind.mem_keys_of_mem_fields {kind : ValueKind} :
    ∀ field ∈ kind.fields, field.1 ∈ keys := by
  cases kind with
  | number => exact List.forall_mem_singleton.2 (List.mem_cons_self ..)
  | choice values =>
    have listed : "values" ∈ keys := List.mem_cons_of_mem _ (List.mem_cons_self ..)
    exact List.forall_mem_cons.2 ⟨List.mem_cons_self .., List.forall_mem_singleton.2 listed⟩

theorem ValueKind.ne_of_mem_fields {key : String} (h : key ∉ keys) {kind : ValueKind} :
    ∀ field ∈ kind.fields, field.1 ≠ key := by
  rintro field hfield rfl
  exact h (mem_keys_of_mem_fields field hfield)

theorem KindTag.ofJson?_number : KindTag.ofJson? (.ofText "number") = some .number := by
  simp [ofJson?, Value.ofText]

theorem KindTag.ofJson?_choice : KindTag.ofJson? (.ofText "choice") = some .choice := by
  simp [ofJson?, Value.ofText]

theorem ValueKind.ofMembers?_fields (kind : ValueKind) :
    ValueKind.ofMembers? kind.fields = some kind := by
  cases kind with
  | number =>
    have tag : Members.field? ValueKind.number.fields "type" = some (some (.ofText "number")) := rfl
    simp only [ofMembers?, tag, Option.bind_eq_bind, Option.bind_some, KindTag.ofJson?_number]
    rfl
  | choice values =>
    have tag : Members.field? (ValueKind.choice values).fields "type"
        = some (some (.ofText "choice")) := rfl
    have listed : Members.field? (ValueKind.choice values).fields "values"
        = some (some (.array (values.map Value.ofText))) := rfl
    simp only [ofMembers?, tag, listed, Option.bind_eq_bind, Option.bind_some,
      KindTag.ofJson?_choice, Value.texts?_array]
    rfl

/-- A member with another key changes nothing about the kind. -/
theorem ValueKind.ofMembers?_cons {key : String} (h : key ∉ keys) (value : Value)
    (members : Members) :
    ValueKind.ofMembers? ((key, value) :: members) = ValueKind.ofMembers? members := by
  have tag : key ≠ "type" := List.ne_of_not_mem_cons h
  have values : key ≠ "values" :=
    List.ne_of_not_mem_cons (List.not_mem_of_not_mem_cons h)
  simp only [ofMembers?, Members.field?_cons_of_ne tag, Members.field?_cons_of_ne values]

/-! ## Declarations and questions -/

theorem elementMembers?_ofFields {fields : List (String × Value)}
    (h : ∀ field ∈ fields, field.2.isSound (elementDepth - 1) = true) :
    elementMembers? (.ofFields fields) = some fields := by
  have sound : (Value.ofFields fields).isSound elementDepth = true := Value.isSound_ofFields h
  rw [elementMembers?, if_pos sound, Value.members?_ofFields]

theorem requiredText?_cons_self {members : Members} {key : String}
    (h : ∀ member ∈ members, member.1 ≠ key) (text : String) :
    requiredText? ((key, .ofText text) :: members) key = some text := by
  simp only [requiredText?, Members.field?_cons_self h, Option.bind_eq_bind, Option.bind_some,
    Value.text?_ofText]

theorem requiredText?_cons_of_ne {key other : String} (h : other ≠ key) (value : Value)
    (members : Members) :
    requiredText? ((other, value) :: members) key = requiredText? members key := by
  simp only [requiredText?, Members.field?_cons_of_ne h]

theorem Declaration.ofJson?_toJson (declaration : Declaration) :
    Declaration.ofJson? declaration.toJson = some declaration := by
  obtain ⟨name, kind⟩ := declaration
  have own : "name" ∉ ValueKind.keys := by decide
  have members : elementMembers? (Declaration.mk name kind).toJson
      = some (("name", .ofText name) :: kind.fields) :=
    elementMembers?_ofFields
      (List.forall_mem_cons.2 ⟨Value.isSound_ofText _ _, kind.isSound_fields _⟩)
  have first : requiredText? (("name", .ofText name) :: kind.fields) "name" = some name :=
    requiredText?_cons_self (ValueKind.ne_of_mem_fields own) name
  have second : ValueKind.ofMembers? (("name", .ofText name) :: kind.fields) = some kind := by
    rw [ValueKind.ofMembers?_cons own, ValueKind.ofMembers?_fields]
  simp only [ofJson?, members, Option.bind_eq_bind, Option.bind_some, first, second]
  rfl

theorem Question.ofJson?_toJson (question : Question) :
    Question.ofJson? question.toJson = some question := by
  obtain ⟨text, parameter, kind⟩ := question
  have text_own : "text" ∉ ValueKind.keys := by decide
  have param_own : "param" ∉ ValueKind.keys := by decide
  have apart : "text" ≠ "param" := by decide
  have members : elementMembers? (Question.mk text parameter kind).toJson
      = some (("text", .ofText text) :: ("param", .ofText parameter) :: kind.fields) :=
    elementMembers?_ofFields (List.forall_mem_cons.2 ⟨Value.isSound_ofText _ _,
      List.forall_mem_cons.2 ⟨Value.isSound_ofText _ _, kind.isSound_fields _⟩⟩)
  have first : requiredText? (("text", .ofText text) :: ("param", .ofText parameter)
      :: kind.fields) "text" = some text :=
    requiredText?_cons_self
      (List.forall_mem_cons.2 ⟨apart.symm, ValueKind.ne_of_mem_fields text_own⟩) text
  have second : requiredText? (("text", .ofText text) :: ("param", .ofText parameter)
      :: kind.fields) "param" = some parameter := by
    rw [requiredText?_cons_of_ne apart,
      requiredText?_cons_self (ValueKind.ne_of_mem_fields param_own)]
  have third : ValueKind.ofMembers? (("text", .ofText text) :: ("param", .ofText parameter)
      :: kind.fields) = some kind := by
    rw [ValueKind.ofMembers?_cons text_own, ValueKind.ofMembers?_cons param_own,
      ValueKind.ofMembers?_fields]
  simp only [ofJson?, members, Option.bind_eq_bind, Option.bind_some, first, second, third]
  rfl

/-! ## Models -/

theorem listOf?_map {α : Type} {write : α → Value} {read : Value → Option α}
    (h : ∀ item, read (write item) = some item) (items : List α) :
    listOf? read (some (.array (items.map write))) = some items :=
  Json.mapM_map_eq_self h items

theorem Model.fields?_toJson (model : Model) :
    model.toJson.fields? ["name", "attributes", "questions", "derivation_rules"]
      = some [some (.ofText model.name),
          some (.array (model.attributes.map Declaration.toJson)),
          some (.array (model.questions.map Question.toJson)),
          some (.array (model.rules.map Value.ofText))] := by
  rw [toJson, Value.fields?_ofFields]
  rfl

/-- **A model is the model of its value**, be it valid or not. -/
theorem Model.ofJson?_toJson (model : Model) : Model.ofJson? model.toJson = some model := by
  simp only [ofJson?, fields?_toJson, Option.bind_eq_bind, Option.bind_some, Value.text?_ofText,
    listOf?_map Declaration.ofJson?_toJson, listOf?_map Question.ofJson?_toJson,
    listOf?_map Value.text?_ofText]
  rfl

/-- The text of a model is accepted or refused as the model is. -/
theorem Model.ofText_toText (model : Model) :
    Model.ofText model.toText = model.validate.map fun _ => model := by
  simp only [ofText, read?_toText, Option.bind_some, ofJson?_toJson]
  cases model.validate <;> rfl

/-- What is read from a text has been validated. -/
theorem Model.validate_of_ofText {text : String} {model : Model}
    (h : Model.ofText text = .ok model) : model.validate = .ok () := by
  unfold ofText at h
  split at h
  · next read _ =>
    obtain ⟨valid, same⟩ := check_bind_eq_ok_iff.1 h
    cases same
    exact valid
  · cases h

/-! ## Main statement -/

/--
**A model survives its text.** The text of a valid model, whatever its names, texts, choices and
rules say and however many there are, gives that model, all its lists in their order. What is read
from any text is valid, so it can be written and read again. The text of a model that is not valid
is refused for the model's own fault.
-/
theorem model_text_reads_back :
    (∀ model : Model, model.validate = .ok () → Model.ofText model.toText = .ok model) ∧
    (∀ text model, Model.ofText text = .ok model →
      model.validate = .ok () ∧ Model.ofText model.toText = .ok model) ∧
    (∀ model : Model, ∀ fault, model.validate = .error fault →
      Model.ofText model.toText = .error fault) := by
  have reads_back (model : Model) (valid : model.validate = .ok ()) :
      Model.ofText model.toText = .ok model := by
    rw [Model.ofText_toText, valid]
    rfl
  refine ⟨reads_back, fun text model h => ?_, fun model fault refused => ?_⟩
  · have valid := Model.validate_of_ofText h
    exact ⟨valid, reads_back model valid⟩
  · rw [Model.ofText_toText, refused]
    rfl

/--
Names that are keys of the text as well, characters that need escapes, a choice between equal texts,
and a rule that is no rule.
-/
theorem model_text_reads_back_keys :
    let type : Declaration := ⟨"type", .choice ["a \"b\"", "a \"b\""]⟩
    let values : Declaration := ⟨"values", .number⟩
    let question : Question := ⟨"Возраст?\n", "param", .choice ["", "\\", "\x00"]⟩
    let model : Model := ⟨"name", [type, values], [question], ["no rule"]⟩
    model.validate = .ok () ∧ Model.ofText model.toText = .ok model := by
  intro type values question model
  have valid : model.validate = .ok () := by decide
  exact ⟨valid, model_text_reads_back.1 model valid⟩
end Rulebook
