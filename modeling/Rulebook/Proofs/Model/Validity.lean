import Mathlib.Data.List.Nodup
import Rulebook.Model.Basic
import Rulebook.Proofs.Outcome
import Rulebook.Session.Basic

/-!
# What a valid model declares

Validation goes through the attributes and then through the questions, each time with the names that
it has seen. It accepts just the models whose names and texts are not blank, whose choices offer a
choice, and that declare no name twice (`Model.validate_eq_ok_iff`). In such a model the schema
gives every name the kind of its one declaration, and a session starts with one entry without value
for each declaration (`validate_exact`).
-/

namespace Rulebook

/-! ## Valid models -/

/-- The text has a character other than white space. -/
def Text.HasContent (text : String) : Prop :=
  ∃ c ∈ text.toList, Text.isBlank c = false

/-- The name is not blank, and a choice is between two values at least. -/
structure Declaration.IsValid (declaration : Declaration) : Prop where
  name : Text.HasContent declaration.name
  choices : ∀ values, declaration.kind = .choice values → 2 ≤ values.length

structure Question.IsValid (question : Question) : Prop where
  text : Text.HasContent question.text
  declaration : question.declaration.IsValid

structure Model.IsValid (model : Model) : Prop where
  name : Text.HasContent model.name
  nonempty : model.attributes ≠ []
  attributes : ∀ declaration ∈ model.attributes, declaration.IsValid
  questions : ∀ question ∈ model.questions, question.IsValid
  distinctAttributes : (model.attributes.map (·.name)).Nodup
  distinctParameters : (model.questions.map (·.parameter)).Nodup

/-! ## Checks of one declaration or question -/

theorem Text.isBlankText_eq_false_iff {text : String} :
    Text.isBlankText text = false ↔ Text.HasContent text := by
  simp [isBlankText, HasContent]

theorem Declaration.validate_eq_ok_iff {declaration : Declaration} :
    declaration.validate = .ok () ↔ declaration.IsValid := by
  obtain ⟨name, kind⟩ := declaration
  unfold validate
  cases blank : Text.isBlankText name with
  | true =>
    have unnamed : ¬ Text.HasContent name := by simp [← Text.isBlankText_eq_false_iff, blank]
    rw [if_pos rfl]
    exact ⟨nofun, fun valid => absurd valid.name unnamed⟩
  | false =>
    have named : Text.HasContent name := Text.isBlankText_eq_false_iff.1 blank
    rw [if_neg Bool.false_ne_true]
    cases kind with
    | number => exact ⟨fun _ => ⟨named, nofun⟩, fun _ => rfl⟩
    | choice values =>
      dsimp only
      split
      · next few =>
        refine ⟨nofun, fun valid => ?_⟩
        have := valid.choices values rfl
        omega
      · next enough =>
        refine ⟨fun _ => ⟨named, ?_⟩, fun _ => rfl⟩
        rintro _ ⟨⟩
        omega

/-! ## Checks of all -/

/-- The names are distinct, and none of them was seen before. -/
structure Unseen (seen names : List String) : Prop where
  nodup : names.Nodup
  disjoint : names.Disjoint seen

theorem unseen_nil (seen : List String) : Unseen seen [] :=
  ⟨.nil, List.disjoint_nil_left seen⟩

/-- The first name is seen when the others are looked at. -/
theorem unseen_cons_iff {seen names : List String} {name : String} :
    Unseen seen (name :: names) ↔ name ∉ seen ∧ Unseen (name :: seen) names := by
  constructor
  · rintro ⟨nodup, disjoint⟩
    obtain ⟨once, nodup⟩ := List.nodup_cons.1 nodup
    obtain ⟨new, disjoint⟩ := List.disjoint_cons_left.1 disjoint
    exact ⟨new, nodup, List.disjoint_cons_right.2 ⟨once, disjoint⟩⟩
  · rintro ⟨new, nodup, disjoint⟩
    obtain ⟨once, disjoint⟩ := List.disjoint_cons_right.1 disjoint
    exact ⟨List.nodup_cons.2 ⟨once, nodup⟩, List.disjoint_cons_left.2 ⟨new, disjoint⟩⟩

theorem unseen_nil_iff {names : List String} : Unseen [] names ↔ names.Nodup :=
  ⟨Unseen.nodup, fun nodup => ⟨nodup, List.disjoint_nil_right names⟩⟩

/-- A repeated name is refused, and a new one is remembered. -/
theorem unseen_step_eq_ok_iff {seen : List String} {name : String} {cause : ModelCause}
    {onward : Except Fault Unit} :
    (if seen.contains name then .error (.model cause) else onward) = .ok () ↔
      name ∉ seen ∧ onward = .ok () := by
  by_cases known : name ∈ seen
  · rw [if_pos (by simpa using known)]
    exact ⟨nofun, fun h => absurd known h.1⟩
  · rw [if_neg (by simpa using known)]
    exact (and_iff_right known).symm

theorem validateAttributes_eq_ok_iff {seen : List String} {declarations : List Declaration} :
    validateAttributes seen declarations = .ok () ↔
      (∀ declaration ∈ declarations, declaration.IsValid) ∧
        Unseen seen (declarations.map (·.name)) := by
  induction declarations generalizing seen with
  | nil => exact ⟨fun _ => ⟨nofun, unseen_nil seen⟩, fun _ => rfl⟩
  | cons declaration rest ih =>
    rw [validateAttributes, check_bind_eq_ok_iff, Declaration.validate_eq_ok_iff,
      unseen_step_eq_ok_iff, ih, List.forall_mem_cons, List.map_cons, unseen_cons_iff]
    constructor
    · rintro ⟨first, new, others, unseen⟩
      exact ⟨⟨first, others⟩, new, unseen⟩
    · rintro ⟨⟨first, others⟩, new, unseen⟩
      exact ⟨first, new, others, unseen⟩

theorem validateQuestions_eq_ok_iff {seen : List String} {questions : List Question} :
    validateQuestions seen questions = .ok () ↔
      (∀ question ∈ questions, question.IsValid) ∧
        Unseen seen (questions.map (·.parameter)) := by
  induction questions generalizing seen with
  | nil => exact ⟨fun _ => ⟨nofun, unseen_nil seen⟩, fun _ => rfl⟩
  | cons question rest ih =>
    rw [validateQuestions, List.forall_mem_cons, List.map_cons, unseen_cons_iff]
    cases blank : Text.isBlankText question.text with
    | true =>
      have wordless : ¬ Text.HasContent question.text := by
        simp [← Text.isBlankText_eq_false_iff, blank]
      rw [if_pos rfl]
      exact ⟨nofun, fun h => absurd h.1.1.text wordless⟩
    | false =>
      have worded := Text.isBlankText_eq_false_iff.1 blank
      rw [if_neg Bool.false_ne_true, check_bind_eq_ok_iff, Declaration.validate_eq_ok_iff,
        unseen_step_eq_ok_iff, ih]
      constructor
      · rintro ⟨first, new, others, unseen⟩
        exact ⟨⟨⟨worded, first⟩, others⟩, new, unseen⟩
      · rintro ⟨⟨first, others⟩, new, unseen⟩
        exact ⟨first.declaration, new, others, unseen⟩

/-- **Validation accepts the valid models and no others.** -/
theorem Model.validate_eq_ok_iff {model : Model} : model.validate = .ok () ↔ model.IsValid := by
  unfold validate
  cases blank : Text.isBlankText model.name with
  | true =>
    have unnamed : ¬ Text.HasContent model.name := by
      simp [← Text.isBlankText_eq_false_iff, blank]
    rw [if_pos rfl]
    exact ⟨nofun, fun valid => absurd valid.name unnamed⟩
  | false =>
    have named := Text.isBlankText_eq_false_iff.1 blank
    rw [if_neg Bool.false_ne_true]
    cases empty : model.attributes.isEmpty with
    | true =>
      rw [if_pos rfl]
      exact ⟨nofun, fun valid => absurd (List.isEmpty_iff.1 empty) valid.nonempty⟩
    | false =>
      have nonempty := List.isEmpty_eq_false_iff.1 empty
      rw [if_neg Bool.false_ne_true, check_bind_eq_ok_iff, validateAttributes_eq_ok_iff,
        validateQuestions_eq_ok_iff, unseen_nil_iff, unseen_nil_iff]
      constructor
      · rintro ⟨⟨attributes, distinct⟩, questions, distinct'⟩
        exact ⟨named, nonempty, attributes, questions, distinct, distinct'⟩
      · intro valid
        exact ⟨⟨valid.attributes, valid.distinctAttributes⟩, valid.questions,
          valid.distinctParameters⟩

/-! ## Refusals -/

/-- The model itself is at fault. -/
def Fault.IsModel (fault : Fault) : Prop :=
  ∃ cause, fault = .model cause

theorem isModel_model (cause : ModelCause) : (Fault.model cause).IsModel :=
  ⟨cause, rfl⟩

theorem faultsOnly_validateDeclaration (declaration : Declaration) :
    FaultsOnly Fault.IsModel declaration.validate := by
  unfold Declaration.validate
  split
  · exact faultsOnly_error (isModel_model _)
  · split
    · exact faultsOnly_ok ()
    · split
      · exact faultsOnly_error (isModel_model _)
      · exact faultsOnly_ok ()

theorem faultsOnly_validateAttributes (seen : List String) (declarations : List Declaration) :
    FaultsOnly Fault.IsModel (validateAttributes seen declarations) := by
  induction declarations generalizing seen with
  | nil => exact faultsOnly_ok ()
  | cons declaration rest ih =>
    refine (faultsOnly_validateDeclaration declaration).bind fun _ => ?_
    split
    · exact faultsOnly_error (isModel_model _)
    · exact ih _

theorem faultsOnly_validateQuestions (seen : List String) (questions : List Question) :
    FaultsOnly Fault.IsModel (validateQuestions seen questions) := by
  induction questions generalizing seen with
  | nil => exact faultsOnly_ok ()
  | cons question rest ih =>
    rw [validateQuestions]
    split
    · exact faultsOnly_error (isModel_model _)
    · refine (faultsOnly_validateDeclaration question.declaration).bind fun _ => ?_
      split
      · exact faultsOnly_error (isModel_model _)
      · exact ih _

theorem faultsOnly_validateModel (model : Model) : FaultsOnly Fault.IsModel model.validate := by
  unfold Model.validate
  split
  · exact faultsOnly_error (isModel_model _)
  · split
    · exact faultsOnly_error (isModel_model _)
    · exact (faultsOnly_validateAttributes [] model.attributes).bind fun _ =>
        faultsOnly_validateQuestions [] model.questions

/-! ## Declarations without repetition -/

/-- Among distinct names the last declaration of a name is its only one. -/
theorem kindOf?_of_nodup {declarations : List Declaration}
    (distinct : (declarations.map (·.name)).Nodup) {declaration : Declaration}
    (h : declaration ∈ declarations) :
    kindOf? declarations declaration.name = some declaration.kind := by
  cases found : declarations.reverse.find? (·.name == declaration.name) with
  | none =>
    have absent := List.find?_eq_none.1 found declaration (List.mem_reverse.2 h)
    simp at absent
  | some other =>
    have mem : other ∈ declarations := List.mem_reverse.1 (List.mem_of_find?_eq_some found)
    have same : other.name = declaration.name := by simpa using List.find?_some found
    obtain rfl := List.inj_on_of_nodup_map distinct mem h same
    rw [kindOf?, found, Option.map_some]

theorem Bindings.declared_of_nodup {names : List String} (distinct : names.Nodup) :
    names.foldl declare [] = names.map (·, none) :=
  foldl_declare_of_nodup distinct fun _ _ => List.not_mem_nil

/-! ## Main statement -/

/-- The schema of the model and its new sessions say just what its declarations say. -/
structure Model.DeclaresOnce (model : Model) : Prop where
  parameterKind : ∀ question ∈ model.questions,
    model.schema.parameter? question.parameter = some question.kind
  attributeKind : ∀ declaration ∈ model.attributes,
    model.schema.attribute? declaration.name = some declaration.kind
  noParameter : ∀ name, (∀ question ∈ model.questions, question.parameter ≠ name) →
    model.schema.parameter? name = none
  noAttribute : ∀ name, (∀ declaration ∈ model.attributes, declaration.name ≠ name) →
    model.schema.attribute? name = none
  /-- A name that is declared both ways has the kind of the parameter. -/
  hidden : ∀ question ∈ model.questions, ∀ declaration ∈ model.attributes,
    declaration.name = question.parameter →
      model.schema.lookup? declaration.name = some question.kind
  /-- One entry for each question, without value; the names of the entries are distinct. -/
  parameters : (Session.ofModel model).parameters = model.questions.map (·.parameter, none)
  attributes : (Session.ofModel model).attributes = model.attributes.map (·.name, none)
  nodupParameters : (Session.ofModel model).parameters.names.Nodup
  nodupAttributes : (Session.ofModel model).attributes.names.Nodup

theorem Model.map_name_parameters (model : Model) :
    model.parameters.map (·.name) = model.questions.map (·.parameter) := by
  rw [parameters, List.map_map]
  rfl

theorem Model.IsValid.declaresOnce {model : Model} (valid : model.IsValid) :
    model.DeclaresOnce := by
  have distinct : (model.parameters.map (·.name)).Nodup :=
    model.map_name_parameters ▸ valid.distinctParameters
  have parameterKind : ∀ question ∈ model.questions,
      model.schema.parameter? question.parameter = some question.kind :=
    fun question hmem => kindOf?_of_nodup distinct (List.mem_map_of_mem hmem)
  have parameters : (Session.ofModel model).parameters
      = (model.parameters.map (·.name)).map (·, none) :=
    Bindings.declared_of_nodup distinct
  have attributes : (Session.ofModel model).attributes
      = (model.attributes.map (·.name)).map (·, none) :=
    Bindings.declared_of_nodup valid.distinctAttributes
  constructor
  case parameterKind => exact parameterKind
  case attributeKind => exact fun declaration => kindOf?_of_nodup valid.distinctAttributes
  case noParameter =>
    intro name absent
    refine kindOf?_eq_none_iff.2 fun declaration hmem => ?_
    obtain ⟨question, asked, rfl⟩ := List.mem_map.1 hmem
    exact absent question asked
  case noAttribute => exact fun name absent => kindOf?_eq_none_iff.2 absent
  case hidden =>
    intro question hmem declaration _ same
    rw [same, Schema.lookup?, parameterKind question hmem, Option.some_or]
  case parameters => rw [parameters, model.map_name_parameters, List.map_map]; rfl
  case attributes => rw [attributes, List.map_map]; rfl
  case nodupParameters => simpa [parameters, Bindings.names, Function.comp_def] using distinct
  case nodupAttributes =>
    simpa [attributes, Bindings.names, Function.comp_def] using valid.distinctAttributes

/--
**Validation is exact, and a valid model declares each name once.** A model passes just when it is
valid; any other is refused with a fault of the model. In a model that passes, the schema gives each
parameter and each attribute the kind that its question or its declaration says, gives a name that
is declared both ways the kind of the parameter, and knows no other names. Its new sessions have one
entry for each question and one for each attribute, all without value.
-/
theorem validate_exact (model : Model) :
    (model.validate = .ok () ↔ model.IsValid) ∧
    (∀ fault, model.validate = .error fault → ∃ cause, fault = .model cause) ∧
    (model.validate = .ok () → model.DeclaresOnce) :=
  ⟨Model.validate_eq_ok_iff, faultsOnly_validateModel model,
    fun valid => (Model.validate_eq_ok_iff.1 valid).declaresOnce⟩

end Rulebook
