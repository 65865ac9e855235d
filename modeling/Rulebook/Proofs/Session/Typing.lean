import Rulebook.Proofs.Model.Typing
import Rulebook.Proofs.Session.Pass
import Rulebook.Session.Pass

/-!
# Sessions keep to the declarations

In a session of a model the names are the declared ones and every value is of the kind declared for
its name. Answers are checked for this one by one (`Session.answer_eq_ok_iff`), and the rules of a
model assign such values only, since they fit its schema. So it holds at the start and after each
step (`Session.Typed.step`), and within a pass as well (`Session.Typed.sessionAt`).
-/

namespace Rulebook

/-! ## Bindings -/

/-- The names are the declared ones, and every value is of the kind declared for its name. -/
structure Bindings.Typed (declarations : List Declaration) (bindings : Bindings) : Prop where
  names : ∀ name, name ∈ bindings.names ↔ ∃ declaration ∈ declarations, declaration.name = name
  values : ∀ name value, bindings.value? name = some value →
    ∃ kind, kindOf? declarations name = some kind ∧ kind.Fits value

namespace Bindings

variable {declarations : List Declaration} {bindings : Bindings} {name : String}

theorem typed_foldl_declare (declarations : List Declaration) :
    ((declarations.map (·.name)).foldl declare []).Typed declarations := by
  constructor
  · intro name
    rw [mem_names_foldl_declare]
    simp [names]
  · intro name value h
    rw [value?_foldl_declare] at h
    cases h

theorem Typed.mem_names_iff (h : bindings.Typed declarations) :
    name ∈ bindings.names ↔ (kindOf? declarations name).isSome = true := by
  rw [h.names, ← not_iff_not, Bool.not_eq_true, Option.isSome_eq_false_iff,
    Option.isNone_iff_eq_none, kindOf?_eq_none_iff]
  simp

theorem Typed.mem_names_of_kind (h : bindings.Typed declarations) {kind : ValueKind}
    (declared : kindOf? declarations name = some kind) : name ∈ bindings.names :=
  h.mem_names_iff.2 (by rw [declared]; rfl)

/-- A declared name keeps the bindings typed when it receives a value of its kind. -/
theorem Typed.assign (h : bindings.Typed declarations) {kind : ValueKind} {value : Literal}
    (declared : kindOf? declarations name = some kind) (fits : kind.Fits value) :
    (bindings.assign name value).Typed declarations := by
  refine ⟨fun other => by rw [names_assign, h.names], fun other found hfound => ?_⟩
  by_cases same : name = other
  · subst same
    rw [value?_assign_self (h.mem_names_of_kind declared), Option.some.injEq] at hfound
    exact ⟨kind, declared, hfound ▸ fits⟩
  · rw [value?_assign_of_ne same] at hfound
    exact h.values other found hfound

theorem Typed.clear (h : bindings.Typed declarations) : bindings.clear.Typed declarations := by
  refine ⟨fun name => by rw [names_clear, h.names], fun name value hvalue => ?_⟩
  rw [value?_clear] at hvalue
  cases hvalue

/-- To insert a value under a declared name is to assign it. -/
theorem insert_of_mem (h : name ∈ bindings.names) (value : Literal) :
    bindings.insert name value = bindings.assign name value := by
  rw [insert, declare, if_pos ((has_iff_mem_names _ _).2 h)]

end Bindings

/-! ## Sessions -/

namespace Session

variable {model : Model} {session : Session}

/-- The bindings of the session are those of the model's declarations. -/
structure Typed (model : Model) (session : Session) : Prop where
  parameters : session.parameters.Typed model.parameters
  attributes : session.attributes.Typed model.attributes

theorem typed_ofModel (model : Model) : (ofModel model).Typed model :=
  ⟨Bindings.typed_foldl_declare model.parameters, Bindings.typed_foldl_declare model.attributes⟩

theorem accepts_iff_fits {kind : ValueKind} {value : Literal} :
    accepts kind value = true ↔ kind.Fits value := by
  cases kind with
  | number =>
    cases value with
    | number x => exact ⟨.number, fun | .number finite => finite⟩
    | text text => exact ⟨nofun, nofun⟩
  | choice values =>
    cases value with
    | number x => exact ⟨nofun, nofun⟩
    | text text =>
      rw [accepts, List.contains_iff_mem]
      exact ⟨.choice, fun | .choice listed => listed⟩

/-- An answer is accepted when it is of the kind of its parameter, and then it is recorded. -/
theorem answer_eq_ok_iff {schema : Schema} {name : String} {value : Literal} {after : Session} :
    session.answer schema name value = .ok after ↔
      (∃ kind, schema.parameter? name = some kind ∧ kind.Fits value) ∧
        after = session.setParameter name value := by
  rw [answer_eq]
  cases schema.parameter? name with
  | none => exact ⟨nofun, nofun⟩
  | some kind =>
    simp only [Option.some.injEq, exists_eq_left', ← accepts_iff_fits]
    cases accepts kind value with
    | true => simp [eq_comm]
    | false => simp

/-- A parameter of the model is declared in the session as well. -/
theorem Typed.mem_parameters (h : session.Typed model) {name : String} {kind : ValueKind}
    (declared : model.schema.parameter? name = some kind) : name ∈ session.parameters.names :=
  h.parameters.mem_names_of_kind declared

theorem Typed.mem_attributes (h : session.Typed model) {name : String} {kind : ValueKind}
    (declared : model.schema.attribute? name = some kind) : name ∈ session.attributes.names :=
  h.attributes.mem_names_of_kind declared

theorem Typed.setParameter (h : session.Typed model) {name : String} {kind : ValueKind}
    {value : Literal} (declared : model.schema.parameter? name = some kind)
    (fits : kind.Fits value) : (session.setParameter name value).Typed model := by
  refine ⟨?_, h.attributes⟩
  rw [Session.setParameter, Bindings.insert_of_mem (h.mem_parameters declared)]
  exact h.parameters.assign declared fits

/-- The second session has the value under the parameter, and else it is as the first one. -/
structure Answered (session : Session) (name : String) (value : Literal) (after : Session) :
    Prop where
  attributes : after.attributes = session.attributes
  names : after.parameters.names = session.parameters.names
  value : after.parameters.get? name = some (some value)
  others : ∀ other, other ≠ name → after.parameters.get? other = session.parameters.get? other

theorem Typed.answered (h : session.Typed model) {name : String} {value : Literal}
    {after : Session} (accepted : session.answer model.schema name value = .ok after) :
    session.Answered name value after := by
  obtain ⟨⟨kind, declared, -⟩, rfl⟩ := answer_eq_ok_iff.1 accepted
  refine ⟨rfl, ?_, ?_, fun other different => ?_⟩
  · rw [Session.setParameter, Bindings.insert_of_mem (h.mem_parameters declared),
      Bindings.names_assign]
  · rw [Session.setParameter, Bindings.get?_insert, if_pos rfl]
  · rw [Session.setParameter, Bindings.get?_insert, if_neg different.symm]

theorem Typed.leave (h : session.Typed model) {rule : Rule} (fits : rule.Fits model.schema) :
    (rule.leave session).Typed model := by
  obtain ⟨kind, declared, ofKind⟩ := fits.target
  unfold Rule.leave
  split
  · exact ⟨h.parameters, h.attributes.assign declared ofKind⟩
  · exact h

/-- Rules that fit the schema keep a session typed, however many of them have run. -/
theorem Typed.runPass (h : session.Typed model) {rules : List Rule}
    (fits : ∀ rule ∈ rules, rule.Fits model.schema) :
    (runPass rules session).2.Typed model := by
  induction rules using List.reverseRecOn with
  | nil => exact h
  | append_singleton rules rule ih =>
    obtain ⟨front, last⟩ := List.forall_mem_append.1 fits
    rw [runPass_concat]
    exact (ih front).leave (last rule List.mem_cons_self)

theorem Typed.sessionAt (h : session.Typed model) {rules : List Rule}
    (fits : ∀ rule ∈ rules, rule.Fits model.schema) (position : Nat) :
    (sessionAt rules session position).Typed model :=
  h.runPass fun rule hmem => fits rule (List.mem_of_mem_take hmem)

theorem Typed.step (h : session.Typed model) {rules : List Rule}
    (fits : ∀ rule ∈ rules, rule.Fits model.schema) (step : Step) :
    (session.step model.schema rules step).Typed model := by
  cases step with
  | answer name value =>
    cases hanswer : session.answer model.schema name value with
    | error fault => rwa [step_answer_of_error hanswer]
    | ok after =>
      rw [step_answer_of_ok hanswer]
      obtain ⟨⟨kind, declared, ofKind⟩, rfl⟩ := answer_eq_ok_iff.1 hanswer
      exact h.setParameter declared ofKind
  | run => exact h.runPass fits
  | reset => exact ⟨h.parameters, h.attributes.clear⟩

/-- A session that follows any steps stays typed. -/
theorem Typed.follow (h : session.Typed model) {rules : List Rule}
    (fits : ∀ rule ∈ rules, rule.Fits model.schema) (steps : List Step) :
    (session.follow model.schema rules steps).Typed model := by
  induction steps generalizing session with
  | nil => exact h
  | cons first rest ih => exact ih (h.step fits first)

end Session

/-! ## Main statement -/

/--
**Sessions keep to the declarations.** The rules of a model bind. In a session of the model, after
any answers, passes and resets, the names are those of the questions and of the attributes, and
every value is of the kind that the schema gives to its name. An answer is accepted when it is of
the kind of its parameter; it then changes this parameter only, and otherwise nothing.
-/
theorem session_keeps_declarations (model : Model) :
    ∃ rules, (RuleSet.ofModel model).bind = .ok rules ∧
      ∀ steps : List Session.Step,
        let session := (Session.ofModel model).follow model.schema rules steps
        (∀ name, name ∈ session.parameters.names ↔
          ∃ question ∈ model.questions, question.parameter = name) ∧
        (∀ name, name ∈ session.attributes.names ↔
          ∃ declaration ∈ model.attributes, declaration.name = name) ∧
        (∀ name value, session.parameter? name = some value →
          ∃ kind, model.schema.parameter? name = some kind ∧ kind.Fits value) ∧
        (∀ name value, session.attribute? name = some value →
          ∃ kind, model.schema.attribute? name = some kind ∧ kind.Fits value) ∧
        ∀ name value,
          match session.answer model.schema name value with
          | .ok after =>
            (∃ kind, model.schema.parameter? name = some kind ∧ kind.Fits value) ∧
              session.Answered name value after ∧
              session.step model.schema rules (.answer name value) = after
          | .error _ =>
            (∀ kind, model.schema.parameter? name = some kind → ¬ kind.Fits value) ∧
              session.step model.schema rules (.answer name value) = session := by
  obtain ⟨rules, hbind, fits⟩ := RuleSet.exists_bind_fits model
  refine ⟨rules, hbind, fun steps => ?_⟩
  intro session
  have typed : session.Typed model := (Session.typed_ofModel model).follow fits steps
  refine ⟨fun name => ?_, typed.attributes.names, typed.parameters.values,
    typed.attributes.values, fun name value => ?_⟩
  · rw [typed.parameters.names]
    simp [Model.parameters, Question.declaration]
  · cases hanswer : session.answer model.schema name value with
    | ok after =>
      exact ⟨(Session.answer_eq_ok_iff.1 hanswer).1, typed.answered hanswer,
        Session.step_answer_of_ok hanswer rules⟩
    | error fault =>
      refine ⟨fun kind declared ofKind => ?_, Session.step_answer_of_error hanswer rules⟩
      rw [Session.answer_eq_ok_iff.2 ⟨⟨kind, declared, ofKind⟩, rfl⟩] at hanswer
      cases hanswer

end Rulebook
