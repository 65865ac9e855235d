import Rulebook.Proofs.Session.Typing

/-!
# Sessions that forget their history

What a session of a model still knows after a reset is its answers, and of those only the last one
for each parameter: a refused answer changes nothing, a later one takes the place of an earlier one
(`Bindings.assignEach_lastAnswers`), and what rules derived is forgotten. Answers for different
parameters can be given in any order (`Bindings.assignEach_perm`). So a new session that is given
the last answers is the one that was reset (`Session.reset_follow`), and a pass does the same in
both (`reset_forgets_history`).
-/

namespace Rulebook

/-! ## Answers of a history -/

/-- The answer of a step, where it is one and is accepted. -/
def Session.accepted? (session : Session) (schema : Schema) : Step → Option (String × Literal)
  | .answer name value =>
    match session.answer schema name value with
    | .ok _ => some (name, value)
    | .error _ => none
  | .run => none
  | .reset => none

/-- The answers that are accepted while a session follows the steps, in order. -/
def Session.acceptedAnswers (session : Session) (schema : Schema) (rules : List Rule) :
    List Step → List (String × Literal)
  | [] => []
  | step :: rest =>
    (session.accepted? schema step).toList
      ++ (session.step schema rules step).acceptedAnswers schema rules rest

/-- The answers without those after which the same parameter is answered again. -/
def lastAnswers : List (String × Literal) → List (String × Literal)
  | [] => []
  | answer :: rest =>
    if answer.1 ∈ rest.map (·.1) then lastAnswers rest else answer :: lastAnswers rest

/-- Gives the answers one after another; one that is refused ends it. -/
def Session.answerEach (session : Session) (schema : Schema) :
    List (String × Literal) → Except Fault Session
  | [] => .ok session
  | (name, value) :: rest =>
    match session.answer schema name value with
    | .ok after => after.answerEach schema rest
    | .error fault => .error fault

/-! ## Assigning one value after another -/

namespace Bindings

/-- Gives declared names their values, one after another. -/
def assignEach (bindings : Bindings) (answers : List (String × Literal)) : Bindings :=
  answers.foldl (fun before answer => before.assign answer.1 answer.2) bindings

theorem assignEach_append (bindings : Bindings) (first second : List (String × Literal)) :
    bindings.assignEach (first ++ second) = (bindings.assignEach first).assignEach second :=
  List.foldl_append

/-- A value that is replaced later on need not be assigned. -/
theorem assignEach_assign_of_mem {name : String} {answers : List (String × Literal)}
    (again : name ∈ answers.map (·.1)) (bindings : Bindings) (value : Literal) :
    (bindings.assign name value).assignEach answers = bindings.assignEach answers := by
  induction answers generalizing bindings with
  | nil => cases again
  | cons answer rest ih =>
    unfold assignEach at ih ⊢
    rw [List.foldl_cons, List.foldl_cons]
    by_cases same : name = answer.1
    · rw [same, assign_assign]
    · have again : name ∈ rest.map (·.1) := (List.mem_cons.1 again).resolve_left same
      rw [assign_comm same, ih again]

theorem assignEach_lastAnswers (answers : List (String × Literal)) (bindings : Bindings) :
    bindings.assignEach (lastAnswers answers) = bindings.assignEach answers := by
  induction answers generalizing bindings with
  | nil => rfl
  | cons answer rest ih =>
    rw [lastAnswers]
    split
    · next again => rw [ih, ← assignEach_assign_of_mem again bindings answer.2]; rfl
    · exact ih (bindings.assign answer.1 answer.2)

theorem assignEach_perm {first second : List (String × Literal)} (h : first.Perm second)
    (distinct : (first.map (·.1)).Nodup) (bindings : Bindings) :
    bindings.assignEach first = bindings.assignEach second := by
  apply h.foldl_eq'
  intro one hone other hother before
  by_cases same : one.1 = other.1
  · rw [List.inj_on_of_nodup_map distinct hone hother same]
  · exact assign_comm same before one.2 other.2

end Bindings

theorem lastAnswers_sublist (answers : List (String × Literal)) :
    (lastAnswers answers).Sublist answers := by
  induction answers with
  | nil => exact .slnil
  | cons answer rest ih =>
    rw [lastAnswers]
    split
    · exact ih.cons answer
    · exact ih.cons_cons answer

theorem nodup_lastAnswers (answers : List (String × Literal)) :
    ((lastAnswers answers).map (·.1)).Nodup := by
  induction answers with
  | nil => exact .nil
  | cons answer rest ih =>
    rw [lastAnswers]
    split
    · exact ih
    · next last =>
      refine List.nodup_cons.2 ⟨fun again => last ?_, ih⟩
      exact ((lastAnswers_sublist rest).map _).subset again

/-! ## What a session keeps -/

namespace Session

variable {model : Model} {session : Session}

theorem fits_of_accepted? {schema : Schema} {step : Step} {answer : String × Literal}
    (h : session.accepted? schema step = some answer) :
    ∃ kind, schema.parameter? answer.1 = some kind ∧ kind.Fits answer.2 := by
  cases step with
  | answer name value =>
    rw [accepted?] at h
    split at h
    · next after accepted =>
      cases h
      exact (answer_eq_ok_iff.1 accepted).1
    · cases h
  | run => cases h
  | reset => cases h

/-- A step gives the parameters the value of an accepted answer, and keeps the attributes. -/
theorem Typed.step_keeps (h : session.Typed model) (rules : List Rule) (step : Step) :
    (session.step model.schema rules step).parameters =
        session.parameters.assignEach (session.accepted? model.schema step).toList ∧
      (session.step model.schema rules step).attributes.names = session.attributes.names := by
  cases step with
  | answer name value =>
    cases hanswer : session.answer model.schema name value with
    | error fault =>
      rw [step_answer_of_error hanswer]
      simp [accepted?, hanswer, Bindings.assignEach]
    | ok after =>
      rw [step_answer_of_ok hanswer]
      obtain ⟨⟨kind, declared, -⟩, rfl⟩ := answer_eq_ok_iff.1 hanswer
      refine ⟨?_, rfl⟩
      rw [accepted?, hanswer, Session.setParameter,
        Bindings.insert_of_mem (h.mem_parameters declared)]
      rfl
  | run => exact ⟨parameters_runPass rules session, names_attributes_runPass rules session⟩
  | reset => exact ⟨rfl, Bindings.names_clear session.attributes⟩

theorem Typed.follow_keeps (h : session.Typed model) {rules : List Rule}
    (fits : ∀ rule ∈ rules, rule.Fits model.schema) (steps : List Step) :
    (session.follow model.schema rules steps).parameters =
        session.parameters.assignEach (session.acceptedAnswers model.schema rules steps) ∧
      (session.follow model.schema rules steps).attributes.names = session.attributes.names := by
  induction steps generalizing session with
  | nil => exact ⟨rfl, rfl⟩
  | cons first rest ih =>
    obtain ⟨parameters, attributes⟩ := ih (h.step fits first)
    obtain ⟨parameters', attributes'⟩ := h.step_keeps rules first
    refine ⟨?_, attributes.trans attributes'⟩
    rw [acceptedAnswers, Bindings.assignEach_append, ← parameters']
    exact parameters

theorem fits_of_mem_acceptedAnswers {schema : Schema} {rules : List Rule} {steps : List Step}
    {answer : String × Literal} (h : answer ∈ session.acceptedAnswers schema rules steps) :
    ∃ kind, schema.parameter? answer.1 = some kind ∧ kind.Fits answer.2 := by
  induction steps generalizing session with
  | nil => cases h
  | cons first rest ih =>
    rcases List.mem_append.1 h with here | later
    · exact fits_of_accepted? (Option.mem_toList.1 here)
    · exact ih later

/-- Answers of the kinds of their parameters are all accepted. -/
theorem Typed.answerEach (h : session.Typed model) {answers : List (String × Literal)}
    (fits : ∀ answer ∈ answers,
      ∃ kind, model.schema.parameter? answer.1 = some kind ∧ kind.Fits answer.2) :
    session.answerEach model.schema answers =
      .ok ⟨session.parameters.assignEach answers, session.attributes⟩ := by
  induction answers generalizing session with
  | nil => rfl
  | cons answer rest ih =>
    obtain ⟨⟨kind, declared, ofKind⟩, others⟩ := List.forall_mem_cons.1 fits
    have accepted : session.answer model.schema answer.1 answer.2 =
        .ok (session.setParameter answer.1 answer.2) :=
      answer_eq_ok_iff.2 ⟨⟨kind, declared, ofKind⟩, rfl⟩
    rw [Session.answerEach, accepted]
    dsimp only
    rw [ih (h.setParameter declared ofKind) others, Session.setParameter,
      Bindings.insert_of_mem (h.mem_parameters declared)]
    rfl

/-! ## Resets -/

theorem clear_attributes_ofModel (model : Model) :
    (ofModel model).attributes.clear = (ofModel model).attributes :=
  Bindings.clear_foldl_declare _ []

/-- A session that is reset is a new one that was given the last answers. -/
theorem reset_follow {rules : List Rule} (fits : ∀ rule ∈ rules, rule.Fits model.schema)
    {steps : List Step} {replay : List (String × Literal)}
    (h : replay.Perm (lastAnswers ((ofModel model).acceptedAnswers model.schema rules steps))) :
    (ofModel model).answerEach model.schema replay =
      .ok ((ofModel model).follow model.schema rules steps).reset := by
  have typed := typed_ofModel model
  obtain ⟨parameters, attributes⟩ := typed.follow_keeps fits steps
  have distinct : (replay.map (·.1)).Nodup := (h.map _).nodup_iff.2 (nodup_lastAnswers _)
  have fitting : ∀ answer ∈ replay,
      ∃ kind, model.schema.parameter? answer.1 = some kind ∧ kind.Fits answer.2 := by
    intro answer hmem
    exact fits_of_mem_acceptedAnswers ((lastAnswers_sublist _).subset (h.subset hmem))
  rw [typed.answerEach fitting, Bindings.assignEach_perm h distinct,
    Bindings.assignEach_lastAnswers, ← parameters]
  -- A reset leaves the names without values, and so they were at the start.
  rw [← clear_attributes_ofModel, ← Bindings.clear_congr attributes]
  rfl

end Session

/-! ## Main statement -/

/--
**A reset makes a session independent of its history.** The rules of a model bind. Take any session
of the model, after answers, passes and resets in any order, and a new one that is given, in any
order, the last accepted answer to each parameter; all of these are accepted again. Then a pass in
the first session behind a reset gives the same report and the same parameters and attributes as a
pass in the new one.
-/
theorem reset_forgets_history (model : Model) :
    ∃ rules, (RuleSet.ofModel model).bind = .ok rules ∧
      ∀ (steps : List Session.Step) (replay : List (String × Literal)),
        replay.Perm
            (lastAnswers ((Session.ofModel model).acceptedAnswers model.schema rules steps)) →
          ∃ fresh, (Session.ofModel model).answerEach model.schema replay = .ok fresh ∧
            runPass rules ((Session.ofModel model).follow model.schema rules steps).reset =
              runPass rules fresh := by
  obtain ⟨rules, hbind, fits⟩ := RuleSet.exists_bind_fits model
  exact ⟨rules, hbind, fun steps replay h => ⟨_, Session.reset_follow fits h, rfl⟩⟩

/--
The segment is answered three times, once with a value that is refused, and the second rule has
fired on the way; the new session is given its two answers in the opposite order.
-/
theorem reset_forgets_history_answered_again :
    let segments : ValueKind := .choice ["young", "old"]
    let plans : ValueKind := .choice ["monthly", "yearly"]
    let tiers : ValueKind := .choice ["basic", "plus"]
    let model : Model :=
      ⟨"insurance", [⟨"tier", tiers⟩, ⟨"offer", tiers⟩],
        [⟨"Segment?", "segment", segments⟩, ⟨"Plan?", "plan", plans⟩],
        ["if segment == old then tier = plus", "if segment == young then offer = basic"]⟩
    let rules : List Rule :=
      [⟨[⟨"segment", .equal, .text "old"⟩], "tier", .text "plus"⟩,
        ⟨[⟨"segment", .equal, .text "young"⟩], "offer", .text "basic"⟩]
    let steps : List Session.Step :=
      [.answer "segment" (.text "young"), .run, .answer "segment" (.text "adult"), .reset,
        .answer "plan" (.text "yearly"), .run, .answer "segment" (.text "old"), .run]
    let replay : List (String × Literal) :=
      [("segment", .text "old"), ("plan", .text "yearly")]
    (RuleSet.ofModel model).bind = .ok rules ∧
      lastAnswers ((Session.ofModel model).acceptedAnswers model.schema rules steps)
        = [("plan", .text "yearly"), ("segment", .text "old")] ∧
      ∃ fresh, (Session.ofModel model).answerEach model.schema replay = .ok fresh ∧
        runPass rules ((Session.ofModel model).follow model.schema rules steps).reset
          = runPass rules fresh := by
  intro segments plans tiers model rules steps replay
  have bound : (RuleSet.ofModel model).bind = .ok rules := by decide +kernel
  have last : lastAnswers ((Session.ofModel model).acceptedAnswers model.schema rules steps)
      = [("plan", .text "yearly"), ("segment", .text "old")] := by
    decide +kernel
  obtain ⟨rules', hbind, replayed⟩ := reset_forgets_history model
  obtain rfl : rules = rules' := Except.ok.inj (bound.symm.trans hbind)
  exact ⟨bound, last, replayed steps replay (last ▸ List.Perm.swap _ _ [])⟩

end Rulebook
