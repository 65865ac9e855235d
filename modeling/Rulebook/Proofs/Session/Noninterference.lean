import Rulebook.Proofs.Session.Dependence

/-!
# What cannot influence a pass

A pass reads a session at the names that conditions mention, and it asks whether targets are
attributes. Sessions that agree on this agree after every rule as well (`AgreeFor.leave`), although
rules overwrite what later conditions read. So both give the same report (`AgreeFor.pass`) and the
same values to what they derive, and what no condition mentions has no part in it
(`runPass_noninterference`).
-/

namespace Rulebook

/-! ## Sessions that agree -/

/--
Both sessions have the same under every name that a condition mentions, and the same targets are
attributes of them. A parameter without value is not the same as none: it hides an attribute.
-/
structure AgreeFor (rules : List Rule) (session session' : Session) : Prop where
  parameters : ∀ rule ∈ rules, ∀ comparison ∈ rule.condition,
    session.parameters.get? comparison.left = session'.parameters.get? comparison.left
  attributes : ∀ rule ∈ rules, ∀ comparison ∈ rule.condition,
    session.attributes.get? comparison.left = session'.attributes.get? comparison.left
  targets : ∀ rule ∈ rules, session.attributes.has rule.target = session'.attributes.has rule.target

namespace AgreeFor

variable {rules : List Rule} {session session' : Session}

theorem agreeOn (h : AgreeFor rules session session') {rule : Rule} (hrule : rule ∈ rules) :
    rule.AgreeOn session session' := by
  intro comparison hmem
  unfold Session.resolve? Session.attribute? Bindings.value?
  rw [h.parameters rule hrule comparison hmem, h.attributes rule hrule comparison hmem]

theorem fires_eq (h : AgreeFor rules session session') {rule : Rule} (hrule : rule ∈ rules) :
    rule.fires session = rule.fires session' :=
  Rule.fires_congr (h.agreeOn hrule) (h.targets rule hrule)

/-- A rule does not end the agreement: both sessions receive its value, or none of them does. -/
theorem leave (h : AgreeFor rules session session') {rule : Rule} (hrule : rule ∈ rules) :
    AgreeFor rules (rule.leave session) (rule.leave session') where
  parameters := by
    simpa only [Rule.parameters_leave] using h.parameters
  attributes := by
    intro other hother comparison hmem
    rw [Rule.get?_attributes_leave, Rule.get?_attributes_leave, h.fires_eq hrule,
      h.attributes other hother comparison hmem]
  targets := by
    simpa only [Rule.has_attributes_leave] using h.targets

/-- Rules give the same report in both sessions, and leave sessions that agree. -/
theorem pass (h : AgreeFor rules session session') {front : List Rule} (hfront : front ⊆ rules) :
    (runPass front session).1 = (runPass front session').1 ∧
      AgreeFor rules (runPass front session).2 (runPass front session').2 := by
  induction front using List.reverseRecOn with
  | nil => exact ⟨rfl, h⟩
  | append_singleton front rule ih =>
    obtain ⟨hfront, hrule⟩ := List.append_subset.1 hfront
    have hrule : rule ∈ rules := hrule List.mem_cons_self
    obtain ⟨report, after⟩ := ih hfront
    rw [runPass_concat, runPass_concat]
    refine ⟨?_, after.leave hrule⟩
    rw [report, Rule.reportAt_congr (after.agreeOn hrule) (after.targets rule hrule)]

end AgreeFor

/-! ## What a pass derives -/

/-- A rule at one of the positions assigns the name. -/
def Assigns (rules : List Rule) (positions : List Nat) (name : String) : Prop :=
  ∃ position ∈ positions, ∃ rule, rules[position]? = some rule ∧ rule.target = name

theorem lastAssigning?_eq_none_iff {rules : List Rule} {positions : List Nat} {name : String} :
    lastAssigning? rules positions name = none ↔ ¬ Assigns rules positions name := by
  unfold lastAssigning? Assigns
  rw [List.getLast?_eq_none_iff, List.filter_eq_nil_iff]
  constructor
  · rintro none ⟨position, hmem, rule, found, same⟩
    exact none rule (List.mem_filterMap.2 ⟨position, hmem, found⟩) (beq_iff_eq.2 same)
  · intro none rule hrule same
    obtain ⟨position, hmem, found⟩ := List.mem_filterMap.1 hrule
    exact none ⟨position, hmem, rule, found, beq_iff_eq.1 same⟩

/--
A pass gives the same report in both sessions. An attribute that it derives ends with the same value
in both, and every other one ends in each of them as it was there.
-/
structure DeriveAlike (rules : List Rule) (session session' : Session) : Prop where
  report : (runPass rules session).1 = (runPass rules session').1
  derived : ∀ name, Assigns rules (runPass rules session).1.fired name →
    ∃ value, (runPass rules session).2.attributes.get? name = some (some value) ∧
      (runPass rules session').2.attributes.get? name = some (some value)
  others : ∀ name, ¬ Assigns rules (runPass rules session).1.fired name →
    (runPass rules session).2.attributes.get? name = session.attributes.get? name ∧
      (runPass rules session').2.attributes.get? name = session'.attributes.get? name

theorem AgreeFor.deriveAlike {rules : List Rule} {session session' : Session}
    (h : AgreeFor rules session session') : DeriveAlike rules session session' := by
  obtain ⟨report, -⟩ := h.pass (List.Subset.refl rules)
  refine ⟨report, fun name assigned => ?_, fun name unassigned => ?_⟩
  · rw [get?_attributes_runPass, get?_attributes_runPass rules session', ← report]
    cases last : lastAssigning? rules (runPass rules session).1.fired name with
    | some rule => exact ⟨rule.value, rfl, rfl⟩
    | none => exact absurd assigned (lastAssigning?_eq_none_iff.1 last)
  · rw [get?_attributes_runPass, get?_attributes_runPass rules session', ← report,
      lastAssigning?_eq_none_iff.2 unassigned]
    exact ⟨rfl, rfl⟩

/-! ## What no condition mentions -/

section Unmentioned

variable {rules : List Rule} {name : String}

theorem agreeFor_setParameter
    (h : ∀ rule ∈ rules, ∀ comparison ∈ rule.condition, comparison.left ≠ name)
    (session : Session) (value : Literal) :
    AgreeFor rules session (session.setParameter name value) where
  parameters := by
    intro rule hrule comparison hmem
    rw [Session.setParameter, Bindings.get?_insert, if_neg (h rule hrule comparison hmem).symm]
  attributes := fun _ _ _ _ => rfl
  targets := fun _ _ => rfl

theorem agreeFor_assign
    (h : ∀ rule ∈ rules, ∀ comparison ∈ rule.condition, comparison.left ≠ name)
    (session : Session) (value : Literal) :
    AgreeFor rules session ⟨session.parameters, session.attributes.assign name value⟩ where
  parameters := fun _ _ _ _ => rfl
  attributes := by
    intro rule hrule comparison hmem
    rw [Bindings.get?_assign, if_neg (h rule hrule comparison hmem).symm]
  targets := fun rule _ =>
    (Bindings.has_congr (Bindings.names_assign session.attributes name value) rule.target).symm

end Unmentioned

/-! ## Main statement -/

/--
**What conditions do not mention has no influence.** Sessions that agree for the rules derive alike.
So neither the answer to a parameter that no condition mentions nor the value of such an attribute
changes the report or a derived value.
-/
theorem runPass_noninterference (rules : List Rule) :
    (∀ session session', AgreeFor rules session session' → DeriveAlike rules session session') ∧
    ∀ session name value,
      (∀ rule ∈ rules, ∀ comparison ∈ rule.condition, comparison.left ≠ name) →
        DeriveAlike rules session (session.setParameter name value) ∧
        DeriveAlike rules session ⟨session.parameters, session.attributes.assign name value⟩ :=
  ⟨fun _ _ h => h.deriveAlike, fun session _ value h =>
    ⟨(agreeFor_setParameter h session value).deriveAlike,
      (agreeFor_assign h session value).deriveAlike⟩⟩

/--
Age, note and tier are different, but no condition mentions them; the pass gives both sessions one
tier. The parameter `gift` has no value and still hides an attribute in both.
-/
theorem runPass_noninterference_other_answers :
    let rules : List Rule :=
      [⟨[⟨"segment", .equal, .text "young"⟩], "tier", .text "basic"⟩,
        ⟨[⟨"segment", .notEqual, .text "old"⟩], "offer", .text "first"⟩,
        ⟨[⟨"gift", .equal, .text "card"⟩], "note", .text "none"⟩,
        ⟨[⟨"offer", .more, .text "first"⟩], "note", .text "none"⟩]
    let session : Session :=
      ⟨[("segment", some (.text "young")), ("age", some (.text "20")), ("gift", none)],
        [("tier", none), ("offer", none), ("note", none), ("gift", some (.text "card"))]⟩
    let session' : Session :=
      ⟨[("age", none), ("gift", none), ("segment", some (.text "young"))],
        [("note", some (.text "late")), ("offer", none), ("tier", some (.text "plus")),
          ("gift", some (.text "card"))]⟩
    AgreeFor rules session session' ∧
      (runPass rules session).1 = ⟨[0, 1], [3]⟩ ∧
      DeriveAlike rules session session' ∧
      DeriveAlike rules session (session.setParameter "age" (.text "30")) := by
  intro rules session session'
  have agree : AgreeFor rules session session' := ⟨by decide, by decide, by decide⟩
  have unmentioned : ∀ rule ∈ rules, ∀ comparison ∈ rule.condition, comparison.left ≠ "age" := by
    decide
  exact ⟨agree, by decide, (runPass_noninterference rules).1 session session' agree,
    ((runPass_noninterference rules).2 session "age" (.text "30") unmentioned).1⟩

end Rulebook
