import Rulebook.Proofs.Session.Pass

/-!
# What a rule depends on

A rule reads a session at the names of its condition only: sessions that give these names the same
values decide the condition alike (`Rule.check_congr`), and when the target is an attribute of both
or of neither, the rule does in both what it does in one (`Rule.reportAt_congr`). It writes at its
target only, so a pass leaves every name alone that no rule assigns
(`get?_attributes_runPass_of_forall_ne`).
-/

namespace Rulebook

/-! ## What is read -/

/-- Both sessions give every name of the condition the same value. -/
def Rule.AgreeOn (rule : Rule) (session session' : Session) : Prop :=
  ∀ comparison ∈ rule.condition,
    session.resolve? comparison.left = session'.resolve? comparison.left

section Agreement

variable {rule : Rule} {session session' : Session}

theorem checkAll_congr {condition : List Comparison}
    (h : ∀ comparison ∈ condition,
      session.resolve? comparison.left = session'.resolve? comparison.left) :
    checkAll session condition = checkAll session' condition := by
  induction condition with
  | nil => rfl
  | cons comparison rest ih =>
    obtain ⟨same, others⟩ := List.forall_mem_cons.1 h
    have first : comparison.check session = comparison.check session' := by
      rw [Comparison.check, Comparison.check, same]
    rw [checkAll, checkAll, first, ih others]

theorem Rule.check_congr (h : rule.AgreeOn session session') :
    rule.check session = rule.check session' := by
  rw [check, check, checkAll_congr h]

theorem Rule.fails_congr (h : rule.AgreeOn session session') :
    rule.fails session = rule.fails session' := by
  rw [fails, fails, check_congr h]

theorem Rule.fires_congr (h : rule.AgreeOn session session')
    (target : session.attributes.has rule.target = session'.attributes.has rule.target) :
    rule.fires session = rule.fires session' := by
  rw [fires, fires, check_congr h, target]

theorem Rule.reportAt_congr (h : rule.AgreeOn session session')
    (target : session.attributes.has rule.target = session'.attributes.has rule.target)
    (position : Nat) : rule.reportAt position session = rule.reportAt position session' := by
  rw [reportAt, reportAt, fires_congr h target, fails_congr h]

/-- Sessions with the same parameters differ only at names that are no parameters. -/
theorem Session.resolve?_congr {name : String}
    (parameters : session.parameters = session'.parameters)
    (attributes : name ∉ session.parameters.names →
      session.attributes.get? name = session'.attributes.get? name) :
    session.resolve? name = session'.resolve? name := by
  unfold resolve?
  rw [← parameters]
  cases declared : session.parameters.get? name with
  | some value => rfl
  | none =>
    have undeclared : name ∉ session.parameters.names := by
      intro mem
      rw [← Bindings.has_iff_mem_names, Bindings.has_eq_isSome_get?, declared] at mem
      cases mem
    rw [attribute?, attribute?, Bindings.value?, Bindings.value?, attributes undeclared]

end Agreement

/-! ## What is written -/

theorem Rule.get?_attributes_leave_of_ne {rule : Rule} {name : String} (h : rule.target ≠ name)
    (session : Session) :
    (rule.leave session).attributes.get? name = session.attributes.get? name := by
  rw [get?_attributes_leave, beq_false_of_ne h, Bool.and_false]
  exact if_neg Bool.false_ne_true

@[simp] theorem Rule.has_attributes_leave (rule : Rule) (session : Session) (name : String) :
    (rule.leave session).attributes.has name = session.attributes.has name :=
  Bindings.has_congr (rule.names_attributes_leave session) name

/-- A pass leaves a name alone that none of its rules assigns. -/
theorem get?_attributes_runPass_of_forall_ne {rules : List Rule} {name : String}
    (h : ∀ rule ∈ rules, rule.target ≠ name) (session : Session) :
    (runPass rules session).2.attributes.get? name = session.attributes.get? name := by
  induction rules using List.reverseRecOn with
  | nil => rfl
  | append_singleton rules rule ih =>
    obtain ⟨front, last⟩ := List.forall_mem_append.1 h
    rw [runPass_concat, Rule.get?_attributes_leave_of_ne (last rule List.mem_cons_self), ih front]

/-- A pass declares no attribute and removes none. -/
theorem has_attributes_runPass (rules : List Rule) (session : Session) (name : String) :
    (runPass rules session).2.attributes.has name = session.attributes.has name :=
  Bindings.has_congr (names_attributes_runPass rules session) name

end Rulebook
