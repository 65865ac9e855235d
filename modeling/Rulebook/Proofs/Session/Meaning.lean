import Mathlib.Data.Option.Basic
import Rulebook.Proofs.Model.Typing
import Rulebook.Proofs.Number.Comparison
import Rulebook.Session.Evaluation

/-!
# What a condition means

A comparison holds in a session when its name has a value there that is in the relation to the
literal: numbers by their exact values, texts by being equal or not, and values of different kinds
by differing (`Comparison.Holds`). Checking a comparison finds out whether it holds, unless it asks
for an order of texts under a name that has a value (`Comparison.check_eq`). A condition is decided
by its first comparison that does not hold (`checkAll_append_cons`), and the condition of a valid
rule, in which no comparison asks for an order of texts, by all of them in any order
(`Rule.check_of_validate`).
-/

namespace Rulebook

open Number (Binary64)

/-! ## Relations -/

namespace Relation

/-- The two numbers are in the relation, by their exact values. -/
def RelatesNumbers : Relation → Binary64 → Binary64 → Prop
  | .equal, x, y => x.Same y
  | .less, x, y => x.Less y
  | .more, x, y => y.Less x
  | .moreOrEqual, x, y => y.Less x ∨ x.Same y
  | .lessOrEqual, x, y => x.Less y ∨ x.Same y
  | .notEqual, x, y => ¬ x.Same y

instance (relation : Relation) (x y : Binary64) : Decidable (relation.RelatesNumbers x y) :=
  match relation with
  | .equal => inferInstanceAs (Decidable (x.Same y))
  | .less => inferInstanceAs (Decidable (x.Less y))
  | .more => inferInstanceAs (Decidable (y.Less x))
  | .moreOrEqual => inferInstanceAs (Decidable (_ ∨ _))
  | .lessOrEqual => inferInstanceAs (Decidable (_ ∨ _))
  | .notEqual => inferInstanceAs (Decidable (¬ _))

/-- The value is in the relation to the literal; different kinds only ever differ. -/
def Relates (relation : Relation) : Literal → Literal → Prop
  | .number x, .number y => relation.RelatesNumbers x y
  | .text x, .text y => (relation = .equal ∧ x = y) ∨ (relation = .notEqual ∧ x ≠ y)
  | .number _, .text _ | .text _, .number _ => relation = .notEqual

instance (relation : Relation) (value literal : Literal) :
    Decidable (relation.Relates value literal) :=
  match value, literal with
  | .number x, .number y => inferInstanceAs (Decidable (relation.RelatesNumbers x y))
  | .text _, .text _ => inferInstanceAs (Decidable (_ ∨ _))
  | .number _, .text _ => inferInstanceAs (Decidable (_ = _))
  | .text _, .number _ => inferInstanceAs (Decidable (_ = _))

variable {relation : Relation} {value literal : Literal}

theorem ofNumbers_iff {x y : Binary64} :
    relation.ofNumbers x y = true ↔ relation.RelatesNumbers x y := by
  cases relation <;>
    simp [ofNumbers, RelatesNumbers, Binary64.order?_eq_some_lt_iff,
      Binary64.order?_eq_some_gt_iff, Binary64.order?_eq_some_eq_iff]

theorem not_relates_of_isOrdering (h : relation.isOrdering = true) (text : literal.isText = true) :
    ¬ relation.Relates value literal := by
  cases literal with
  | number y => cases text
  | text y => cases value <;> cases relation <;> simp_all [Relates, isOrdering]

/-- A value relates to a literal or not, and only an order of texts cannot be asked for. -/
theorem holds_eq (relation : Relation) (value literal : Literal) :
    relation.holds value literal =
      if relation.isOrdering && literal.isText then
        .error (.evaluation (.orderedText relation literal))
      else .ok (decide (relation.Relates value literal)) := by
  cases value with
  | number x =>
    cases literal with
    | number y => simp [holds, Literal.isText, Relates, ← ofNumbers_iff]
    | text y => cases relation <;> rfl
  | text x =>
    cases literal with
    | number y => cases relation <;> rfl
    | text y => cases relation <;> simp [holds, Literal.isText, Relates, isOrdering, bne,
        beq_eq_decide]

end Relation

/-! ## Comparisons -/

namespace Comparison

/-- The name has a value in the session, which is in the relation to the literal. -/
def Holds (comparison : Comparison) (session : Session) : Prop :=
  ∃ value ∈ session.resolve? comparison.left, comparison.relation.Relates value comparison.right

/-- The comparison asks for an order of texts, and its name has a value to be compared. -/
def Stuck (comparison : Comparison) (session : Session) : Prop :=
  comparison.ordersText = true ∧ (session.resolve? comparison.left).isSome = true

instance (comparison : Comparison) (session : Session) : Decidable (comparison.Holds session) :=
  inferInstanceAs (Decidable (∃ value ∈ session.resolve? comparison.left, _))

instance (comparison : Comparison) (session : Session) : Decidable (comparison.Stuck session) :=
  inferInstanceAs (Decidable (_ ∧ _))

variable {comparison : Comparison} {session : Session}

theorem check_eq (comparison : Comparison) (session : Session) :
    comparison.check session =
      if comparison.Stuck session then
        .error (.evaluation (.orderedText comparison.relation comparison.right))
      else .ok (decide (comparison.Holds session)) := by
  unfold check
  cases found : session.resolve? comparison.left with
  | none =>
    have fails : ¬ comparison.Holds session := by simp [Holds, found]
    have free : ¬ comparison.Stuck session := by simp [Stuck, found]
    rw [if_neg free, decide_eq_false fails]
  | some value =>
    have holds : comparison.Holds session ↔
        comparison.relation.Relates value comparison.right := by simp [Holds, found]
    have stuck : comparison.Stuck session ↔
        (comparison.relation.isOrdering && comparison.right.isText) = true := by
      simp [Stuck, found, ordersText]
    simp only [Relation.holds_eq, holds, stuck]

/-- No order is asked for between a number and a text either. -/
example :
    Comparison.check ⟨"tier", .less, .text "basic"⟩
        ⟨[], [("tier", some (.number ⟨false, 0, by decide⟩))]⟩ =
      .error (.evaluation (.orderedText .less (.text "basic"))) := by
  decide

theorem Holds.not_stuck (h : comparison.Holds session) : ¬ comparison.Stuck session := by
  obtain ⟨value, -, relates⟩ := h
  rintro ⟨orders, -⟩
  rw [ordersText, Bool.and_eq_true] at orders
  exact Relation.not_relates_of_isOrdering orders.1 orders.2 relates

theorem not_stuck_of_ordersText (h : comparison.ordersText = false) :
    ¬ comparison.Stuck session := by
  rw [Stuck, h]
  exact fun stuck => Bool.false_ne_true stuck.1

theorem Holds.check_eq (h : comparison.Holds session) : comparison.check session = .ok true := by
  rw [Comparison.check_eq, if_neg h.not_stuck, decide_eq_true h]

end Comparison

/-! ## Conditions -/

section Conditions

variable {session : Session} {condition : List Comparison}

/-- Comparisons that hold leave the decision to those behind them. -/
theorem checkAll_append {front : List Comparison}
    (holds : ∀ comparison ∈ front, comparison.Holds session) (back : List Comparison) :
    checkAll session (front ++ back) = checkAll session back := by
  induction front with
  | nil => rfl
  | cons comparison front ih =>
    obtain ⟨first, others⟩ := List.forall_mem_cons.1 holds
    rw [List.cons_append, checkAll, first.check_eq]
    exact ih others

/-- A comparison that does not hold decides, whatever stands behind it. -/
theorem checkAll_cons_of_not_holds {comparison : Comparison}
    (fails : ¬ comparison.Holds session) (rest : List Comparison) :
    checkAll session (comparison :: rest) =
      if comparison.Stuck session then
        .error (.evaluation (.orderedText comparison.relation comparison.right))
      else .ok false := by
  rw [checkAll, comparison.check_eq, decide_eq_false fails]
  by_cases stuck : comparison.Stuck session
  · rw [if_pos stuck]
  · rw [if_neg stuck]

/-- The first comparison that does not hold decides. -/
theorem checkAll_append_cons {front : List Comparison} {comparison : Comparison}
    (holds : ∀ earlier ∈ front, earlier.Holds session) (fails : ¬ comparison.Holds session)
    (back : List Comparison) :
    checkAll session (front ++ comparison :: back) =
      if comparison.Stuck session then
        .error (.evaluation (.orderedText comparison.relation comparison.right))
      else .ok false := by
  rw [checkAll_append holds, checkAll_cons_of_not_holds fails]

theorem checkAll_eq_ok_true_iff :
    checkAll session condition = .ok true ↔
      ∀ comparison ∈ condition, comparison.Holds session := by
  induction condition with
  | nil => exact ⟨fun _ => nofun, fun _ => rfl⟩
  | cons comparison rest ih =>
    rw [List.forall_mem_cons, ← ih]
    by_cases holds : comparison.Holds session
    · rw [checkAll, holds.check_eq]
      exact (and_iff_right holds).symm
    · rw [checkAll_cons_of_not_holds holds]
      refine iff_of_false (fun h => ?_) fun h => holds h.1
      split at h <;> cases h

/-- Without orders of texts a condition is decided by whether all of it holds. -/
theorem checkAll_of_unordered (h : ∀ comparison ∈ condition, comparison.ordersText = false) :
    checkAll session condition =
      .ok (decide (∀ comparison ∈ condition, comparison.Holds session)) := by
  induction condition with
  | nil => rfl
  | cons comparison rest ih =>
    obtain ⟨first, others⟩ := List.forall_mem_cons.1 h
    rw [checkAll, comparison.check_eq, if_neg (Comparison.not_stuck_of_ordersText first)]
    by_cases holds : comparison.Holds session
    · simp [holds, ih others]
    · simp [holds]

end Conditions

namespace Rule

theorem check_of_ne_nil {rule : Rule} (nonempty : rule.condition ≠ []) (session : Session) :
    rule.check session = checkAll session rule.condition := by
  rw [check, List.isEmpty_eq_false_iff.2 nonempty]
  exact if_neg Bool.false_ne_true

/-- A valid rule asks whether all its comparisons hold, and it always gets an answer. -/
theorem check_of_validate {rule : Rule} (valid : rule.validate = .ok ()) (session : Session) :
    rule.check session =
      .ok (decide (∀ comparison ∈ rule.condition, comparison.Holds session)) := by
  obtain ⟨nonempty, unordered⟩ := validate_eq_ok_iff.1 valid
  rw [check_of_ne_nil nonempty, checkAll_of_unordered unordered]

/-- To be valid depends on which comparisons there are, not on their order or number. -/
theorem validate_of_same_members {rule : Rule} (valid : rule.validate = .ok ())
    {condition : List Comparison}
    (same : ∀ comparison, comparison ∈ condition ↔ comparison ∈ rule.condition) :
    Rule.validate { rule with condition := condition } = .ok () := by
  obtain ⟨nonempty, unordered⟩ := validate_eq_ok_iff.1 valid
  refine validate_eq_ok_iff.2 ⟨?_, fun comparison hmem => ?_⟩
  · rintro rfl
    exact nonempty (List.eq_nil_iff_forall_not_mem.2 fun comparison hmem =>
      List.not_mem_nil ((same comparison).2 hmem))
  · exact unordered comparison ((same comparison).1 hmem)

theorem run_congr {rule rule' : Rule} {session : Session}
    (check : rule.check session = rule'.check session) (target : rule.target = rule'.target)
    (value : rule.value = rule'.value) : rule.run session = rule'.run session := by
  rw [run_eq, run_eq, check, target, value]

/-- A valid rule and one with the same comparisons, in another order or repeated, do the same. -/
theorem check_of_same_members {rule : Rule} (valid : rule.validate = .ok ())
    {condition : List Comparison}
    (same : ∀ comparison, comparison ∈ condition ↔ comparison ∈ rule.condition)
    (session : Session) :
    Rule.check { rule with condition := condition } session = rule.check session := by
  rw [check_of_validate valid, check_of_validate (validate_of_same_members valid same)]
  simp only [same]

/-- A rule that compares a name without value does not fire. -/
theorem run_ne_of_unresolved {rule : Rule} {session : Session} {comparison : Comparison}
    (mem : comparison ∈ rule.condition) (unresolved : session.resolve? comparison.left = none)
    (after : Session) : rule.run session ≠ .ok (true, after) := by
  intro fired
  have nonempty : rule.condition ≠ [] := List.ne_nil_of_mem mem
  have idle : rule.check session ≠ .ok true := by
    rw [check_of_ne_nil nonempty, Ne, checkAll_eq_ok_true_iff]
    intro holds
    obtain ⟨value, found, -⟩ := holds comparison mem
    rw [unresolved] at found
    cases found
  rw [run_eq] at fired
  split at fired
  · cases fired
  · cases fired
  · next holds => exact idle holds

end Rule

/-! ## Main statement -/

/--
**What a condition means.** A rule with a condition passes its check in a session exactly when every
comparison holds there. Else its first comparison that does not hold decides: the check fails when
that one asks for an order of texts under a name that has a value, and is negative in all other
cases. So in a valid rule neither the order of the comparisons matters nor how often each of them
stands there, and a rule that compares a name without value does not fire.
-/
theorem check_meaning {rule : Rule} (nonempty : rule.condition ≠ []) (session : Session) :
    (rule.check session = .ok true ↔
      ∀ comparison ∈ rule.condition, comparison.Holds session) ∧
    (∀ front comparison back, rule.condition = front ++ comparison :: back →
      (∀ earlier ∈ front, earlier.Holds session) → ¬ comparison.Holds session →
        (rule.check session =
            .error (.evaluation (.orderedText comparison.relation comparison.right)) ↔
          comparison.ordersText = true ∧
            ∃ value, session.resolve? comparison.left = some value) ∧
        (rule.check session = .ok false ↔
          ¬ (comparison.ordersText = true ∧
            ∃ value, session.resolve? comparison.left = some value)) ∧
        (session.resolve? comparison.left = none → rule.check session = .ok false)) ∧
    (rule.validate = .ok () → ∀ condition : List Comparison,
      (∀ comparison, comparison ∈ condition ↔ comparison ∈ rule.condition) →
        let other : Rule := { rule with condition := condition }
        other.check session = rule.check session ∧ other.run session = rule.run session) ∧
    (∀ comparison ∈ rule.condition, session.resolve? comparison.left = none →
      ∀ after, rule.run session ≠ .ok (true, after)) := by
  refine ⟨?_, fun front comparison back split holds fails => ?_, fun valid condition same => ?_,
    fun comparison mem unresolved => Rule.run_ne_of_unresolved mem unresolved⟩
  · rw [Rule.check_of_ne_nil nonempty]
    exact checkAll_eq_ok_true_iff
  · have decided := checkAll_append_cons holds fails back
    rw [← split, ← Rule.check_of_ne_nil nonempty] at decided
    have stuck : comparison.Stuck session ↔ comparison.ordersText = true ∧
        ∃ value, session.resolve? comparison.left = some value := by
      rw [Comparison.Stuck, Option.isSome_iff_exists]
    rw [decided, ← stuck]
    by_cases fault : comparison.Stuck session
    · obtain ⟨-, value, found⟩ := stuck.1 fault
      simp [fault, found]
    · simp [fault]
  · have checks := Rule.check_of_same_members valid same session
    exact ⟨checks, Rule.run_congr checks rfl rfl⟩

/-- The first comparison holds, and the second one asks for an answer that was not given. -/
theorem check_meaning_unanswered :
    let thirty : Binary64 := ⟨false, 0x403E000000000000, by decide⟩
    let forty : Binary64 := ⟨false, 0x4044000000000000, by decide⟩
    let age : Comparison := ⟨"age", .moreOrEqual, .number thirty⟩
    let segment : Comparison := ⟨"segment", .notEqual, .text "young"⟩
    let rule : Rule := ⟨[age, segment], "tier", .text "senior"⟩
    let session : Session := ⟨[("age", some (.number forty)), ("segment", none)], [("tier", none)]⟩
    rule.condition ≠ [] ∧ rule.validate = .ok () ∧
      age.Holds session ∧ ¬ segment.Holds session ∧ rule.check session = .ok false ∧
      Rule.check { rule with condition := [segment, age, segment] } session =
        rule.check session ∧
      ∀ after, rule.run session ≠ .ok (true, after) := by
  intro thirty forty age segment rule session
  have nonempty : rule.condition ≠ [] := List.cons_ne_nil _ _
  have valid : rule.validate = .ok () := by decide
  have holds : age.Holds session := by decide +kernel
  have fails : ¬ segment.Holds session := by decide +kernel
  have unanswered : session.resolve? segment.left = none := by decide
  have same : ∀ comparison, comparison ∈ [segment, age, segment] ↔ comparison ∈ rule.condition := by
    intro comparison
    simp only [rule, List.mem_cons, List.not_mem_nil, or_false]
    tauto
  obtain ⟨-, decided, sameMembers, idle⟩ := check_meaning nonempty session
  obtain ⟨-, -, negative⟩ :=
    decided [age] segment [] rfl (List.forall_mem_singleton.2 holds) fails
  exact ⟨nonempty, valid, holds, fails, negative unanswered, (sameMembers valid _ same).1,
    idle segment (List.mem_cons_of_mem _ List.mem_cons_self) unanswered⟩

end Rulebook
