import Mathlib.Data.List.Perm.Basic
import Rulebook.Proofs.Session.Meaning
import Rulebook.Proofs.Session.Pass

/-!
# Valid rules never fail

A valid rule can be run in every session, and so can any rule with the same comparisons in another
order. A rule that is not valid has no condition or asks for an order of texts; put in front, that
comparison makes the rule fail where its name has a value (`Rule.exists_failing_order`). So to be
valid is to be safe (`validate_iff_safe`), and since binding validates, the rules of a list that
binds never fail in a pass.
-/

namespace Rulebook

/-! ## Runs and checks -/

theorem Rule.run_of_check_error {rule : Rule} {session : Session} {fault : Fault}
    (h : rule.check session = .error fault) : rule.run session = .error fault := by
  rw [run_eq, h]

theorem Rule.fails_of_validate {rule : Rule} (valid : rule.validate = .ok ())
    (session : Session) : rule.fails session = false := by
  rw [fails, check_of_validate valid]

theorem Rule.exists_run_of_validate {rule : Rule} (valid : rule.validate = .ok ())
    (session : Session) : ∃ outcome, rule.run session = .ok outcome := by
  rcases rule.run_cases session with ⟨-, hrun⟩ | ⟨fails, -⟩ | ⟨-, -, hrun⟩
  · exact ⟨_, hrun⟩
  · rw [fails_of_validate valid] at fails
    cases fails
  · exact ⟨_, hrun⟩

/-! ## Rules that are not valid -/

/-- A comparison that asks for an order of texts makes a rule fail that begins with it. -/
theorem Rule.run_of_ordersText {rule : Rule} {comparison : Comparison} {rest : List Comparison}
    (first : rule.condition = comparison :: rest) (orders : comparison.ordersText = true)
    {session : Session} {value : Literal}
    (found : session.resolve? comparison.left = some value) :
    rule.run session =
      .error (.evaluation (.orderedText comparison.relation comparison.right)) := by
  apply run_of_check_error
  have stuck : comparison.Stuck session := ⟨orders, by rw [found]; rfl⟩
  have fails : ¬ comparison.Holds session := fun holds => holds.not_stuck stuck
  have nonempty : rule.condition ≠ [] := by
    rw [first]
    exact List.cons_ne_nil comparison rest
  rw [check_of_ne_nil nonempty, first, checkAll_cons_of_not_holds fails, if_pos stuck]

/-- A rule that is not valid fails with its comparisons in some order and a single name set. -/
theorem Rule.exists_failing_order {rule : Rule} {fault : Fault}
    (h : rule.validate = .error fault) :
    ∃ condition : List Comparison, condition.Perm rule.condition ∧ ∃ name value cause,
      Rule.run { rule with condition := condition } ⟨[(name, some value)], []⟩ =
        .error (.evaluation cause) := by
  have invalid : ¬ (rule.condition ≠ [] ∧
      ∀ comparison ∈ rule.condition, comparison.ordersText = false) := by
    rw [← validate_eq_ok_iff, h]
    exact nofun
  by_cases empty : rule.condition = []
  · refine ⟨[], by rw [empty], "", .text "", .noCondition, ?_⟩
    exact run_of_check_error rfl
  · obtain ⟨comparison, mem, orders⟩ : ∃ comparison ∈ rule.condition,
        comparison.ordersText = true := by
      by_contra unordered
      refine invalid ⟨empty, fun comparison mem => ?_⟩
      exact Bool.eq_false_iff.2 fun orders => unordered ⟨comparison, mem, orders⟩
    have found : Session.resolve? ⟨[(comparison.left, some comparison.right)], []⟩
        comparison.left = some comparison.right := by
      simp [Session.resolve?, Bindings.get?_cons]
    exact ⟨comparison :: rule.condition.erase comparison, (List.perm_cons_erase mem).symm,
      comparison.left, comparison.right, .orderedText comparison.relation comparison.right,
      run_of_ordersText rfl orders found⟩

/-- Behind a comparison that does not hold, an order of texts goes unnoticed. -/
example :
    let rule : Rule :=
      ⟨[⟨"segment", .equal, .text "old"⟩, ⟨"tier", .more, .text "basic"⟩], "gift", .text "card"⟩
    let session : Session :=
      ⟨[("segment", some (.text "young"))], [("tier", some (.text "basic")), ("gift", none)]⟩
    rule.run session = .ok (false, session) ∧
      rule.validate = .error (.invalid (.orderedText ⟨"tier", .more, .text "basic"⟩)) := by
  decide

/-! ## Bound rules -/

theorem validate_of_bind {stored : StoredRule} {rule : Rule} (h : stored.bind = .ok rule) :
    rule.validate = .ok () := by
  obtain ⟨restored, -, h⟩ := bind_eq_ok_iff.1 h
  obtain ⟨_, valid, h⟩ := bind_eq_ok_iff.1 h
  cases h
  exact valid

/-- In a pass over valid rules none fails. -/
theorem failed_runPass_of_validate {rules : List Rule}
    (valid : ∀ rule ∈ rules, rule.validate = .ok ()) (session : Session) :
    (runPass rules session).1.failed = [] := by
  rw [runPass_fst, List.eq_nil_iff_forall_not_mem]
  intro position failed
  obtain ⟨rule, found, fails⟩ := mem_positionsWhere_iff.1 failed
  rw [Rule.fails_of_validate (valid rule (List.mem_of_getElem? found))] at fails
  cases fails

/-! ## Main statement -/

/--
**To be valid is to be safe.** A rule is valid exactly when it runs in every session, whatever the
order of its comparisons. One that is not valid fails with its comparisons in some order, in a
session in which a single name is set. Stored rules that bind, altered ones included, never fail in
a pass.
-/
theorem validate_iff_safe :
    (∀ rule : Rule, rule.validate = .ok () ↔
      ∀ condition : List Comparison, condition.Perm rule.condition → ∀ session : Session,
        ∃ outcome, Rule.run { rule with condition := condition } session = .ok outcome) ∧
    (∀ (rule : Rule) (fault : Fault), rule.validate = .error fault →
      ∃ condition : List Comparison, condition.Perm rule.condition ∧ ∃ name value cause,
        Rule.run { rule with condition := condition } ⟨[(name, some value)], []⟩ =
          .error (.evaluation cause)) ∧
    ∀ (stored : List StoredRule) (rules : List Rule), StoredRule.bindAll stored = .ok rules →
      ∀ session : Session, (runPass rules session).1.failed = [] := by
  refine ⟨fun rule => ⟨fun valid condition perm session => ?_, fun safe => ?_⟩,
    fun rule fault => Rule.exists_failing_order, fun stored rules bound session => ?_⟩
  · have valid' := Rule.validate_of_same_members valid fun comparison => perm.mem_iff
    exact Rule.exists_run_of_validate valid' session
  · cases hvalidate : rule.validate with
    | ok _ => rfl
    | error fault =>
      obtain ⟨condition, perm, name, value, cause, failed⟩ := Rule.exists_failing_order hvalidate
      obtain ⟨outcome, ran⟩ := safe condition perm ⟨[(name, some value)], []⟩
      rw [failed] at ran
      cases ran
  · refine failed_runPass_of_validate (fun rule mem => ?_) session
    obtain ⟨one, -, hbind⟩ := exists_bind_of_mem_bindAll bound rule mem
    exact validate_of_bind hbind

end Rulebook
