import Rulebook.Proofs.Compile.Binding
import Rulebook.Proofs.Json.Numbers
import Rulebook.Proofs.Model.Typing
import Rulebook.Proofs.Rule.StoredText
import Rulebook.Session.Evaluation

/-!
# Compiled rules kept as text

A compiled rule that was written as text and read again always binds. It is the rule of the source
but for its numbers, which are those that the reader makes of their numerals: the rule is unchanged
just when the reader keeps each of them, and it keeps all numbers with short numerals
(`bind_ofText_toText`).
-/

namespace Rulebook

open Number (Binary64)

/-! ## Rules with other numbers -/

def Literal.mapNumbers (change : Binary64 → Binary64) : Literal → Literal
  | .number x => .number (change x)
  | .text value => .text value

def Comparison.mapNumbers (change : Binary64 → Binary64) (comparison : Comparison) : Comparison :=
  { comparison with right := comparison.right.mapNumbers change }

/-- The rule with another number in place of each number. -/
def Rule.mapNumbers (change : Binary64 → Binary64) (rule : Rule) : Rule where
  condition := rule.condition.map (Comparison.mapNumbers change)
  target := rule.target
  value := rule.value.mapNumbers change

def Literal.numbers : Literal → List Binary64
  | .number x => [x]
  | .text _ => []

/-- The numbers that a rule compares with or assigns. -/
def Rule.numbers (rule : Rule) : List Binary64 :=
  rule.condition.flatMap (·.right.numbers) ++ rule.value.numbers

section

variable {change : Binary64 → Binary64}

theorem Literal.mapNumbers_eq_self_iff {literal : Literal} :
    literal.mapNumbers change = literal ↔ ∀ x ∈ literal.numbers, change x = x := by
  cases literal with
  | number x => simp [mapNumbers, numbers]
  | text value => simp [mapNumbers, numbers]

theorem Comparison.mapNumbers_eq_self_iff {comparison : Comparison} :
    comparison.mapNumbers change = comparison ↔
      ∀ x ∈ comparison.right.numbers, change x = x := by
  rw [← Literal.mapNumbers_eq_self_iff]
  obtain ⟨left, relation, right⟩ := comparison
  simp [mapNumbers]

/-- A rule is unchanged just when each of its numbers is. -/
theorem Rule.mapNumbers_eq_self_iff {rule : Rule} :
    rule.mapNumbers change = rule ↔ ∀ x ∈ rule.numbers, change x = x := by
  have condition : rule.condition.map (Comparison.mapNumbers change) = rule.condition ↔
      ∀ x ∈ rule.condition.flatMap (·.right.numbers), change x = x := by
    induction rule.condition with
    | nil => simp
    | cons comparison others ih =>
      rw [List.map_cons, List.cons.injEq, Comparison.mapNumbers_eq_self_iff, ih,
        List.flatMap_cons, List.forall_mem_append]
  rw [numbers, List.forall_mem_append, ← condition, ← Literal.mapNumbers_eq_self_iff]
  obtain ⟨condition, target, value⟩ := rule
  simp [mapNumbers]

theorem Literal.toStored_mapNumbers (literal : Literal) :
    (literal.mapNumbers change).toStored = literal.toStored.mapNumbers change := by
  cases literal with
  | number x => rfl
  | text value => rfl

theorem Rule.toStored_mapNumbers (rule : Rule) :
    (rule.mapNumbers change).toStored = rule.toStored.mapNumbers change := by
  have comparison (comparison : Comparison) :
      (comparison.mapNumbers change).toStored = comparison.toStored.mapNumbers change := by
    simp only [Comparison.mapNumbers, Comparison.toStored, StoredComparison.mapNumbers,
      Literal.toStored_mapNumbers]
  simp only [mapNumbers, toStored, StoredRule.mapNumbers, Literal.toStored_mapNumbers,
    List.map_map, StoredRule.mk.injEq, List.map_inj_left, Function.comp_apply, comparison,
    implies_true, true_and]

theorem Literal.Storable.mapNumbers (keeps : ∀ x, x.isFinite = true → (change x).isFinite = true)
    {literal : Literal} (h : literal.Storable) : (literal.mapNumbers change).Storable := by
  cases literal with
  | number x => exact keeps x h
  | text value => trivial

theorem Rule.Storable.mapNumbers (keeps : ∀ x, x.isFinite = true → (change x).isFinite = true)
    {rule : Rule} (h : rule.Storable) : (rule.mapNumbers change).Storable where
  nonempty := mt List.map_eq_nil_iff.1 h.nonempty
  condition := by
    intro comparison hmem
    obtain ⟨before, hbefore, rfl⟩ := List.mem_map.1 hmem
    exact ⟨(h.condition before hbefore).left, (h.condition before hbefore).right.mapNumbers keeps⟩
  target := h.target
  value := h.value.mapNumbers keeps

theorem Comparison.ordersText_mapNumbers (comparison : Comparison) :
    (comparison.mapNumbers change).ordersText = comparison.ordersText := by
  obtain ⟨left, relation, right⟩ := comparison
  cases right with
  | number x => rfl
  | text value => rfl

/-- Whether a rule has a meaning does not depend on its numbers. -/
theorem Rule.validate_mapNumbers {rule : Rule} (h : rule.validate = .ok ()) :
    (rule.mapNumbers change).validate = .ok () := by
  obtain ⟨nonempty, unordered⟩ := validate_eq_ok_iff.1 h
  refine validate_eq_ok_iff.2 ⟨mt List.map_eq_nil_iff.1 nonempty, fun comparison hmem => ?_⟩
  obtain ⟨before, hbefore, rfl⟩ := List.mem_map.1 hmem
  rw [Comparison.ordersText_mapNumbers, unordered before hbefore]

end

theorem Literal.Storable.isFinite_toStored {literal : Literal} (h : literal.Storable) :
    literal.toStored.IsFinite := by
  intro x hx
  cases literal with
  | number y => exact Option.some.inj hx ▸ h
  | text value => exact absurd hx (Option.not_mem_none x)

theorem Rule.Storable.isFinite_toStored {rule : Rule} (h : rule.Storable) :
    rule.toStored.IsFinite where
  conditions := by
    intro comparison hmem
    obtain ⟨before, hbefore, rfl⟩ := List.mem_map.1 hmem
    exact (h.condition before hbefore).right.isFinite_toStored
  value := h.value.isFinite_toStored

theorem Rule.Storable.isFinite_of_mem {rule : Rule} (h : rule.Storable) :
    ∀ x ∈ rule.numbers, x.isFinite = true := by
  have literal {literal : Literal} (h : literal.Storable) :
      ∀ x ∈ literal.numbers, x.isFinite = true := by
    intro x hx
    cases literal with
    | number y => exact List.mem_singleton.1 hx ▸ h
    | text value => exact absurd hx List.not_mem_nil
  intro x hx
  rcases List.mem_append.1 hx with hx | hx
  · obtain ⟨comparison, hmem, hx⟩ := List.mem_flatMap.1 hx
    exact literal (h.condition comparison hmem).right x hx
  · exact literal h.value x hx

/-! ## Numbers read again -/

/-- What the reader makes of a number that was written. -/
def Json.reread (x : Binary64) : Binary64 :=
  (readNumber? (numberLayout.numeral x)).getD x

theorem Json.readNumber?_numeral {x : Binary64} (h : x.isFinite = true) :
    readNumber? (numberLayout.numeral x) = some (reread x) := by
  obtain ⟨y, -, -, hread⟩ := exists_readNumber? h
  rw [reread, hread, Option.getD_some]

theorem Json.isFinite_reread (x : Binary64) (h : x.isFinite = true) :
    (reread x).isFinite = true := by
  obtain ⟨y, finite, -, hread⟩ := exists_readNumber? h
  rwa [reread, hread, Option.getD_some]

theorem StoredRule.ofText_toText {stored : StoredRule} (finite : stored.IsFinite) :
    StoredRule.ofText stored.toText = .ok (stored.mapNumbers Json.reread) := by
  rw [ofText, ofText?_toText (fun _ finite => Json.readNumber?_numeral finite) finite]

/-! ## Main statement -/

/--
**Compiled rules kept as text.** What compiles is read again from its text and binds. The rule that
comes back is the rule of the source just when each of its numbers is read from its numeral as it
was. Numbers with short numerals are, so a rule with no others runs as before in every session.
-/
theorem bind_ofText_toText {source : String} {stored : StoredRule}
    (h : compile source = .ok stored) :
    ∃ rule again, stored.bind = .ok rule ∧
      (StoredRule.ofText stored.toText >>= StoredRule.bind) = .ok again ∧
      again = rule.mapNumbers Json.reread ∧
      (again = rule ↔
        ∀ x ∈ rule.numbers, Json.readNumber? (Json.numberLayout.numeral x) = some x) ∧
      ((∀ x ∈ rule.numbers, Json.IsShort (Json.numberLayout.numeral x)) →
        ∀ session, again.run session = rule.run session) := by
  obtain ⟨rule, hparse, h⟩ := bind_eq_ok_iff.1 h
  obtain ⟨_, valid, h⟩ := bind_eq_ok_iff.1 h
  cases h
  have storable := (printable_of_parse hparse).storable
  have finite := storable.isFinite_of_mem
  have kept : rule.mapNumbers Json.reread = rule ↔
      ∀ x ∈ rule.numbers, Json.readNumber? (Json.numberLayout.numeral x) = some x := by
    rw [Rule.mapNumbers_eq_self_iff]
    refine forall₂_congr fun x hx => ?_
    rw [Json.readNumber?_numeral (finite x hx), Option.some.injEq]
  refine ⟨rule, rule.mapNumbers Json.reread, bind_toStored storable valid, ?_, rfl, kept, ?_⟩
  · rw [StoredRule.ofText_toText storable.isFinite_toStored, ← Rule.toStored_mapNumbers]
    exact bind_toStored (storable.mapNumbers Json.isFinite_reread) (Rule.validate_mapNumbers valid)
  · intro short session
    rw [kept.2 fun x hx => Json.readNumber?_of_short (finite x hx) (short x hx)]

/-- Both numbers have short numerals, as most numbers in rules do. -/
theorem bind_ofText_toText_price :
    let price : Binary64 := ⟨false, 0x4033FD70A3D70A3D, by decide⟩
    let rate : Binary64 := ⟨false, 0x3FC6666666666666, by decide⟩
    let rule : Rule := ⟨[⟨"price", .moreOrEqual, .number price⟩], "rate", .number rate⟩
    compile "if price >= 19.99 then rate = 0.175" = .ok rule.toStored ∧
      ∃ again, (StoredRule.ofText rule.toStored.toText >>= StoredRule.bind) = .ok again ∧
        ∀ session, again.run session = rule.run session := by
  intro price rate rule
  have compiled : compile "if price >= 19.99 then rate = 0.175" = .ok rule.toStored := by
    decide +kernel
  have bound : rule.toStored.bind = .ok rule := by decide +kernel
  have short : ∀ x ∈ rule.numbers, Json.IsShort (Json.numberLayout.numeral x) := by
    decide +kernel
  obtain ⟨rule', again, hbind, hread, -, -, hrun⟩ := bind_ofText_toText compiled
  obtain rfl : rule = rule' := Except.ok.inj (bound.symm.trans hbind)
  exact ⟨compiled, again, hread, hrun short⟩

/--
The numeral of 2^53 - 1 has 17 digits, which are more than fit in 53 bits. The rule that comes back
asks for 2^53 - 2 and does not fire in a session in which the rule of the source does.
-/
theorem not_forall_run_ofText_toText :
    ¬ ∀ source stored rule again, compile source = .ok stored → stored.bind = .ok rule →
      (StoredRule.ofText stored.toText >>= StoredRule.bind) = .ok again →
      ∀ session, again.run session = rule.run session := by
  intro h
  let limit : Binary64 := ⟨false, 0x433FFFFFFFFFFFFF, by decide⟩
  let below : Binary64 := ⟨false, 0x433FFFFFFFFFFFFE, by decide⟩
  let one : Binary64 := ⟨false, 0x3FF0000000000000, by decide⟩
  let rule : Rule := ⟨[⟨"p", .equal, .number limit⟩], "a", .number one⟩
  let again : Rule := ⟨[⟨"p", .equal, .number below⟩], "a", .number one⟩
  have compiled : compile "if p == 9007199254740991 then a = 1" = .ok rule.toStored := by
    decide +kernel
  have bound : rule.toStored.bind = .ok rule := by decide +kernel
  have read : (StoredRule.ofText rule.toStored.toText >>= StoredRule.bind) = .ok again := by
    decide +kernel
  have same := h _ _ _ _ compiled bound read ⟨[("p", some (.number limit))], [("a", none)]⟩
  exact absurd same (by decide +kernel)

end Rulebook
