import Mathlib.Data.List.Basic
import Mathlib.Data.List.Range
import Rulebook.Session.Pass

/-!
# What a pass does

A rule acts on the session that the rules before it left, so a pass over a list is said by the pass
over its front and the outcome of its last rule (`runPass_concat`). From this come the two closed
forms: the report lists the positions of the rules that fire and of those that fail where they stand
(`runPass_fst`), and an attribute ends with the value of the last rule that fired for it
(`get?_attributes_runPass`).
-/

namespace Rulebook

/-! ## One rule -/

/-- The condition holds, and the target is an attribute of the session. -/
def Rule.fires (rule : Rule) (session : Session) : Bool :=
  match rule.check session with
  | .ok verdict => verdict && session.attributes.has rule.target
  | .error _ => false

/-- The condition cannot be evaluated. -/
def Rule.fails (rule : Rule) (session : Session) : Bool :=
  match rule.check session with
  | .ok _ => false
  | .error _ => true

/-- The session with the rule's value assigned, whatever its condition says. -/
def Rule.applyTo (rule : Rule) (session : Session) : Session :=
  ⟨session.parameters, session.attributes.assign rule.target rule.value⟩

theorem Rule.fires_iff {rule : Rule} {session : Session} :
    rule.fires session = true ↔
      rule.check session = .ok true ∧ rule.target ∈ session.attributes.names := by
  unfold fires
  cases rule.check session with
  | error fault => simp
  | ok verdict => simp [Bindings.has_iff_mem_names]

theorem Rule.fails_iff {rule : Rule} {session : Session} :
    rule.fails session = true ↔ ∃ fault, rule.check session = .error fault := by
  unfold fails
  cases rule.check session with
  | error fault => simp
  | ok verdict => simp

theorem Rule.fails_eq_false_of_fires {rule : Rule} {session : Session}
    (h : rule.fires session = true) : rule.fails session = false := by
  rw [fails, (fires_iff.1 h).1]

theorem Rule.fires_eq_false_of_fails {rule : Rule} {session : Session}
    (h : rule.fails session = true) : rule.fires session = false := by
  obtain ⟨fault, hcheck⟩ := fails_iff.1 h
  rw [fires, hcheck]

/-- A rule fires and assigns, or fails, or leaves the session as it is. -/
theorem Rule.run_cases (rule : Rule) (session : Session) :
    (rule.fires session = true ∧ rule.run session = .ok (true, rule.applyTo session)) ∨
      (rule.fails session = true ∧ ∃ fault, rule.run session = .error fault) ∨
      (rule.fires session = false ∧ rule.fails session = false ∧
        rule.run session = .ok (false, session)) := by
  unfold fires fails
  rw [run_eq]
  cases rule.check session with
  | error fault => exact .inr (.inl ⟨rfl, fault, rfl⟩)
  | ok verdict =>
    cases verdict with
    | false => exact .inr (.inr ⟨rfl, rfl, rfl⟩)
    | true =>
      unfold Session.assignAttribute?
      cases hhas : session.attributes.has rule.target with
      | true => exact .inl ⟨rfl, rfl⟩
      | false => exact .inr (.inr ⟨rfl, rfl, rfl⟩)

theorem Rule.run_of_fires {rule : Rule} {session : Session} (h : rule.fires session = true) :
    rule.run session = .ok (true, rule.applyTo session) := by
  rcases rule.run_cases session with ⟨-, hrun⟩ | ⟨fails, -⟩ | ⟨idle, -, -⟩
  · exact hrun
  · rw [fires_eq_false_of_fails fails] at h
    cases h
  · rw [idle] at h
    cases h

/-! ## Reports -/

namespace Report

/-- The report of a list that stands behind so many other rules. -/
def shift (report : Report) (offset : Nat) : Report :=
  ⟨report.fired.map (· + offset), report.failed.map (· + offset)⟩

/-- The reports of two lists of which the second one stands behind the first one. -/
def append (front back : Report) : Report :=
  ⟨front.fired ++ back.fired, front.failed ++ back.failed⟩

theorem append_empty (report : Report) : report.append empty = report := by
  simp [append, empty]

theorem append_assoc (first second third : Report) :
    (first.append second).append third = first.append (second.append third) := by
  simp [append, List.append_assoc]

theorem shift_append (front back : Report) (offset : Nat) :
    (front.append back).shift offset = (front.shift offset).append (back.shift offset) := by
  simp [append, shift, List.map_append]

end Report

/-- What the rule adds to a report at its position. -/
def Rule.reportAt (rule : Rule) (position : Nat) (session : Session) : Report :=
  ⟨if rule.fires session then [position] else [], if rule.fails session then [position] else []⟩

/-- The session that the rule leaves. -/
def Rule.leave (rule : Rule) (session : Session) : Session :=
  if rule.fires session then rule.applyTo session else session

theorem Rule.leave_of_fires {rule : Rule} {session : Session} (h : rule.fires session = true) :
    rule.leave session = rule.applyTo session :=
  if_pos h

theorem Rule.leave_of_idle {rule : Rule} {session : Session} (h : rule.fires session = false) :
    rule.leave session = session :=
  if_neg (by rw [h]; exact Bool.false_ne_true)

theorem Rule.shift_reportAt (rule : Rule) (position offset : Nat) (session : Session) :
    (rule.reportAt position session).shift offset = rule.reportAt (position + offset) session := by
  unfold reportAt Report.shift
  cases rule.fires session <;> cases rule.fails session <;> rfl

/-! ## One list after another -/

theorem runFrom_cons (position : Nat) (rule : Rule) (rest : List Rule) (session : Session) :
    runFrom position (rule :: rest) session =
      ((rule.reportAt position session).append
          (runFrom (position + 1) rest (rule.leave session)).1,
        (runFrom (position + 1) rest (rule.leave session)).2) := by
  rw [runFrom, rule.evaluate_eq_run]
  rcases rule.run_cases session with ⟨fires, hrun⟩ | ⟨fails, fault, hrun⟩ | ⟨idle, holds, hrun⟩
  · simp [hrun, Rule.reportAt, Rule.leave, fires, Rule.fails_eq_false_of_fires fires,
      Report.append, Report.consFired]
  · have idle := Rule.fires_eq_false_of_fails fails
    simp [hrun, Rule.reportAt, Rule.leave, fails, idle, Report.append, Report.consFailed]
  · simp [hrun, Rule.reportAt, Rule.leave, idle, holds, Report.append]

theorem runFrom_add (position offset : Nat) (rules : List Rule) (session : Session) :
    runFrom (position + offset) rules session =
      ((runFrom position rules session).1.shift offset, (runFrom position rules session).2) := by
  induction rules generalizing position session with
  | nil => rfl
  | cons rule rest ih =>
    have next : position + offset + 1 = position + 1 + offset := by omega
    rw [runFrom_cons, runFrom_cons, next, ih, Report.shift_append, Rule.shift_reportAt]

theorem runFrom_append (position : Nat) (front back : List Rule) (session : Session) :
    runFrom position (front ++ back) session =
      ((runFrom position front session).1.append
          (runFrom (position + front.length) back (runFrom position front session).2).1,
        (runFrom (position + front.length) back (runFrom position front session).2).2) := by
  induction front generalizing position session with
  | nil => rfl
  | cons rule rest ih =>
    have next : position + (rest.length + 1) = position + 1 + rest.length := by omega
    rw [List.cons_append, List.length_cons, runFrom_cons, runFrom_cons, ih, next,
      Report.append_assoc]

/-- The second list runs in the session that the first one left. -/
theorem runPass_append (front back : List Rule) (session : Session) :
    runPass (front ++ back) session =
      ((runPass front session).1.append
          ((runPass back (runPass front session).2).1.shift front.length),
        (runPass back (runPass front session).2).2) := by
  unfold runPass
  rw [runFrom_append, runFrom_add]

/-- The last rule of a list runs in the session that the others left. -/
theorem runPass_concat (rules : List Rule) (rule : Rule) (session : Session) :
    runPass (rules ++ [rule]) session =
      ((runPass rules session).1.append
          (rule.reportAt rules.length (runPass rules session).2),
        rule.leave (runPass rules session).2) := by
  unfold runPass
  rw [runFrom_append, Nat.zero_add, runFrom_cons, runFrom, Report.append_empty]

theorem runPass_cons_snd (rule : Rule) (rest : List Rule) (session : Session) :
    (runPass (rule :: rest) session).2 = (runPass rest (rule.leave session)).2 := by
  unfold runPass
  rw [runFrom_cons, runFrom_add]

/-! ## Positions -/

/-- The session in which the rule at the position runs: the rules before it left it. -/
def sessionAt (rules : List Rule) (session : Session) (position : Nat) : Session :=
  (runPass (rules.take position) session).2

theorem sessionAt_zero (rules : List Rule) (session : Session) :
    sessionAt rules session 0 = session := rfl

theorem sessionAt_cons (rule : Rule) (rest : List Rule) (session : Session) (position : Nat) :
    sessionAt (rule :: rest) session (position + 1) =
      sessionAt rest (rule.leave session) position := by
  unfold sessionAt runPass
  rw [List.take_succ_cons, runFrom_cons, runFrom_add]

/-- The positions of the rules that pass a test in the session in which they run. -/
def positionsWhere (test : Rule → Session → Bool) (rules : List Rule) (session : Session) :
    List Nat :=
  (List.range rules.length).filter fun position =>
    rules[position]?.any fun rule => test rule (sessionAt rules session position)

section positionsWhere

variable {test : Rule → Session → Bool} {rules : List Rule} {session : Session}

theorem mem_positionsWhere_iff {position : Nat} :
    position ∈ positionsWhere test rules session ↔
      ∃ rule, rules[position]? = some rule ∧
        test rule (sessionAt rules session position) = true := by
  rw [positionsWhere, List.mem_filter, List.mem_range, Option.any_eq_true]
  constructor
  · rintro ⟨-, rule, found, passes⟩
    exact ⟨rule, found, passes⟩
  · rintro ⟨rule, found, passes⟩
    obtain ⟨inside, -⟩ := List.getElem?_eq_some_iff.1 found
    exact ⟨inside, rule, found, passes⟩

theorem pairwise_positionsWhere : (positionsWhere test rules session).Pairwise (· < ·) :=
  List.pairwise_lt_range.filter _

theorem positionsWhere_subset :
    positionsWhere test rules session ⊆ List.range rules.length :=
  List.filter_sublist.subset

theorem positionsWhere_concat (rule : Rule) :
    positionsWhere test (rules ++ [rule]) session =
      positionsWhere test rules session
        ++ if test rule (runPass rules session).2 then [rules.length] else [] := by
  -- The last rule has no part in the sessions in which the others run.
  have front : ∀ position ∈ List.range rules.length,
      ((rules ++ [rule])[position]?.any fun one =>
          test one (sessionAt (rules ++ [rule]) session position)) =
        rules[position]?.any fun one => test one (sessionAt rules session position) := by
    intro position inside
    have inside := List.mem_range.1 inside
    rw [List.getElem?_append_left inside, sessionAt, List.take_append_of_le_length (by omega),
      ← sessionAt]
  rw [positionsWhere, List.length_append, List.length_singleton, List.range_succ,
    List.filter_append, List.filter_congr front, ← positionsWhere, List.filter_singleton]
  simp [sessionAt]

end positionsWhere

/-- The report of a pass lists the rules that fire, and those that fail, where they stand. -/
theorem runPass_fst (rules : List Rule) (session : Session) :
    (runPass rules session).1 =
      ⟨positionsWhere Rule.fires rules session, positionsWhere Rule.fails rules session⟩ := by
  induction rules using List.reverseRecOn with
  | nil => rfl
  | append_singleton rules rule ih =>
    rw [runPass_concat, ih, positionsWhere_concat, positionsWhere_concat]
    rfl

/-! ## Values -/

/-- The last of the rules at the positions that has the target. -/
def lastAssigning? (rules : List Rule) (positions : List Nat) (target : String) : Option Rule :=
  ((positions.filterMap (rules[·]?)).filter (·.target == target)).getLast?

theorem lastAssigning?_concat {rules : List Rule} {positions : List Nat}
    (inside : positions ⊆ List.range rules.length) (rule : Rule) (fires : Bool) (target : String) :
    lastAssigning? (rules ++ [rule]) (positions ++ if fires then [rules.length] else []) target =
      if fires && rule.target == target then some rule
      else lastAssigning? rules positions target := by
  have front : positions.filterMap ((rules ++ [rule])[·]?) = positions.filterMap (rules[·]?) := by
    apply List.filterMap_congr
    intro position hmem
    exact List.getElem?_append_left (List.mem_range.1 (inside hmem))
  unfold lastAssigning?
  rw [List.filterMap_append, front]
  cases fires with
  | false => simp
  | true =>
    by_cases same : rule.target = target
    · simp [same]
    · simp [same]

@[simp] theorem Rule.parameters_leave (rule : Rule) (session : Session) :
    (rule.leave session).parameters = session.parameters := by
  unfold leave
  split <;> rfl

@[simp] theorem Rule.names_attributes_leave (rule : Rule) (session : Session) :
    (rule.leave session).attributes.names = session.attributes.names := by
  unfold leave
  split
  · exact Bindings.names_assign _ _ _
  · rfl

theorem parameters_runPass (rules : List Rule) (session : Session) :
    (runPass rules session).2.parameters = session.parameters := by
  induction rules using List.reverseRecOn with
  | nil => rfl
  | append_singleton rules rule ih => rw [runPass_concat, rule.parameters_leave, ih]

theorem names_attributes_runPass (rules : List Rule) (session : Session) :
    (runPass rules session).2.attributes.names = session.attributes.names := by
  induction rules using List.reverseRecOn with
  | nil => rfl
  | append_singleton rules rule ih => rw [runPass_concat, rule.names_attributes_leave, ih]

/-- A rule that fires gives its target the value; everything else stays. -/
theorem Rule.get?_attributes_leave (rule : Rule) (session : Session) (name : String) :
    (rule.leave session).attributes.get? name =
      if rule.fires session && rule.target == name then some (some rule.value)
      else session.attributes.get? name := by
  cases fires : rule.fires session with
  | false => simp [leave, fires]
  | true =>
    have declared : session.attributes.has rule.target = true :=
      (Bindings.has_iff_mem_names _ _).2 (fires_iff.1 fires).2
    rw [Bindings.has_eq_isSome_get?, Option.isSome_iff_exists] at declared
    obtain ⟨value, hvalue⟩ := declared
    by_cases same : rule.target = name
    · subst same
      simp [leave, fires, applyTo, Bindings.get?_assign, hvalue]
    · simp [leave, fires, applyTo, Bindings.get?_assign, same]

/-- An attribute has the value of the last rule that fired for it. -/
theorem get?_attributes_runPass (rules : List Rule) (session : Session) (name : String) :
    (runPass rules session).2.attributes.get? name =
      match lastAssigning? rules (runPass rules session).1.fired name with
      | some rule => some (some rule.value)
      | none => session.attributes.get? name := by
  induction rules using List.reverseRecOn with
  | nil => rfl
  | append_singleton rules rule ih =>
    have inside : (runPass rules session).1.fired ⊆ List.range rules.length := by
      rw [runPass_fst]
      exact positionsWhere_subset
    rw [runPass_concat]
    dsimp only [Report.append, Rule.reportAt]
    rw [lastAssigning?_concat inside, Rule.get?_attributes_leave, ih]
    split <;> rfl

/-- The second rule reads what the first one derived, and gives the value that stays. -/
example :
    runPass
        [⟨[⟨"segment", .equal, .text "young"⟩], "tier", .text "basic"⟩,
          ⟨[⟨"tier", .equal, .text "basic"⟩], "tier", .text "senior"⟩,
          ⟨[⟨"tier", .more, .text "basic"⟩], "tier", .text "none"⟩]
        ⟨[("segment", some (.text "young"))], [("tier", none)]⟩ =
      (⟨[0, 1], [2]⟩,
        ⟨[("segment", some (.text "young"))], [("tier", some (.text "senior"))]⟩) := by
  decide

/-! ## Main statement -/

theorem disjoint_fired_failed (rules : List Rule) (session : Session) :
    (runPass rules session).1.fired.Disjoint (runPass rules session).1.failed := by
  rw [runPass_fst]
  intro position hfired hfailed
  obtain ⟨rule, found, fires⟩ := mem_positionsWhere_iff.1 hfired
  obtain ⟨rule', found', fails⟩ := mem_positionsWhere_iff.1 hfailed
  rw [found, Option.some.injEq] at found'
  subst found'
  rw [Rule.fails_eq_false_of_fires fires] at fails
  cases fails

/--
**What a pass means.** A pass keeps the parameters and the names of the attributes. An attribute
ends with the value of the last rule that fired for it, or else as it was. The report lists, in
order, the rules whose condition holds and whose target is an attribute where they run, and those
that cannot be evaluated there. A list that follows another one runs in the session that it left.
-/
theorem pass_meaning (rules : List Rule) (session : Session) :
    (runPass rules session).2.parameters = session.parameters ∧
    (runPass rules session).2.attributes.names = session.attributes.names ∧
    (∀ name, (runPass rules session).2.attributes.get? name =
      match lastAssigning? rules (runPass rules session).1.fired name with
      | some rule => some (some rule.value)
      | none => session.attributes.get? name) ∧
    (runPass rules session).1.fired.Pairwise (· < ·) ∧
    (runPass rules session).1.failed.Pairwise (· < ·) ∧
    (runPass rules session).1.fired.Disjoint (runPass rules session).1.failed ∧
    (runPass rules session).1.fired ⊆ List.range rules.length ∧
    (runPass rules session).1.failed ⊆ List.range rules.length ∧
    (∀ position, position ∈ (runPass rules session).1.fired ↔
      ∃ rule, rules[position]? = some rule ∧
        rule.check (sessionAt rules session position) = .ok true ∧
        rule.target ∈ (sessionAt rules session position).attributes.names) ∧
    (∀ position, position ∈ (runPass rules session).1.failed ↔
      ∃ rule, rules[position]? = some rule ∧
        ∃ fault, rule.check (sessionAt rules session position) = .error fault) ∧
    (∀ more, runPass (rules ++ more) session =
      ((runPass rules session).1.append
          ((runPass more (runPass rules session).2).1.shift rules.length),
        (runPass more (runPass rules session).2).2)) := by
  refine ⟨parameters_runPass rules session, names_attributes_runPass rules session,
    get?_attributes_runPass rules session, ?_, ?_, disjoint_fired_failed rules session, ?_, ?_,
    ?_, ?_, fun more => runPass_append rules more session⟩
  all_goals rw [runPass_fst]
  · exact pairwise_positionsWhere
  · exact pairwise_positionsWhere
  · exact positionsWhere_subset
  · exact positionsWhere_subset
  · intro position
    rw [mem_positionsWhere_iff]
    simp only [Rule.fires_iff]
  · intro position
    rw [mem_positionsWhere_iff]
    simp only [Rule.fails_iff]

end Rulebook
