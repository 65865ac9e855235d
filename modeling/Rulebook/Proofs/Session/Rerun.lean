import Rulebook.Proofs.Session.Dependence

/-!
# Passes that are run again

When every rule stands behind the rules that assign what it reads, a second pass finds under each
name what the first one found there, although it starts with the attributes that the first one left.
So it gives the same report (`runPass_fst_again`). Its attributes are overwritten with the same
values once more (`attributes_runPass`), and nothing changes (`runPass_runPass`).
-/

namespace Rulebook

/-! ## The attributes behind a pass -/

/-- Gives every name the value that is listed for it, and leaves the other names as they are. -/
def Bindings.overwrite (bindings : Bindings) (listed? : String → Option Literal) : Bindings :=
  bindings.map fun entry =>
    match listed? entry.1 with
    | some value => (entry.1, some value)
    | none => entry

theorem Bindings.overwrite_overwrite (bindings : Bindings) (listed? : String → Option Literal) :
    (bindings.overwrite listed?).overwrite listed? = bindings.overwrite listed? := by
  unfold overwrite
  rw [List.map_map]
  apply List.map_congr_left
  intro entry _
  cases found : listed? entry.1 with
  | some value => simp [found]
  | none => simp [found]

theorem Bindings.assign_overwrite (bindings : Bindings) (listed? : String → Option Literal)
    (name : String) (value : Literal) :
    (bindings.overwrite listed?).assign name value =
      bindings.overwrite fun other => if name = other then some value else listed? other := by
  unfold overwrite assign
  rw [List.map_map]
  apply List.map_congr_left
  intro entry _
  by_cases same : name = entry.1
  · cases found : listed? entry.1 <;> simp [found, same]
  · have other : ¬ entry.1 = name := fun h => same h.symm
    cases found : listed? entry.1 <;> simp [found, same, other]

/-- The value that the rules which fired give to a name. -/
def derived? (rules : List Rule) (fired : List Nat) (name : String) : Option Literal :=
  (lastAssigning? rules fired name).map Rule.value

theorem derived?_concat {rules : List Rule} {positions : List Nat}
    (inside : positions ⊆ List.range rules.length) (rule : Rule) (fires : Bool) (name : String) :
    derived? (rules ++ [rule]) (positions ++ if fires then [rules.length] else []) name =
      if fires && rule.target == name then some rule.value else derived? rules positions name := by
  rw [derived?, lastAssigning?_concat inside]
  split <;> rfl

theorem attributes_runPass (rules : List Rule) (session : Session) :
    (runPass rules session).2.attributes =
      session.attributes.overwrite (derived? rules (runPass rules session).1.fired) := by
  induction rules using List.reverseRecOn with
  | nil => exact (List.map_id' _).symm
  | append_singleton rules rule ih =>
    have inside : (runPass rules session).1.fired ⊆ List.range rules.length := by
      rw [runPass_fst]
      exact positionsWhere_subset
    have values := derived?_concat inside rule (rule.fires (runPass rules session).2)
    rw [runPass_concat]
    dsimp only [Report.append, Rule.reportAt]
    rw [funext values]
    cases fires : rule.fires (runPass rules session).2 with
    | false =>
      rw [Rule.leave, fires]
      exact ih
    | true =>
      rw [Rule.leave, if_pos fires, Rule.applyTo, ih, Bindings.assign_overwrite]
      simp only [Bool.true_and, beq_iff_eq]

/-! ## Rules in dependency order -/

/-- No rule reads, other than as a parameter, what it assigns itself or a later rule assigns. -/
def InDependencyOrder (rules : List Rule) (session : Session) : Prop :=
  ∀ i j : Fin rules.length, i ≤ j → ∀ comparison ∈ rules[i].condition,
    comparison.left ∉ session.parameters.names → rules[j].target ≠ comparison.left

instance (rules : List Rule) (session : Session) : Decidable (InDependencyOrder rules session) :=
  inferInstanceAs (Decidable (∀ i j : Fin rules.length, i ≤ j →
    ∀ comparison ∈ rules[i].condition,
      comparison.left ∉ session.parameters.names → rules[j].target ≠ comparison.left))

/-- What a rule reads is assigned by no rule from its place on. -/
theorem InDependencyOrder.target_ne {front back : List Rule} {rule : Rule} {session : Session}
    (h : InDependencyOrder (front ++ rule :: back) session) {comparison : Comparison}
    (hmem : comparison ∈ rule.condition) (read : comparison.left ∉ session.parameters.names) :
    ∀ other ∈ rule :: back, other.target ≠ comparison.left := by
  intro other hother
  obtain ⟨offset, inside, rfl⟩ := List.getElem_of_mem hother
  have place : front.length + offset < (front ++ rule :: back).length := by
    rw [List.length_append]
    omega
  have later := h ⟨front.length, by simp⟩ ⟨front.length + offset, place⟩
    (Nat.le_add_right _ _) comparison (by simpa using hmem) read
  simpa using later

/--
Where a rule runs, the second pass gives a name that no rule assigns from there on what the first
pass gave it.
-/
theorem get?_attributes_again {front back : List Rule} {session : Session} {name : String}
    (unassigned : ∀ rule ∈ back, rule.target ≠ name)
    (same : (runPass front (runPass (front ++ back) session).2).1 = (runPass front session).1) :
    (runPass front (runPass (front ++ back) session).2).2.attributes.get? name =
      (runPass front session).2.attributes.get? name := by
  rw [get?_attributes_runPass front (runPass (front ++ back) session).2, same]
  cases assigning : lastAssigning? front (runPass front session).1.fired name with
  | some rule => rw [get?_attributes_runPass front session, assigning]
  | none =>
    rw [runPass_append]
    exact get?_attributes_runPass_of_forall_ne unassigned _

/-- In a second pass every rule does what it did in the first one. -/
theorem runPass_fst_again {front back : List Rule} {session : Session}
    (h : InDependencyOrder (front ++ back) session) :
    (runPass front (runPass (front ++ back) session).2).1 = (runPass front session).1 := by
  induction front using List.reverseRecOn generalizing back with
  | nil => rfl
  | append_singleton front rule ih =>
    rw [List.append_assoc, List.singleton_append] at h ⊢
    have before := ih h
    rw [runPass_concat, runPass_concat, before]
    dsimp only
    congr 1
    apply Rule.reportAt_congr
    · intro comparison hmem
      apply Session.resolve?_congr
      · simp only [parameters_runPass]
      · intro read
        rw [parameters_runPass, parameters_runPass] at read
        exact get?_attributes_again (h.target_ne hmem read) before
    · simp only [has_attributes_runPass]

/-! ## Main statement -/

/--
**A second pass is harmless.** Rules in dependency order give the same report when they are run
again, and leave the session as the first pass left it.
-/
theorem runPass_runPass {rules : List Rule} {session : Session}
    (h : InDependencyOrder rules session) :
    runPass rules (runPass rules session).2 = runPass rules session := by
  have report : (runPass rules (runPass rules session).2).1 = (runPass rules session).1 := by
    have again := @runPass_fst_again rules [] session
    rw [List.append_nil] at again
    exact again h
  apply Prod.ext report
  -- The parameters are those of the session; the attributes are overwritten with what they hold.
  generalize hfirst : (runPass rules session).2 = first at report ⊢
  have parameters : (runPass rules first).2.parameters = first.parameters :=
    parameters_runPass rules first
  have attributes : (runPass rules first).2.attributes = first.attributes := by
    rw [attributes_runPass rules first, report, ← hfirst, attributes_runPass rules session,
      Bindings.overwrite_overwrite]
  calc (runPass rules first).2
      = ⟨(runPass rules first).2.parameters, (runPass rules first).2.attributes⟩ := rfl
    _ = ⟨first.parameters, first.attributes⟩ := by rw [parameters, attributes]
    _ = first := rfl

/--
The first two rules assign one attribute, the third one reads it, and the last one assigns an
attribute that a parameter hides from the first one.
-/
theorem runPass_runPass_hidden_target :
    let rules : List Rule :=
      [⟨[⟨"segment", .equal, .text "young"⟩], "tier", .text "basic"⟩,
        ⟨[⟨"segment", .notEqual, .text "old"⟩], "tier", .text "plus"⟩,
        ⟨[⟨"tier", .equal, .text "plus"⟩], "offer", .text "first"⟩,
        ⟨[⟨"offer", .equal, .text "first"⟩], "segment", .text "old"⟩]
    let session : Session :=
      ⟨[("segment", some (.text "young"))], [("tier", none), ("offer", none), ("segment", none)]⟩
    InDependencyOrder rules session ∧ (runPass rules session).1.fired = [0, 1, 2, 3] ∧
      runPass rules (runPass rules session).2 = runPass rules session := by
  intro rules session
  have ordered : InDependencyOrder rules session := by decide
  exact ⟨ordered, by decide, runPass_runPass ordered⟩

/-- A rule that stands before the one it depends on fires in the second pass only. -/
example :
    let rules : List Rule :=
      [⟨[⟨"tier", .equal, .text "basic"⟩], "offer", .text "first"⟩,
        ⟨[⟨"segment", .equal, .text "young"⟩], "tier", .text "basic"⟩]
    let session : Session :=
      ⟨[("segment", some (.text "young"))], [("tier", none), ("offer", none)]⟩
    (runPass rules session).1.fired = [1] ∧
      (runPass rules (runPass rules session).2).1.fired = [0, 1] := by
  decide

end Rulebook
