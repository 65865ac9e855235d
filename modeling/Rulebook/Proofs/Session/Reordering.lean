import Mathlib.Data.List.FinRange
import Mathlib.Data.List.Sort
import Mathlib.GroupTheory.Perm.List
import Rulebook.Proofs.Session.Dependence

/-!
# Rules in another order

Two rules conflict when both assign one attribute, or one of them reads what the other one assigns.
Neighbours that do not conflict can be exchanged: each reads the same whether it runs first or last,
and they assign different attributes (`SameEffect.exchange`). An order in which every conflicting
pair stands as it is declared is sorted by such exchanges alone (`SameEffect.insertionSort`), so it
leaves the same session, and every rule fires or fails in it as in the declared order
(`runPass_reordered`).
-/

namespace Rulebook

/-! ## Conflicts -/

/-- The condition compares the name, and the name is none of the parameters. -/
def Rule.Reads (rule : Rule) (parameters : Bindings) (name : String) : Prop :=
  name ∉ parameters.names ∧ ∃ comparison ∈ rule.condition, comparison.left = name

instance (rule : Rule) (parameters : Bindings) (name : String) :
    Decidable (rule.Reads parameters name) :=
  inferInstanceAs (Decidable (_ ∧ _))

/-- Both rules assign one attribute, or one of them reads what the other one assigns. -/
def Rule.Conflicts (first second : Rule) (parameters : Bindings) : Prop :=
  first.target = second.target ∨ first.Reads parameters second.target ∨
    second.Reads parameters first.target

instance (first second : Rule) (parameters : Bindings) :
    Decidable (first.Conflicts second parameters) :=
  inferInstanceAs (Decidable (_ ∨ _ ∨ _))

theorem Rule.not_conflicts_iff {first second : Rule} {parameters : Bindings} :
    ¬ first.Conflicts second parameters ↔
      first.target ≠ second.target ∧ ¬ first.Reads parameters second.target ∧
        ¬ second.Reads parameters first.target := by
  rw [Conflicts, not_or, not_or]

theorem Rule.conflicts_comm {first second : Rule} {parameters : Bindings} :
    first.Conflicts second parameters ↔ second.Conflicts first parameters := by
  rw [Conflicts, Conflicts, eq_comm, or_comm (a := first.Reads _ _)]

/-! ## Two rules that do not conflict -/

/-- A rule reads the same behind another one that assigns nothing that it reads. -/
theorem Rule.agreeOn_leave {rule other : Rule} {session : Session}
    (unread : ¬ rule.Reads session.parameters other.target) :
    rule.AgreeOn (other.leave session) session := by
  intro comparison hmem
  apply Session.resolve?_congr (other.parameters_leave session)
  intro undeclared
  rw [parameters_leave] at undeclared
  apply other.get?_attributes_leave_of_ne
  intro same
  exact unread ⟨same ▸ undeclared, comparison, hmem, same.symm⟩

/-- The test depends on what the rule reads and on whether its target is an attribute. -/
def IsLocal (test : Rule → Session → Bool) : Prop :=
  ∀ (rule : Rule) (session session' : Session), rule.AgreeOn session session' →
    session.attributes.has rule.target = session'.attributes.has rule.target →
    test rule session = test rule session'

theorem isLocal_fires : IsLocal Rule.fires :=
  fun _ _ _ => Rule.fires_congr

theorem isLocal_fails : IsLocal Rule.fails :=
  fun _ _ _ agree _ => Rule.fails_congr agree

theorem IsLocal.leave {test : Rule → Session → Bool} (h : IsLocal test) {rule other : Rule}
    {session : Session} (unread : ¬ rule.Reads session.parameters other.target) :
    test rule (other.leave session) = test rule session :=
  h rule _ _ (Rule.agreeOn_leave unread) (other.has_attributes_leave session _)

/-- Rules that do not conflict leave the same session in either order. -/
theorem Rule.leave_leave {first second : Rule} {session : Session}
    (h : ¬ first.Conflicts second session.parameters) :
    second.leave (first.leave session) = first.leave (second.leave session) := by
  obtain ⟨targets, firstUnread, secondUnread⟩ := not_conflicts_iff.1 h
  have firstAfter := isLocal_fires.leave firstUnread
  have secondAfter := isLocal_fires.leave secondUnread
  cases hfirst : first.fires session with
  | false => rw [leave_of_idle hfirst, leave_of_idle (firstAfter.trans hfirst)]
  | true =>
    cases hsecond : second.fires session with
    | false => rw [leave_of_idle hsecond, leave_of_idle (secondAfter.trans hsecond)]
    | true =>
      rw [leave_of_fires (firstAfter.trans hfirst), leave_of_fires (secondAfter.trans hsecond),
        leave_of_fires hfirst, leave_of_fires hsecond]
      exact congrArg (Session.mk session.parameters)
        (Bindings.assign_comm targets session.attributes first.value second.value)

/-! ## Orders of the rules -/

section Orders

variable {rules : List Rule} {test : Rule → Session → Bool}

/-- The rule that is declared at the place passes the test where it runs in the order. -/
def PassesIn (test : Rule → Session → Bool) (order : List (Fin rules.length)) (session : Session)
    (place : Fin rules.length) : Prop :=
  ∃ position, order[position]? = some place ∧
    test (rules.get place) (sessionAt (order.map rules.get) session position) = true

theorem passesIn_cons {first : Fin rules.length} {order : List (Fin rules.length)}
    {session : Session} {place : Fin rules.length} :
    PassesIn test (first :: order) session place ↔
      (first = place ∧ test (rules.get place) session = true) ∨
        PassesIn test order ((rules.get first).leave session) place := by
  rw [PassesIn, ← Nat.or_exists_add_one, PassesIn]
  simp [sessionAt_zero, sessionAt_cons]

/-- Both orders leave the same session, and every rule passes local tests in both or in neither. -/
def SameEffect (parameters : Bindings) (order order' : List (Fin rules.length)) : Prop :=
  ∀ session : Session, session.parameters = parameters →
    (runPass (order.map rules.get) session).2 = (runPass (order'.map rules.get) session).2 ∧
      ∀ test, IsLocal test → ∀ place,
        PassesIn test order session place ↔ PassesIn test order' session place

variable {parameters : Bindings}

theorem SameEffect.refl (order : List (Fin rules.length)) : SameEffect parameters order order :=
  fun _ _ => ⟨rfl, fun _ _ _ => Iff.rfl⟩

theorem SameEffect.trans {first second third : List (Fin rules.length)}
    (h : SameEffect parameters first second) (h' : SameEffect parameters second third) :
    SameEffect parameters first third := by
  intro session hparameters
  obtain ⟨same, passes⟩ := h session hparameters
  obtain ⟨same', passes'⟩ := h' session hparameters
  exact ⟨same.trans same', fun test isLocal place =>
    (passes test isLocal place).trans (passes' test isLocal place)⟩

theorem SameEffect.cons {order order' : List (Fin rules.length)}
    (h : SameEffect parameters order order') (first : Fin rules.length) :
    SameEffect parameters (first :: order) (first :: order') := by
  intro session hparameters
  obtain ⟨same, passes⟩ := h ((rules.get first).leave session)
    (by rw [Rule.parameters_leave, hparameters])
  refine ⟨?_, fun test isLocal place => ?_⟩
  · rw [List.map_cons, List.map_cons, runPass_cons_snd, runPass_cons_snd]
    exact same
  · rw [passesIn_cons, passesIn_cons, passes test isLocal place]

/-- Neighbours that do not conflict can be exchanged. -/
theorem SameEffect.exchange {first second : Fin rules.length}
    (h : ¬ (rules.get first).Conflicts (rules.get second) parameters)
    (order : List (Fin rules.length)) :
    SameEffect parameters (first :: second :: order) (second :: first :: order) := by
  intro session hparameters
  subst hparameters
  have same := Rule.leave_leave h
  refine ⟨?_, fun test isLocal place => ?_⟩
  · simp only [List.map_cons, runPass_cons_snd]
    exact congrArg (fun after => (runPass (order.map rules.get) after).2) same
  · obtain ⟨-, firstUnread, secondUnread⟩ := Rule.not_conflicts_iff.1 h
    have firstAfter :
        first = place ∧ test (rules.get place) ((rules.get second).leave session) = true ↔
          first = place ∧ test (rules.get place) session = true :=
      and_congr_right fun here => by rw [← here, isLocal.leave firstUnread]
    have secondAfter :
        second = place ∧ test (rules.get place) ((rules.get first).leave session) = true ↔
          second = place ∧ test (rules.get place) session = true :=
      and_congr_right fun here => by rw [← here, isLocal.leave secondUnread]
    simp only [passesIn_cons]
    rw [same, firstAfter, secondAfter, or_left_comm]

/-- A rule can be moved behind those that are declared before it and do not conflict with it. -/
theorem SameEffect.orderedInsert {first : Fin rules.length} {order : List (Fin rules.length)}
    (h : ∀ place ∈ order,
      (rules.get first).Conflicts (rules.get place) parameters → first < place) :
    SameEffect parameters (first :: order) (order.orderedInsert (· ≤ ·) first) := by
  induction order with
  | nil => exact .refl _
  | cons place order ih =>
    obtain ⟨here, others⟩ := List.forall_mem_cons.1 h
    rw [List.orderedInsert]
    split
    · exact .refl _
    · next passed =>
      have free : ¬ (rules.get first).Conflicts (rules.get place) parameters :=
        fun conflict => passed (here conflict).le
      exact (SameEffect.exchange free order).trans ((ih others).cons place)

/-- Sorting an order in which conflicting rules stand as declared exchanges no such pair. -/
theorem SameEffect.insertionSort {order : List (Fin rules.length)}
    (h : order.Pairwise fun first second =>
      (rules.get first).Conflicts (rules.get second) parameters → first < second) :
    SameEffect parameters order (order.insertionSort (· ≤ ·)) := by
  induction order with
  | nil => exact .refl _
  | cons first order ih =>
    obtain ⟨here, others⟩ := List.pairwise_cons.1 h
    refine ((ih others).cons first).trans (SameEffect.orderedInsert fun place hmem => ?_)
    exact here place ((List.mem_insertionSort _).1 hmem)

end Orders

/-! ## Permutations -/

/-- The rules, each of them moved to its new place. -/
def reordered (rules : List Rule) (place : Equiv.Perm (Fin rules.length)) : List Rule :=
  List.ofFn fun position => rules.get (place.symm position)

/-- Rules that conflict in the session stand in the same order in the new places. -/
def KeepsConflicts (rules : List Rule) (session : Session) (place : Equiv.Perm (Fin rules.length)) :
    Prop :=
  ∀ i j : Fin rules.length, i < j → (rules.get i).Conflicts (rules.get j) session.parameters →
    place i < place j

instance (rules : List Rule) (session : Session) (place : Equiv.Perm (Fin rules.length)) :
    Decidable (KeepsConflicts rules session place) :=
  inferInstanceAs (Decidable (∀ i j : Fin rules.length, i < j →
    (rules.get i).Conflicts (rules.get j) session.parameters → place i < place j))

section Permutations

variable {rules : List Rule} {session : Session} {place : Equiv.Perm (Fin rules.length)}

theorem map_ofFn_symm : (List.ofFn place.symm).map rules.get = reordered rules place :=
  List.map_ofFn

theorem reordered_refl (rules : List Rule) : reordered rules (Equiv.refl _) = rules :=
  List.ofFn_getElem

theorem getElem?_ofFn_symm_eq_some_iff {position : Nat} {i : Fin rules.length} :
    (List.ofFn place.symm)[position]? = some i ↔ position = place i := by
  rw [List.getElem?_ofFn]
  constructor
  · intro found
    split at found
    · rw [Option.some.injEq, Equiv.symm_apply_eq] at found
      rw [← found]
    · cases found
  · rintro rfl
    simp

/-- A rule passes a test in the order of the new places exactly when it passes it at its place. -/
theorem passesIn_ofFn_symm {test : Rule → Session → Bool} {i : Fin rules.length} :
    PassesIn test (List.ofFn place.symm) session i ↔
      (place i : Nat) ∈ positionsWhere test (reordered rules place) session := by
  have found : (reordered rules place)[(place i : Nat)]? = some (rules.get i) := by
    simp [reordered]
  rw [mem_positionsWhere_iff, PassesIn, map_ofFn_symm]
  simp only [getElem?_ofFn_symm_eq_some_iff, found, Option.some.injEq, exists_eq_left,
    exists_eq_left']

theorem KeepsConflicts.pairwise (h : KeepsConflicts rules session place) :
    (List.ofFn place.symm).Pairwise fun first second =>
      (rules.get first).Conflicts (rules.get second) session.parameters → first < second := by
  rw [List.pairwise_ofFn]
  intro i j before conflict
  -- Else the two would stand the other way round in the new places.
  by_contra later
  have distinct : place.symm j ≠ place.symm i := fun same => before.ne' (place.symm.injective same)
  have moved := h _ _ (lt_of_le_of_ne (not_lt.1 later) distinct) (Rule.conflicts_comm.1 conflict)
  rw [Equiv.apply_symm_apply, Equiv.apply_symm_apply] at moved
  exact lt_asymm before moved

/-- Sorted, the new order is the declared one. -/
theorem insertionSort_ofFn_symm :
    (List.ofFn place.symm).insertionSort (· ≤ ·) = List.ofFn (Equiv.refl _).symm := by
  apply List.Perm.eq_of_pairwise (fun _ _ _ _ => le_antisymm)
  · exact List.pairwise_insertionSort _ _
  · exact List.pairwise_ofFn.2 fun i j before => before.le
  · exact (List.perm_insertionSort _ _).trans (Equiv.Perm.ofFn_comp_perm place.symm id)

end Permutations

/-! ## Main statement -/

/--
**The order of rules that do not conflict is irrelevant.** When the rules are moved to other places
and every conflicting pair keeps its order, a pass leaves the same session, and each rule fires or
fails at its new place exactly when it does so at its old one.
-/
theorem runPass_reordered {rules : List Rule} {session : Session}
    {place : Equiv.Perm (Fin rules.length)} (h : KeepsConflicts rules session place) :
    (runPass (reordered rules place) session).2 = (runPass rules session).2 ∧
      ∀ i : Fin rules.length,
        ((place i : Nat) ∈ (runPass (reordered rules place) session).1.fired ↔
          (i : Nat) ∈ (runPass rules session).1.fired) ∧
        ((place i : Nat) ∈ (runPass (reordered rules place) session).1.failed ↔
          (i : Nat) ∈ (runPass rules session).1.failed) := by
  have sorted := SameEffect.insertionSort h.pairwise
  rw [insertionSort_ofFn_symm] at sorted
  obtain ⟨same, passes⟩ := sorted session rfl
  simp only [map_ofFn_symm, reordered_refl, passesIn_ofFn_symm] at same passes
  refine ⟨same, fun i => ?_⟩
  rw [runPass_fst, runPass_fst]
  exact ⟨passes _ isLocal_fires i, passes _ isLocal_fails i⟩

/--
The first, third and fourth rule have to keep their order, and so have the second and the last one;
the last one assigns an attribute that a parameter hides from the others.
-/
theorem runPass_reordered_hidden_target :
    let rules : List Rule :=
      [⟨[⟨"segment", .equal, .text "young"⟩], "tier", .text "basic"⟩,
        ⟨[⟨"segment", .notEqual, .text "old"⟩], "offer", .text "first"⟩,
        ⟨[⟨"tier", .equal, .text "basic"⟩], "gift", .text "card"⟩,
        ⟨[⟨"segment", .more, .text "young"⟩], "tier", .text "none"⟩,
        ⟨[⟨"offer", .equal, .text "first"⟩], "segment", .text "old"⟩]
    let session : Session :=
      ⟨[("segment", some (.text "young"))],
        [("tier", none), ("offer", none), ("gift", none), ("segment", none)]⟩
    let place : Equiv.Perm (Fin rules.length) := [0, 2, 3, 4, 1].formPerm
    KeepsConflicts rules session place ∧
      (runPass rules session).1 = ⟨[0, 1, 2, 4], [3]⟩ ∧
      (runPass (reordered rules place) session).1 = ⟨[0, 1, 2, 3], [4]⟩ ∧
      (runPass (reordered rules place) session).2 = (runPass rules session).2 ∧
      ∀ i : Fin rules.length,
        ((place i : Nat) ∈ (runPass (reordered rules place) session).1.fired ↔
          (i : Nat) ∈ (runPass rules session).1.fired) ∧
        ((place i : Nat) ∈ (runPass (reordered rules place) session).1.failed ↔
          (i : Nat) ∈ (runPass rules session).1.failed) := by
  intro rules session place
  have kept : KeepsConflicts rules session place := by decide
  exact ⟨kept, by decide, by decide, runPass_reordered kept⟩

end Rulebook
