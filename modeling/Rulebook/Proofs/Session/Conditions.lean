import Rulebook.Proofs.Session.Typing

/-!
# What conditions meet

The session and the schema look names up on their own, but in the same way: both let a declared
parameter hide an attribute of its name, the session even while the parameter has no value. So what
a condition finds under a name in a session of a model is of the kind that the schema gives to the
name (`Session.Typed.fits_of_resolve?`), and a rule that fits the schema meets values of the kind of
its literals only. It can be evaluated (`Session.Typed.exists_check`), and it fires where its
condition holds (`Session.Typed.run_eq_of_check`).
-/

namespace Rulebook

/-! ## Values under names -/

/-- The value under a name is of the kind that the schema gives to the name. -/
theorem Session.Typed.fits_of_resolve? {model : Model} {session : Session}
    (h : session.Typed model) {name : String} {value : Literal}
    (found : session.resolve? name = some value) :
    ∃ kind, model.schema.lookup? name = some kind ∧ kind.Fits value := by
  unfold resolve? at found
  cases hparameter : session.parameters.get? name with
  | some bound =>
    rw [hparameter] at found
    have set : session.parameters.value? name = some value := by
      rw [Bindings.value?, hparameter]
      exact found
    obtain ⟨kind, declared, fits⟩ := h.parameters.values name value set
    refine ⟨kind, ?_, fits⟩
    have declared : model.schema.parameter? name = some kind := declared
    rw [Schema.lookup?, declared]
    rfl
  | none =>
    -- The name is no parameter of the session, so it is none of the schema either.
    rw [hparameter] at found
    obtain ⟨kind, declared, fits⟩ := h.attributes.values name value found
    refine ⟨kind, ?_, fits⟩
    have undeclared : model.schema.parameter? name = none := by
      cases hkind : model.schema.parameter? name with
      | none => rfl
      | some other =>
        have mem := h.mem_parameters hkind
        rw [← Bindings.has_iff_mem_names, Bindings.has_eq_isSome_get?, hparameter] at mem
        cases mem
    have declared : model.schema.attribute? name = some kind := declared
    rw [Schema.lookup?, undeclared, declared]
    rfl

/-- A parameter without value hides an attribute that has one. -/
example : Session.resolve? ⟨[("tier", none)], [("tier", some (.text "basic"))]⟩ "tier" = none := by
  decide

/-! ## Conditions that can be evaluated -/

/-- A value and a literal of one kind compare, unless the relation asks for an order of texts. -/
theorem Relation.exists_holds {relation : Relation} {value literal : Literal}
    (same : value.isText = literal.isText)
    (unordered : (relation.isOrdering && literal.isText) = false) :
    ∃ verdict, relation.holds value literal = .ok verdict := by
  cases value with
  | number x =>
    cases literal with
    | number y => exact ⟨_, rfl⟩
    | text y => cases same
  | text x =>
    cases literal with
    | number y => cases same
    | text y =>
      cases relation with
      | equal => exact ⟨_, rfl⟩
      | notEqual => exact ⟨_, rfl⟩
      | less => cases unordered
      | more => cases unordered
      | moreOrEqual => cases unordered
      | lessOrEqual => cases unordered

theorem exists_checkAll {session : Session} {condition : List Comparison}
    (h : ∀ comparison ∈ condition, ∃ verdict, comparison.check session = .ok verdict) :
    ∃ verdict, checkAll session condition = .ok verdict := by
  induction condition with
  | nil => exact ⟨true, rfl⟩
  | cons comparison rest ih =>
    obtain ⟨⟨verdict, hcheck⟩, others⟩ := List.forall_mem_cons.1 h
    rw [checkAll, hcheck]
    cases verdict with
    | true => exact ih others
    | false => exact ⟨false, rfl⟩

namespace Session.Typed

variable {model : Model} {session : Session} {rule : Rule}

/-- What a comparison of a fitting rule meets is of the kind of its literal. -/
theorem isText_eq (h : session.Typed model) {comparison : Comparison}
    (fits : comparison.Fits model.schema) {value : Literal}
    (found : session.resolve? comparison.left = some value) :
    value.isText = comparison.right.isText := by
  obtain ⟨kind, declared, ofKind⟩ := fits
  obtain ⟨kind', declared', ofKind'⟩ := h.fits_of_resolve? found
  rw [declared, Option.some.injEq] at declared'
  subst declared'
  exact ofKind'.isText_eq ofKind

theorem exists_comparison_check (h : session.Typed model) {comparison : Comparison}
    (fits : comparison.Fits model.schema) (unordered : comparison.ordersText = false) :
    ∃ verdict, comparison.check session = .ok verdict := by
  unfold Comparison.check
  cases found : session.resolve? comparison.left with
  | none => exact ⟨false, rfl⟩
  | some value => exact Relation.exists_holds (h.isText_eq fits found) unordered

/-- A fitting rule can be evaluated. -/
theorem exists_check (h : session.Typed model) (fits : rule.Fits model.schema) :
    ∃ verdict, rule.check session = .ok verdict := by
  have nonempty : rule.condition.isEmpty = false := List.isEmpty_eq_false_iff.2 fits.nonempty
  rw [Rule.check, nonempty]
  apply exists_checkAll
  intro comparison hmem
  exact h.exists_comparison_check (fits.condition comparison hmem) (fits.unordered comparison hmem)

theorem target_mem (h : session.Typed model) (fits : rule.Fits model.schema) :
    rule.target ∈ session.attributes.names := by
  obtain ⟨kind, declared, -⟩ := fits.target
  exact h.mem_attributes declared

/-- A fitting rule fires where its condition holds. -/
theorem run_eq_of_check (h : session.Typed model) (fits : rule.Fits model.schema)
    (holds : rule.check session = .ok true) :
    rule.run session = .ok (true, rule.applyTo session) :=
  Rule.run_of_fires (Rule.fires_iff.2 ⟨holds, h.target_mem fits⟩)

end Session.Typed

/-! ## Main statement -/

/--
**Rules meet the kinds that they were checked for.** In a session of a model, after any answers,
passes and resets, and at any point inside a further pass, a comparison of a rule of the model finds
under its name no value, or one of the kind of its literal and of the kind that the schema gives to
the name. So every condition can be evaluated, and a rule whose condition holds fires, as its target
is an attribute of the session.
-/
theorem rules_meet_checked_kinds (model : Model) :
    ∃ rules, (RuleSet.ofModel model).bind = .ok rules ∧
      ∀ (steps : List Session.Step) (position : Nat),
        let session := sessionAt rules
          ((Session.ofModel model).follow model.schema rules steps) position
        ∀ rule ∈ rules,
          (∀ comparison ∈ rule.condition,
            (∀ value, session.resolve? comparison.left = some value →
              value.isText = comparison.right.isText ∧
                ∃ kind, model.schema.lookup? comparison.left = some kind ∧ kind.Fits value) ∧
            comparison.ordersText = false ∧
            ∃ verdict, comparison.check session = .ok verdict) ∧
          (∃ verdict, rule.check session = .ok verdict) ∧
          rule.target ∈ session.attributes.names ∧
          (rule.check session = .ok true →
            rule.run session = .ok (true, rule.applyTo session)) := by
  obtain ⟨rules, hbind, fits⟩ := RuleSet.exists_bind_fits model
  refine ⟨rules, hbind, fun steps position => ?_⟩
  intro session rule hrule
  have typed : session.Typed model :=
    ((Session.typed_ofModel model).follow fits steps).sessionAt fits position
  have fitting := fits rule hrule
  refine ⟨fun comparison hmem => ?_, typed.exists_check fitting, typed.target_mem fitting,
    typed.run_eq_of_check fitting⟩
  have fits' := fitting.condition comparison hmem
  have unordered := fitting.unordered comparison hmem
  exact ⟨fun value found => ⟨typed.isText_eq fits' found, typed.fits_of_resolve? found⟩, unordered,
    typed.exists_comparison_check fits' unordered⟩

end Rulebook
