import Rulebook.Proofs.Compile.Batch
import Rulebook.Proofs.Model.Typing

/-!
# Compiling against declarations refines compiling

The rules of a model are compiled against its declarations, the rules of a list of sources without
any. The check against declarations begins with the check without them, so what is refused without
declarations is refused with them for the same fault (`compileAgainst_of_compile_error`). What
compiles without them compiles against them, to the same stored rule, exactly when its rule is well
typed, and is refused as invalid otherwise (`compileAgainst_eq_ok_iff_wellTyped`,
`exists_compileAgainst_error`).
-/

namespace Rulebook

/-! ## Well-typed rules -/

/-- A number is of the numeric kind, and a text is of the kind of a choice that lists it. -/
def ValueKind.Admits : ValueKind → Literal → Prop
  | .number, .number _ => True
  | .choice values, .text value => value ∈ values
  | .number, .text _ | .choice _, .number _ => False

/--
Every name that the rule compares is a declared parameter or attribute, its target is a declared
attribute, and every literal is of the kind that its name has; where a name is declared as a
parameter and as an attribute, that is the parameter's kind.
-/
structure Rule.WellTyped (schema : Schema) (rule : Rule) : Prop where
  declared : ∀ comparison ∈ rule.condition,
    ∃ declaration ∈ schema.parameters ++ schema.attributes, declaration.name = comparison.left
  condition : ∀ comparison ∈ rule.condition, ∀ kind,
    schema.lookup? comparison.left = some kind → kind.Admits comparison.right
  target : ∃ declaration ∈ schema.attributes, declaration.name = rule.target
  value : ∀ kind, schema.attribute? rule.target = some kind → kind.Admits rule.value

theorem ValueKind.fits_iff_admits {kind : ValueKind} {literal : Literal}
    (storable : literal.Storable) : kind.Fits literal ↔ kind.Admits literal := by
  constructor
  · intro fits
    cases fits with
    | number => trivial
    | choice listed => exact listed
  · intro admits
    cases kind with
    | number =>
      cases literal with
      | number x => exact .number storable
      | text value => exact admits.elim
    | choice values =>
      cases literal with
      | number x => exact admits.elim
      | text value => exact .choice admits

theorem isSome_kindOf?_iff {declarations : List Declaration} {name : String} :
    (kindOf? declarations name).isSome = true ↔
      ∃ declaration ∈ declarations, declaration.name = name := by
  rw [← Option.ne_none_iff_isSome, Ne, kindOf?_eq_none_iff]
  push Not
  rfl

theorem Schema.isSome_lookup?_iff {schema : Schema} {name : String} :
    (schema.lookup? name).isSome = true ↔
      ∃ declaration ∈ schema.parameters ++ schema.attributes, declaration.name = name := by
  rw [lookup?, Option.isSome_or, Bool.or_eq_true, parameter?, attribute?, isSome_kindOf?_iff,
    isSome_kindOf?_iff]
  simp only [List.mem_append, or_and_right, exists_or]

/-- A declared name has one kind, so some kind of it fits exactly when every kind of it does. -/
theorem exists_kind_fits_iff {found : Option ValueKind} {literal : Literal}
    (storable : literal.Storable) :
    (∃ kind, found = some kind ∧ kind.Fits literal) ↔
      found.isSome = true ∧ ∀ kind, found = some kind → kind.Admits literal := by
  cases found with
  | none => exact ⟨nofun, nofun⟩
  | some kind => simp [ValueKind.fits_iff_admits storable]

theorem Comparison.fits_iff {schema : Schema} {comparison : Comparison}
    (storable : comparison.Storable) :
    comparison.Fits schema ↔
      (∃ declaration ∈ schema.parameters ++ schema.attributes,
        declaration.name = comparison.left) ∧
      ∀ kind, schema.lookup? comparison.left = some kind → kind.Admits comparison.right := by
  rw [Fits, exists_kind_fits_iff storable.right, Schema.isSome_lookup?_iff]

/-- Of a valid rule the check against a schema finds out whether it is well typed. -/
theorem Rule.checkAgainst_eq_ok_iff_wellTyped {schema : Schema} {rule : Rule}
    (storable : rule.Storable) (valid : rule.validate = .ok ()) :
    rule.checkAgainst schema = .ok () ↔ rule.WellTyped schema := by
  have target_iff :
      (∃ kind, schema.attribute? rule.target = some kind ∧ kind.Fits rule.value) ↔
        (∃ declaration ∈ schema.attributes, declaration.name = rule.target) ∧
          ∀ kind, schema.attribute? rule.target = some kind → kind.Admits rule.value :=
    (exists_kind_fits_iff storable.value).trans (and_congr_left' isSome_kindOf?_iff)
  obtain ⟨nonempty, unordered⟩ := validate_eq_ok_iff.1 valid
  rw [checkAgainst_eq_ok_iff storable]
  constructor
  · intro fits
    have each (comparison) (mem : comparison ∈ rule.condition) :=
      (Comparison.fits_iff (storable.condition comparison mem)).1 (fits.condition comparison mem)
    obtain ⟨declared, value⟩ := target_iff.1 fits.target
    exact ⟨fun comparison mem => (each comparison mem).1,
      fun comparison mem => (each comparison mem).2, declared, value⟩
  · intro typed
    refine ⟨nonempty, unordered, fun comparison mem => ?_, target_iff.2 ⟨typed.target, typed.value⟩⟩
    exact (Comparison.fits_iff (storable.condition comparison mem)).2
      ⟨typed.declared comparison mem, typed.condition comparison mem⟩

/-! ## One source -/

section OneSource

variable {schema : Schema} {source : String} {rule : Rule}

/-- What is refused without declarations is refused with them, for the same fault. -/
theorem compileAgainst_of_compile_error {fault : Fault} (h : compile source = .error fault) :
    compileAgainst schema source = .error fault := by
  rcases bind_eq_error_iff.1 h with unread | ⟨rule, parsed, h⟩
  · exact bind_eq_error_iff.2 (.inl unread)
  · rcases bind_eq_error_iff.1 h with invalid | ⟨_, -, h⟩
    · have refused : rule.checkAgainst schema = .error fault :=
        bind_eq_error_iff.2 (.inl invalid)
      exact bind_eq_error_iff.2 (.inr ⟨rule, parsed, bind_eq_error_iff.2 (.inl refused)⟩)
    · cases h

/-- A valid rule compiles against declarations exactly when it is well typed. -/
theorem compileAgainst_eq_ok_iff_wellTyped (parsed : Rule.parse source = .ok rule)
    (valid : rule.validate = .ok ()) {stored : StoredRule} :
    compileAgainst schema source = .ok stored ↔
      stored = rule.toStored ∧ rule.WellTyped schema := by
  have storable := (printable_of_parse parsed).storable
  rw [← Rule.checkAgainst_eq_ok_iff_wellTyped storable valid]
  constructor
  · intro h
    obtain ⟨rule', parsed', checked, rfl⟩ := exists_rule_of_compileAgainst h
    rw [parsed] at parsed'
    cases parsed'
    exact ⟨rfl, checked⟩
  · rintro ⟨rfl, checked⟩
    exact bind_eq_ok_iff.2 ⟨rule, parsed, bind_eq_ok_iff.2 ⟨(), checked, rfl⟩⟩

/-- A rule that is not well typed is refused as one without meaning. -/
theorem exists_compileAgainst_error (parsed : Rule.parse source = .ok rule)
    (valid : rule.validate = .ok ()) (untyped : ¬ rule.WellTyped schema) :
    ∃ cause, compileAgainst schema source = .error (.invalid cause) := by
  have storable := (printable_of_parse parsed).storable
  have refused : ∀ checked, rule.checkAgainst schema ≠ .ok checked := by
    rintro ⟨⟩ checked
    exact untyped ((Rule.checkAgainst_eq_ok_iff_wellTyped storable valid).1 checked)
  obtain ⟨_, checked, cause, rfl⟩ := (faultsOnly_checkAgainst schema rule).exists_error refused
  exact ⟨cause, bind_eq_error_iff.2 (.inr ⟨rule, parsed, bind_eq_error_iff.2 (.inl checked)⟩)⟩

end OneSource

/-! ## Main statement -/

/--
**Compiling the rules of a model refines compiling them as a list.** A source that is refused in the
list, through any cache, is refused in the model with the same fault. One that is kept in the list
is kept in the model, and as the same stored rule, exactly when its rule is well typed among the
model's declarations; else it is refused as a rule without meaning. Both times the kept and the
rejected positions divide the positions of the list, each part in order.
-/
theorem ofModel_refines_compile {cache : Cache} (h : cache.Reachable) (model : Model) :
    let plain := (RuleSet.compile cache model.rules).1
    let checked := RuleSet.ofModel model
    (∀ rejected ∈ plain.rejected, rejected ∈ checked.rejected) ∧
    (∀ position stored, (position, stored) ∈ plain.kept →
      ∃ source rule, model.rules[position]? = some source ∧ Rule.parse source = .ok rule ∧
        rule.toStored = stored ∧
        (∀ stored', (position, stored') ∈ checked.kept ↔
          stored' = stored ∧ rule.WellTyped model.schema) ∧
        (¬ rule.WellTyped model.schema →
          ∃ cause, ⟨position, source, .invalid cause⟩ ∈ checked.rejected)) ∧
    plain.Partitions model.rules.length ∧
    checked.Partitions model.rules.length := by
  intro plain checked
  have hplain : plain =
      RuleSet.ofResultsFrom 0 (model.rules.map fun source => (source, compile source)) :=
    RuleSet.compile_fst h model.rules
  have hchecked : checked = RuleSet.ofResultsFrom 0
      (model.rules.map fun source => (source, compileAgainst model.schema source)) := rfl
  refine ⟨fun rejected mem => ?_, fun position stored mem => ?_, ?_, ?_⟩
  · rw [hplain, RuleSet.mem_rejected_ofOutcomes_iff] at mem
    rw [hchecked, RuleSet.mem_rejected_ofOutcomes_iff]
    exact ⟨mem.1, compileAgainst_of_compile_error mem.2⟩
  · rw [hplain, RuleSet.mem_kept_ofOutcomes_iff] at mem
    obtain ⟨source, found, compiled⟩ := mem
    obtain ⟨rule, parsed, valid, rfl⟩ := exists_rule_of_compile compiled
    refine ⟨source, rule, found, parsed, rfl, fun stored' => ?_, fun untyped => ?_⟩
    · rw [hchecked, RuleSet.mem_kept_ofOutcomes_iff,
        ← compileAgainst_eq_ok_iff_wellTyped parsed valid]
      simp [found]
    · obtain ⟨cause, refused⟩ := exists_compileAgainst_error parsed valid untyped
      exact ⟨cause, hchecked ▸ RuleSet.mem_rejected_ofOutcomes_iff.2 ⟨found, refused⟩⟩
  · simpa [hplain] using RuleSet.partitions_ofResultsFrom
      (model.rules.map fun source => (source, compile source))
  · simpa [hchecked] using RuleSet.partitions_ofResultsFrom
      (model.rules.map fun source => (source, compileAgainst model.schema source))

/-- One source cannot be read, one orders texts, and one compares a name that is not declared. -/
theorem ofModel_refines_compile_undeclared :
    let model : Model :=
      { name := "tiers"
        attributes := [⟨"tier", .choice ["basic", "senior"]⟩]
        questions := [⟨"How old are you?", "age", .number⟩]
        rules := ["if age > 30 then tier = senior", "if age > then tier = senior",
          "if tier > basic then tier = senior", "if height > 30 then tier = senior"] }
    let thirty : Number.Binary64 := ⟨false, 0x403E000000000000, by decide⟩
    let tall := Rule.toStored ⟨[⟨"height", .more, .number thirty⟩], "tier", .text "senior"⟩
    let plain := (RuleSet.compile Cache.empty model.rules).1
    let checked := RuleSet.ofModel model
    Cache.empty.Reachable ∧ plain.rejectedPositions = [1, 2] ∧
      (∀ rejected ∈ plain.rejected, rejected ∈ checked.rejected) ∧
      (3, tall) ∈ plain.kept ∧ (3, tall) ∉ checked.kept ∧
      ∃ cause, ⟨3, "if height > 30 then tier = senior", .invalid cause⟩ ∈ checked.rejected := by
  intro model thirty tall plain checked
  obtain ⟨refused, kept, -⟩ := ofModel_refines_compile Cache.Reachable.empty model
  have mem : (3, tall) ∈ plain.kept := by decide +kernel
  have absent : (3, tall) ∉ checked.kept := by decide +kernel
  obtain ⟨source, rule, found, -, -, keeps, invalid⟩ := kept 3 tall mem
  have untyped : ¬ rule.WellTyped model.schema := fun typed =>
    absent ((keeps tall).2 ⟨rfl, typed⟩)
  cases found
  exact ⟨.empty, by decide +kernel, refused, mem, absent, invalid untyped⟩

end Rulebook
