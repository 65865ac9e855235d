import Rulebook.Rule.Validity
import Rulebook.Proofs.Compile.Binding

/-!
# Rules that fit a schema

A rule fits a schema when every name in it is declared and every literal is a value of the kind
declared for its name. Checking a rule against a schema finds out exactly this
(`checkAgainst_eq_ok_iff`), and so the rules of a model, when they are bound, fit its schema
(`RuleSet.exists_bind_fits`).
-/

namespace Rulebook

open Number (Binary64)

/-! ## Kinds -/

/-- The literal is a value of the kind. -/
inductive ValueKind.Fits : ValueKind → Literal → Prop
  | number {x : Binary64} (finite : x.isFinite = true) : Fits .number (.number x)
  | choice {values : List String} {value : String} (listed : value ∈ values) :
      Fits (.choice values) (.text value)

theorem ValueKind.Fits.isText_eq {kind : ValueKind} {first second : Literal}
    (h : kind.Fits first) (h' : kind.Fits second) : first.isText = second.isText := by
  cases h with
  | number => cases h' with | number => rfl
  | choice => cases h' with | choice => rfl

/-- The check of a literal does not look at its number, so this has to be known to be finite. -/
theorem ValueKind.checkLiteral_eq_ok_iff {kind : ValueKind} {name : String} {literal : Literal}
    (storable : literal.Storable) :
    kind.checkLiteral name literal = .ok () ↔ kind.Fits literal := by
  cases kind with
  | number =>
    cases literal with
    | number x => exact ⟨fun _ => .number storable, fun _ => rfl⟩
    | text value => exact ⟨nofun, nofun⟩
  | choice values =>
    cases literal with
    | number x => exact ⟨nofun, nofun⟩
    | text value =>
      by_cases listed : value ∈ values
      · have known : values.contains value = true := by simpa using listed
        rw [checkLiteral, if_pos known]
        exact ⟨fun _ => .choice listed, fun _ => rfl⟩
      · have unknown : ¬ values.contains value = true := by simpa using listed
        rw [checkLiteral, if_neg unknown]
        refine iff_of_false (fun accepted => ?_) (fun fits => ?_)
        · cases accepted
        · cases fits with
          | choice listed' => exact listed listed'

/-! ## Rules -/

/-- The name is declared, and the literal is a value of its kind. -/
def Comparison.Fits (schema : Schema) (comparison : Comparison) : Prop :=
  ∃ kind, schema.lookup? comparison.left = some kind ∧ kind.Fits comparison.right

/-- The rule has a meaning of its own, and all its names and literals go with the schema. -/
structure Rule.Fits (schema : Schema) (rule : Rule) : Prop where
  nonempty : rule.condition ≠ []
  unordered : ∀ comparison ∈ rule.condition, comparison.ordersText = false
  condition : ∀ comparison ∈ rule.condition, comparison.Fits schema
  target : ∃ kind, schema.attribute? rule.target = some kind ∧ kind.Fits rule.value

theorem Rule.validate_eq_ok_iff {rule : Rule} :
    rule.validate = .ok () ↔
      rule.condition ≠ [] ∧ ∀ comparison ∈ rule.condition, comparison.ordersText = false := by
  unfold validate
  cases hempty : rule.condition.isEmpty with
  | true =>
    rw [if_pos rfl]
    exact ⟨nofun, fun h => absurd (List.isEmpty_iff.1 hempty) h.1⟩
  | false =>
    rw [if_neg (by simp)]
    cases hfind : rule.condition.find? Comparison.ordersText with
    | some comparison =>
      refine ⟨nofun, fun h => ?_⟩
      have orders := List.find?_some hfind
      rw [h.2 comparison (List.mem_of_find?_eq_some hfind)] at orders
      cases orders
    | none =>
      refine ⟨fun _ => ⟨List.isEmpty_eq_false_iff.1 hempty, fun comparison hmem => ?_⟩,
        fun _ => rfl⟩
      simpa using List.find?_eq_none.1 hfind comparison hmem

theorem Comparison.checkAgainst_eq_ok_iff {schema : Schema} {comparison : Comparison}
    (storable : comparison.Storable) :
    comparison.checkAgainst schema = .ok () ↔ comparison.Fits schema := by
  unfold checkAgainst Fits
  cases schema.lookup? comparison.left with
  | none => exact ⟨nofun, nofun⟩
  | some kind => simp [ValueKind.checkLiteral_eq_ok_iff storable.right]

theorem checkCondition_eq_ok_iff {schema : Schema} {condition : List Comparison}
    (storable : ∀ comparison ∈ condition, comparison.Storable) :
    checkCondition schema condition = .ok () ↔
      ∀ comparison ∈ condition, comparison.Fits schema := by
  induction condition with
  | nil => exact ⟨nofun, fun _ => rfl⟩
  | cons comparison rest ih =>
    obtain ⟨first, others⟩ := List.forall_mem_cons.1 storable
    rw [checkCondition, bind_eq_ok_iff, List.forall_mem_cons, ← ih others,
      ← Comparison.checkAgainst_eq_ok_iff first]
    constructor
    · rintro ⟨_, hfirst, hrest⟩
      exact ⟨hfirst, hrest⟩
    · rintro ⟨hfirst, hrest⟩
      exact ⟨(), hfirst, hrest⟩

theorem Rule.checkTarget_eq_ok_iff {schema : Schema} {rule : Rule}
    (storable : rule.value.Storable) :
    rule.checkTarget schema = .ok () ↔
      ∃ kind, schema.attribute? rule.target = some kind ∧ kind.Fits rule.value := by
  unfold checkTarget
  cases schema.attribute? rule.target with
  | none => exact ⟨nofun, nofun⟩
  | some kind => simp [ValueKind.checkLiteral_eq_ok_iff storable]

/-- A rule passes the check against a schema exactly when it fits the schema. -/
theorem Rule.checkAgainst_eq_ok_iff {schema : Schema} {rule : Rule} (storable : rule.Storable) :
    rule.checkAgainst schema = .ok () ↔ rule.Fits schema := by
  rw [checkAgainst, bind_eq_ok_iff]
  constructor
  · rintro ⟨_, hvalidate, h⟩
    obtain ⟨_, hcondition, htarget⟩ := bind_eq_ok_iff.1 h
    obtain ⟨nonempty, unordered⟩ := validate_eq_ok_iff.1 hvalidate
    exact ⟨nonempty, unordered, (checkCondition_eq_ok_iff storable.condition).1 hcondition,
      (checkTarget_eq_ok_iff storable.value).1 htarget⟩
  · intro fits
    refine ⟨(), validate_eq_ok_iff.2 ⟨fits.nonempty, fits.unordered⟩, bind_eq_ok_iff.2 ⟨(), ?_, ?_⟩⟩
    · exact (checkCondition_eq_ok_iff storable.condition).2 fits.condition
    · exact (checkTarget_eq_ok_iff storable.value).2 fits.target

/-! ## The rules of a model -/

theorem bind_fits_of_compileAgainst {schema : Schema} {source : String} {stored : StoredRule}
    (h : compileAgainst schema source = .ok stored) :
    ∃ rule, stored.bind = .ok rule ∧ rule.Fits schema := by
  obtain ⟨rule, hparse, hcheck, rfl⟩ := exists_rule_of_compileAgainst h
  have storable := (printable_of_parse hparse).storable
  exact ⟨rule, bind_toStored storable (Rule.validate_of_checkAgainst hcheck),
    (Rule.checkAgainst_eq_ok_iff storable).1 hcheck⟩

theorem exists_bind_of_mem_bindAll {stored : List StoredRule} {rules : List Rule}
    (h : StoredRule.bindAll stored = .ok rules) :
    ∀ rule ∈ rules, ∃ one ∈ stored, one.bind = .ok rule := by
  rw [StoredRule.bindAll, mapM_eq_ok_iff] at h
  induction h with
  | nil =>
    intro rule hmem
    cases hmem
  | cons hbind _ ih =>
    refine List.forall_mem_cons.2 ⟨⟨_, List.mem_cons_self, hbind⟩, fun rule hmem => ?_⟩
    obtain ⟨source, hmem, hbind⟩ := ih rule hmem
    exact ⟨source, List.mem_cons_of_mem _ hmem, hbind⟩

/-- The rules of a model bind, and they fit its schema. -/
theorem RuleSet.exists_bind_fits (model : Model) :
    ∃ rules, (ofModel model).bind = .ok rules ∧ ∀ rule ∈ rules, rule.Fits model.schema := by
  obtain ⟨rules, hbind, -⟩ := exists_bind_ofModel model
  refine ⟨rules, hbind, fun rule hmem => ?_⟩
  obtain ⟨stored, hstored, hrule⟩ := exists_bind_of_mem_bindAll hbind rule hmem
  obtain ⟨source, hresult⟩ := mem_rules_ofResultsFrom hstored
  obtain ⟨_, -, heq⟩ := List.mem_map.1 hresult
  obtain ⟨rfl, hcompile⟩ := Prod.mk.inj heq
  obtain ⟨rule', hrule', fits⟩ := bind_fits_of_compileAgainst hcompile
  rw [hrule, Except.ok.injEq] at hrule'
  exact hrule' ▸ fits

end Rulebook
