import Rulebook.Compile.RuleSet
import Rulebook.Proofs.Rule.Refusals
import Rulebook.Proofs.Rule.Storage

/-!
# What compiles binds

Binding checks a stored rule again, but a rule that was compiled passes: the parser returns rules
that can be stored, and compiling has checked what binding checks (`compile_cases`). The cache does
not change this, since it remembers only what compiling returned (`Cache.Reachable.sound`), and
neither does compiling many sources at once (`RuleSet.exists_bind`).
-/

namespace Rulebook

/-! ## One source -/

/-- The stored rule is the rule of the source, and binds to it. -/
def Binds (source : String) (stored : StoredRule) : Prop :=
  ∃ rule, Rule.parse source = .ok rule ∧ stored.bind = .ok rule

theorem binds_toStored {source : String} {rule : Rule} (h : Rule.parse source = .ok rule)
    (valid : rule.validate = .ok ()) : Binds source rule.toStored :=
  ⟨rule, h, bind_toStored (printable_of_parse h).storable valid⟩

theorem exists_rule_of_compile {source : String} {stored : StoredRule}
    (h : compile source = .ok stored) :
    ∃ rule : Rule, Rule.parse source = .ok rule ∧ rule.validate = .ok () ∧
      rule.toStored = stored := by
  obtain ⟨rule, parsed, h⟩ := bind_eq_ok_iff.1 h
  obtain ⟨_, valid, h⟩ := bind_eq_ok_iff.1 h
  exact ⟨rule, parsed, valid, Except.ok.inj h⟩

theorem binds_of_compile {source : String} {stored : StoredRule}
    (h : compile source = .ok stored) : Binds source stored := by
  obtain ⟨rule, hparse, hvalidate, rfl⟩ := exists_rule_of_compile h
  exact binds_toStored hparse hvalidate

theorem exists_rule_of_compileAgainst {schema : Schema} {source : String} {stored : StoredRule}
    (h : compileAgainst schema source = .ok stored) :
    ∃ rule : Rule, Rule.parse source = .ok rule ∧ rule.checkAgainst schema = .ok () ∧
      rule.toStored = stored := by
  obtain ⟨rule, parsed, h⟩ := bind_eq_ok_iff.1 h
  obtain ⟨_, checked, h⟩ := bind_eq_ok_iff.1 h
  exact ⟨rule, parsed, checked, Except.ok.inj h⟩

theorem Rule.validate_of_checkAgainst {schema : Schema} {rule : Rule}
    (h : rule.checkAgainst schema = .ok ()) : rule.validate = .ok () := by
  obtain ⟨_, valid, -⟩ := bind_eq_ok_iff.1 h
  exact valid

theorem binds_of_compileAgainst {schema : Schema} {source : String} {stored : StoredRule}
    (h : compileAgainst schema source = .ok stored) : Binds source stored := by
  obtain ⟨rule, hparse, hcheck, rfl⟩ := exists_rule_of_compileAgainst h
  exact binds_toStored hparse (Rule.validate_of_checkAgainst hcheck)

theorem refusesOnly_compile (source : String) : RefusesOnly (compile source) :=
  (refusesOnly_parse source).bind fun rule =>
    (refusesOnly_validate rule).bind fun _ => refusesOnly_ok _

/-- A source compiles to a rule that binds, or is refused with a fault of compiling. -/
theorem compile_cases (source : String) :
    (∃ stored, compile source = .ok stored ∧ Binds source stored) ∨
      ∃ fault, compile source = .error fault ∧ fault.isCompileFault = true := by
  cases h : compile source with
  | ok stored => exact .inl ⟨stored, rfl, binds_of_compile h⟩
  | error fault => exact .inr ⟨fault, rfl, refusesOnly_compile source fault h⟩

/-! ## Sources through the cache -/

namespace Cache

/--
The caches that a program can get to. Sources may be compiled and remembered in any order, also a
source that was remembered in between, and everything may be forgotten at any time.
-/
inductive Reachable : Cache → Prop
  | empty : Reachable empty
  | remember {cache : Cache} (h : Reachable cache) {source : String} {stored : StoredRule}
      (compiled : Rulebook.compile source = .ok stored) : Reachable (cache.remember source stored)
  | clear {cache : Cache} (h : Reachable cache) : Reachable cache.clear

/-- What is remembered for a source is what the source compiles to. -/
def Sound (cache : Cache) : Prop :=
  ∀ source stored, cache.find? source = some stored → Rulebook.compile source = .ok stored

theorem sound_empty : Sound empty := by
  intro source stored h
  cases h

theorem Sound.remember {cache : Cache} (h : cache.Sound) {source : String} {stored : StoredRule}
    (compiled : Rulebook.compile source = .ok stored) : (cache.remember source stored).Sound := by
  intro other found hfound
  unfold Cache.remember at hfound
  split at hfound
  · exact h other found hfound
  · rw [find?_cons] at hfound
    split at hfound
    · next same =>
      cases hfound
      rw [← same, compiled]
    · exact h other found hfound

theorem Reachable.sound {cache : Cache} (h : cache.Reachable) : cache.Sound := by
  induction h with
  | empty => exact sound_empty
  | remember _ compiled ih => exact ih.remember compiled
  | clear _ _ => exact sound_empty

/-- Compiling through the cache gives what compiling gives. -/
theorem Reachable.compile_eq {cache : Cache} (h : cache.Reachable) (source : String) :
    (cache.compile source).1 = Rulebook.compile source ∧ (cache.compile source).2.Reachable := by
  unfold Cache.compile
  cases hfind : cache.find? source with
  | some stored => exact ⟨(h.sound source stored hfind).symm, h⟩
  | none =>
    cases hcompile : Rulebook.compile source with
    | ok stored => exact ⟨rfl, h.remember hcompile⟩
    | error fault => exact ⟨rfl, h⟩

theorem Reachable.compileEach_eq {cache : Cache} (h : cache.Reachable) (sources : List String) :
    (cache.compileEach sources).1 = sources.map Rulebook.compile ∧
      (cache.compileEach sources).2.Reachable := by
  induction sources generalizing cache with
  | nil => exact ⟨rfl, h⟩
  | cons source rest ih =>
    obtain ⟨result, next⟩ := h.compile_eq source
    obtain ⟨results, last⟩ := ih next
    exact ⟨by rw [compileEach, List.map_cons, ← result, ← results], last⟩

/-- A source is answered with a stored rule and no fault, or with nothing and one fault. -/
theorem Reachable.compileReporting_cases {cache : Cache} (h : cache.Reachable) (source : String) :
    (∃ stored, Rulebook.compile source = .ok stored ∧
        (cache.compileReporting source).1 = (some stored, [])) ∨
      ∃ fault, Rulebook.compile source = .error fault ∧ fault.isCompileFault = true ∧
        (cache.compileReporting source).1 = (none, [fault]) := by
  obtain ⟨result, -⟩ := h.compile_eq source
  unfold compileReporting
  cases hcompile : cache.compile source with
  | mk outcome after =>
    rw [hcompile] at result
    cases outcome with
    | ok stored => exact .inl ⟨stored, result.symm, rfl⟩
    | error fault =>
      exact .inr ⟨fault, result.symm, refusesOnly_compile source fault result.symm, rfl⟩

end Cache

/-! ## Many sources -/

theorem exists_bindAll {stored : List StoredRule}
    (h : ∀ one ∈ stored, ∃ rule, one.bind = .ok rule) :
    ∃ rules, StoredRule.bindAll stored = .ok rules ∧ rules.length = stored.length := by
  induction stored with
  | nil => exact ⟨[], rfl, rfl⟩
  | cons one stored ih =>
    obtain ⟨⟨rule, hrule⟩, rest⟩ := List.forall_mem_cons.1 h
    obtain ⟨rules, hrules, length⟩ := ih rest
    refine ⟨rule :: rules, ?_, by rw [List.length_cons, List.length_cons, length]⟩
    rw [StoredRule.bindAll] at hrules ⊢
    rw [List.mapM_cons, hrule, hrules]
    rfl

namespace RuleSet

/-- The stored rules of a set are those of its results. -/
theorem mem_rules_ofResultsFrom {position : Nat}
    {results : List (String × Except Fault StoredRule)} {stored : StoredRule}
    (h : stored ∈ (ofResultsFrom position results).rules) :
    ∃ source, (source, .ok stored) ∈ results := by
  induction results generalizing position with
  | nil => cases h
  | cons first rest ih =>
    obtain ⟨source, result⟩ := first
    cases result with
    | ok kept =>
      rcases List.mem_cons.1 h with rfl | h
      · exact ⟨source, List.mem_cons_self⟩
      · obtain ⟨source', hmem⟩ := ih h
        exact ⟨source', List.mem_cons_of_mem _ hmem⟩
    | error fault =>
      obtain ⟨source', hmem⟩ := ih h
      exact ⟨source', List.mem_cons_of_mem _ hmem⟩

/-- A set of results that bind binds as a whole. -/
theorem exists_bind {position : Nat} {results : List (String × Except Fault StoredRule)}
    (h : ∀ source stored, (source, .ok stored) ∈ results → Binds source stored) :
    ∃ rules, (ofResultsFrom position results).bind = .ok rules ∧
      rules.length = (ofResultsFrom position results).size := by
  have each : ∀ stored ∈ (ofResultsFrom position results).rules,
      ∃ rule, stored.bind = .ok rule := by
    intro stored hmem
    obtain ⟨source, hmem⟩ := mem_rules_ofResultsFrom hmem
    obtain ⟨rule, -, hbind⟩ := h source stored hmem
    exact ⟨rule, hbind⟩
  obtain ⟨bound, hbound, length⟩ := exists_bindAll each
  exact ⟨bound, hbound, length⟩

theorem compile_fst {cache : Cache} (h : cache.Reachable) (sources : List String) :
    (compile cache sources).1
      = ofResultsFrom 0 (sources.map fun source => (source, Rulebook.compile source)) := by
  have set : (compile cache sources).1
      = ofResultsFrom 0 (sources.zip (cache.compileEach sources).1) := rfl
  rw [set, (h.compileEach_eq sources).1, List.map_prod_left_eq_zip]

theorem exists_bind_compile {cache : Cache} (h : cache.Reachable) (sources : List String) :
    ∃ rules, (compile cache sources).1.bind = .ok rules ∧
      rules.length = (compile cache sources).1.size := by
  rw [compile_fst h]
  apply exists_bind
  intro source stored hmem
  obtain ⟨_, -, heq⟩ := List.mem_map.1 hmem
  obtain ⟨rfl, hcompile⟩ := Prod.mk.inj heq
  exact binds_of_compile hcompile

theorem exists_bind_ofModel (model : Model) :
    ∃ rules, (ofModel model).bind = .ok rules ∧ rules.length = (ofModel model).size := by
  apply exists_bind
  intro source stored hmem
  obtain ⟨_, -, heq⟩ := List.mem_map.1 hmem
  obtain ⟨rfl, hcompile⟩ := Prod.mk.inj heq
  exact binds_of_compileAgainst hcompile

end RuleSet

/-! ## Main statement -/

/--
**What compiles binds.** A source compiles to a stored rule that binds to the rule of the source,
or is refused with a fault of compiling; through any cache it is answered with the stored rule alone
or with the one fault alone. The rules of a list of sources, and those of a model, bind one for one.
-/
theorem compiled_rules_bind :
    (∀ source,
      (∃ stored rule, compile source = .ok stored ∧ Rule.parse source = .ok rule ∧
        stored.bind = .ok rule) ∨
      ∃ fault, compile source = .error fault ∧ fault.isCompileFault = true) ∧
    (∀ cache : Cache, cache.Reachable → ∀ source,
      (∃ stored, compile source = .ok stored ∧
        (cache.compileReporting source).1 = (some stored, [])) ∨
      ∃ fault, compile source = .error fault ∧ fault.isCompileFault = true ∧
        (cache.compileReporting source).1 = (none, [fault])) ∧
    (∀ cache : Cache, cache.Reachable → ∀ sources, ∃ rules,
      (RuleSet.compile cache sources).1.bind = .ok rules ∧
        rules.length = (RuleSet.compile cache sources).1.size) ∧
    (∀ model, ∃ rules, (RuleSet.ofModel model).bind = .ok rules ∧
      rules.length = (RuleSet.ofModel model).size) := by
  refine ⟨fun source => ?_, fun cache h => h.compileReporting_cases,
    fun cache h => RuleSet.exists_bind_compile h, RuleSet.exists_bind_ofModel⟩
  rcases compile_cases source with ⟨stored, hcompile, rule, hparse, hbind⟩ | refused
  · exact .inl ⟨stored, rule, hcompile, hparse, hbind⟩
  · exact .inr refused

end Rulebook
