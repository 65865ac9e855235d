import Mathlib.Data.List.Basic
import Rulebook.Proofs.Compile.Binding

/-!
# Outcomes of a batch

A rule set is made from numbered results: the stored rules are those of the results that are rules,
the rejections those of the results that are faults, and both keep the numbers
(`RuleSet.ofResultsFrom_eq`). The rules and their positions are two lists of one length
(`RuleSet.length_rules`), and so one list of rules beside their positions
(`RuleSet.kept_ofResultsFrom`). The kept and the rejected part divide the positions among them
(`RuleSet.disjoint_positions`, `RuleSet.mem_positions_or_iff`), each in order. The results of a list
of sources are those of compiling each source on its own, whatever the cache remembers, and each
position has the outcome of its own source (`batch_outcomes`).
-/

namespace Rulebook

namespace RuleSet

/-! ## Numbered results -/

/-- The rules beside the positions of their sources. -/
def kept (set : RuleSet) : List (Nat × StoredRule) :=
  set.positions.zip set.rules

/-- What a numbered result adds to the stored rules. -/
def kept? : (String × Except Fault StoredRule) × Nat → Option (Nat × StoredRule)
  | ((_, .ok stored), position) => some (position, stored)
  | ((_, .error _), _) => none

/-- What a numbered result adds to the rejections. -/
def rejected? : (String × Except Fault StoredRule) × Nat → Option Rejected
  | ((_, .ok _), _) => none
  | ((source, .error fault), position) => some ⟨position, source, fault⟩

variable {results : List (String × Except Fault StoredRule)}

theorem ofResultsFrom_eq (results : List (String × Except Fault StoredRule)) (start : Nat) :
    ofResultsFrom start results =
      ⟨((results.zipIdx start).filterMap kept?).map (·.2),
        ((results.zipIdx start).filterMap kept?).map (·.1),
        (results.zipIdx start).filterMap rejected?⟩ := by
  induction results generalizing start with
  | nil => rfl
  | cons first rest ih =>
    obtain ⟨source, result⟩ := first
    rw [List.zipIdx_cons, List.filterMap_cons, List.filterMap_cons]
    cases result with
    | ok stored =>
      rw [ofResultsFrom, ih]
      rfl
    | error fault =>
      rw [ofResultsFrom, ih]
      rfl

/-- A rule and its position are added together. -/
theorem length_rules (results : List (String × Except Fault StoredRule)) (start : Nat) :
    (ofResultsFrom start results).rules.length =
      (ofResultsFrom start results).positions.length := by
  rw [ofResultsFrom_eq, List.length_map, List.length_map]

theorem kept_ofResultsFrom (results : List (String × Except Fault StoredRule)) (start : Nat) :
    (ofResultsFrom start results).kept = (results.zipIdx start).filterMap kept? := by
  rw [kept, ofResultsFrom_eq]
  dsimp only
  rw [List.zip_map', List.map_id']

theorem kept?_eq_some_iff {numbered : (String × Except Fault StoredRule) × Nat}
    {entry : Nat × StoredRule} :
    kept? numbered = some entry ↔ numbered.1.2 = .ok entry.2 ∧ numbered.2 = entry.1 := by
  obtain ⟨⟨source, result⟩, position⟩ := numbered
  cases result with
  | ok stored => simp [kept?, Prod.ext_iff, and_comm]
  | error fault => exact ⟨nofun, nofun⟩

theorem rejected?_eq_some_iff {numbered : (String × Except Fault StoredRule) × Nat}
    {rejected : Rejected} :
    rejected? numbered = some rejected ↔
      numbered = ((rejected.source, .error rejected.fault), rejected.position) := by
  obtain ⟨⟨source, result⟩, position⟩ := numbered
  obtain ⟨position', source', fault'⟩ := rejected
  cases result with
  | ok stored => exact ⟨nofun, nofun⟩
  | error fault => simp [rejected?, and_comm]

theorem mem_kept_iff {position : Nat} {stored : StoredRule} :
    (position, stored) ∈ (ofResultsFrom 0 results).kept ↔
      ∃ source, results[position]? = some (source, .ok stored) := by
  rw [kept_ofResultsFrom, List.mem_filterMap]
  simp only [kept?_eq_some_iff]
  constructor
  · rintro ⟨⟨⟨source, _⟩, _⟩, hmem, rfl, rfl⟩
    exact ⟨source, List.mk_mem_zipIdx_iff_getElem?.1 hmem⟩
  · rintro ⟨source, found⟩
    exact ⟨_, List.mk_mem_zipIdx_iff_getElem?.2 found, rfl, rfl⟩

theorem mem_rejected_iff {rejected : Rejected} :
    rejected ∈ (ofResultsFrom 0 results).rejected ↔
      results[rejected.position]? = some (rejected.source, .error rejected.fault) := by
  rw [ofResultsFrom_eq, List.mem_filterMap]
  simp only [rejected?_eq_some_iff, exists_eq_right, List.mk_mem_zipIdx_iff_getElem?]

/-! ## Positions -/

def rejectedPositions (set : RuleSet) : List Nat :=
  set.rejected.map Rejected.position

theorem pairwise_zipIdx (results : List (String × Except Fault StoredRule)) :
    results.zipIdx.Pairwise fun first second => first.2 < second.2 := by
  rw [← List.pairwise_map (f := Prod.snd), List.zipIdx_map_snd]
  exact List.pairwise_lt_range'

theorem pairwise_positions (results : List (String × Except Fault StoredRule)) :
    (ofResultsFrom 0 results).positions.Pairwise (· < ·) := by
  rw [ofResultsFrom_eq, List.pairwise_map, List.pairwise_filterMap]
  refine (pairwise_zipIdx results).imp fun before first hfirst second hsecond => ?_
  rw [← (kept?_eq_some_iff.1 hfirst).2, ← (kept?_eq_some_iff.1 hsecond).2]
  exact before

theorem pairwise_rejectedPositions (results : List (String × Except Fault StoredRule)) :
    (ofResultsFrom 0 results).rejectedPositions.Pairwise (· < ·) := by
  rw [rejectedPositions, List.pairwise_map, ofResultsFrom_eq, List.pairwise_filterMap]
  refine (pairwise_zipIdx results).imp fun before first hfirst second hsecond => ?_
  rw [rejected?_eq_some_iff.1 hfirst, rejected?_eq_some_iff.1 hsecond] at before
  exact before

theorem mem_positions_iff {position : Nat} :
    position ∈ (ofResultsFrom 0 results).positions ↔
      ∃ source stored, results[position]? = some (source, .ok stored) := by
  have beside :
      (ofResultsFrom 0 results).positions = (ofResultsFrom 0 results).kept.map (·.1) := by
    rw [kept_ofResultsFrom, ofResultsFrom_eq]
  rw [beside, List.mem_map]
  constructor
  · rintro ⟨⟨_, stored⟩, hmem, rfl⟩
    obtain ⟨source, found⟩ := mem_kept_iff.1 hmem
    exact ⟨source, stored, found⟩
  · rintro ⟨source, stored, found⟩
    exact ⟨_, mem_kept_iff.2 ⟨source, found⟩, rfl⟩

theorem mem_rejectedPositions_iff {position : Nat} :
    position ∈ (ofResultsFrom 0 results).rejectedPositions ↔
      ∃ source fault, results[position]? = some (source, .error fault) := by
  rw [rejectedPositions, List.mem_map]
  constructor
  · rintro ⟨rejected, hmem, rfl⟩
    exact ⟨_, _, mem_rejected_iff.1 hmem⟩
  · rintro ⟨source, fault, found⟩
    exact ⟨⟨position, source, fault⟩, mem_rejected_iff.2 found, rfl⟩

theorem disjoint_positions (results : List (String × Except Fault StoredRule)) :
    (ofResultsFrom 0 results).positions.Disjoint (ofResultsFrom 0 results).rejectedPositions := by
  intro position hkept hrejected
  obtain ⟨_, _, found⟩ := mem_positions_iff.1 hkept
  obtain ⟨_, _, found'⟩ := mem_rejectedPositions_iff.1 hrejected
  rw [found] at found'
  cases found'

theorem mem_positions_or_iff {position : Nat} :
    (position ∈ (ofResultsFrom 0 results).positions ∨
        position ∈ (ofResultsFrom 0 results).rejectedPositions) ↔
      position < results.length := by
  rw [mem_positions_iff, mem_rejectedPositions_iff]
  constructor
  · rintro (⟨_, _, found⟩ | ⟨_, _, found⟩)
    · exact (List.getElem?_eq_some_iff.1 found).1
    · exact (List.getElem?_eq_some_iff.1 found).1
  · intro inside
    have found := List.getElem?_eq_getElem inside
    cases result : results[position] with
    | mk source outcome =>
      rw [result] at found
      cases outcome with
      | ok stored => exact .inl ⟨source, stored, found⟩
      | error fault => exact .inr ⟨source, fault, found⟩

/-- The kept and the rejected positions divide the positions of a list, each part in order. -/
structure Partitions (set : RuleSet) (length : Nat) : Prop where
  kept : set.positions.Pairwise (· < ·)
  rejected : set.rejectedPositions.Pairwise (· < ·)
  disjoint : set.positions.Disjoint set.rejectedPositions
  covers : ∀ position,
    position ∈ set.positions ∨ position ∈ set.rejectedPositions ↔ position < length

theorem partitions_ofResultsFrom (results : List (String × Except Fault StoredRule)) :
    (ofResultsFrom 0 results).Partitions results.length :=
  ⟨pairwise_positions results, pairwise_rejectedPositions results, disjoint_positions results,
    fun _ => mem_positions_or_iff⟩

/-! ## Sources -/

theorem getElem?_results_eq_some_iff {outcome : String → Except Fault StoredRule}
    {sources : List String} {position : Nat} {source : String}
    {result : Except Fault StoredRule} :
    (sources.map fun one => (one, outcome one))[position]? = some (source, result) ↔
      sources[position]? = some source ∧ outcome source = result := by
  rw [List.getElem?_map, Option.map_eq_some_iff]
  constructor
  · rintro ⟨one, found, same⟩
    cases same
    exact ⟨found, rfl⟩
  · rintro ⟨found, rfl⟩
    exact ⟨source, found, rfl⟩

section Outcomes

variable {outcome : String → Except Fault StoredRule} {sources : List String} {position : Nat}

theorem mem_kept_ofOutcomes_iff {stored : StoredRule} :
    (position, stored) ∈ (ofResultsFrom 0 (sources.map fun one => (one, outcome one))).kept ↔
      ∃ source, sources[position]? = some source ∧ outcome source = .ok stored := by
  rw [mem_kept_iff]
  simp only [getElem?_results_eq_some_iff]

theorem mem_rejected_ofOutcomes_iff {rejected : Rejected} :
    rejected ∈ (ofResultsFrom 0 (sources.map fun one => (one, outcome one))).rejected ↔
      sources[rejected.position]? = some rejected.source ∧
        outcome rejected.source = .error rejected.fault := by
  rw [mem_rejected_iff, getElem?_results_eq_some_iff]

end Outcomes

/-- The rules stand beside their positions. -/
theorem getElem?_rules {set : RuleSet} (length : set.rules.length = set.positions.length)
    {k position : Nat} (h : set.positions[k]? = some position) :
    ∃ stored, set.rules[k]? = some stored ∧ (position, stored) ∈ set.kept := by
  have inside : k < set.rules.length := length ▸ (List.getElem?_eq_some_iff.1 h).1
  have found := List.getElem?_eq_getElem inside
  exact ⟨set.rules[k], found, List.mem_of_getElem? (List.getElem?_zip_eq_some.2 ⟨h, found⟩)⟩

end RuleSet

/-! ## Main statement -/

/--
**Each position of a batch has the outcome of its own source.** Through any cache, compiling a list
of sources keeps some positions and rejects the others, each part in increasing order. Beside a kept
position stands what its source compiles to; a rejection has the position, its source, and the fault
for which the source is refused. Whether a position is kept or rejected, and with what, depends on
its source alone.
-/
theorem batch_outcomes {cache : Cache} (h : cache.Reachable) (sources : List String) :
    let set := (RuleSet.compile cache sources).1
    set.positions.Pairwise (· < ·) ∧
    set.rules.length = set.positions.length ∧
    (∀ k position : Nat, set.positions[k]? = some position →
      ∃ source stored, sources[position]? = some source ∧ set.rules[k]? = some stored ∧
        compile source = .ok stored) ∧
    set.rejectedPositions.Pairwise (· < ·) ∧
    (∀ rejected ∈ set.rejected, sources[rejected.position]? = some rejected.source ∧
      compile rejected.source = .error rejected.fault) ∧
    set.positions.Disjoint set.rejectedPositions ∧
    (∀ position, position ∈ set.positions ∨ position ∈ set.rejectedPositions ↔
      position < sources.length) ∧
    (∀ position source, sources[position]? = some source →
      (∀ stored, (position, stored) ∈ set.kept ↔ compile source = .ok stored) ∧
      ∀ fault, ⟨position, source, fault⟩ ∈ set.rejected ↔ compile source = .error fault) ∧
    (RuleSet.compile cache sources).2.Reachable := by
  intro set
  have hset : set = RuleSet.ofResultsFrom 0 (sources.map fun source => (source, compile source)) :=
    RuleSet.compile_fst h sources
  have kept : ∀ position stored, (position, stored) ∈ set.kept ↔
      ∃ source, sources[position]? = some source ∧ compile source = .ok stored := by
    intro position stored
    rw [hset, RuleSet.mem_kept_iff]
    simp only [RuleSet.getElem?_results_eq_some_iff]
  have rejected : ∀ one, one ∈ set.rejected ↔
      sources[one.position]? = some one.source ∧ compile one.source = .error one.fault := by
    intro one
    rw [hset, RuleSet.mem_rejected_iff, RuleSet.getElem?_results_eq_some_iff]
  have length : set.rules.length = set.positions.length := hset ▸ RuleSet.length_rules _ 0
  refine ⟨hset ▸ RuleSet.pairwise_positions _, length, fun k position hk => ?_,
    hset ▸ RuleSet.pairwise_rejectedPositions _, fun one => (rejected one).1,
    hset ▸ RuleSet.disjoint_positions _, fun position => ?_, fun position source found => ?_,
    (h.compileEach_eq sources).2⟩
  · obtain ⟨stored, hstored, hmem⟩ := RuleSet.getElem?_rules length hk
    obtain ⟨source, found, compiled⟩ := (kept position stored).1 hmem
    exact ⟨source, stored, found, hstored, compiled⟩
  · rw [hset, RuleSet.mem_positions_or_iff, List.length_map]
  · refine ⟨fun stored => ?_, fun fault => ?_⟩
    · rw [kept]
      simp [found]
    · rw [rejected]
      exact and_iff_right found

/-- The first and the third source are the same, and the cache remembers it. -/
theorem batch_outcomes_repeated :
    let source := "if segment == young then tier = basic"
    let stored := Rule.toStored ⟨[⟨"segment", .equal, .text "young"⟩], "tier", .text "basic"⟩
    let cache := Cache.empty.remember source stored
    let sources :=
      [source, "if segment == then tier = basic", source, "if segment > young then tier = basic"]
    cache.Reachable ∧ cache.has source = true ∧
      (RuleSet.compile cache sources).1.kept = [(0, stored), (2, stored)] ∧
      (RuleSet.compile cache sources).1.rejectedPositions = [1, 3] ∧
      (∀ position, position ∈ (RuleSet.compile cache sources).1.positions ∨
        position ∈ (RuleSet.compile cache sources).1.rejectedPositions ↔
          position < sources.length) ∧
      ∀ rejected ∈ (RuleSet.compile cache sources).1.rejected,
        sources[rejected.position]? = some rejected.source ∧
          compile rejected.source = .error rejected.fault := by
  intro source stored cache sources
  have compiled : compile source = .ok stored := by decide +kernel
  have reachable : cache.Reachable := .remember .empty compiled
  obtain ⟨-, -, -, -, refused, -, covered, -⟩ := batch_outcomes reachable sources
  exact ⟨reachable, by decide +kernel, by decide +kernel, by decide +kernel, covered, refused⟩

end Rulebook
