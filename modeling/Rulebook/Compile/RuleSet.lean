import Rulebook.Compile.Cache

/-!
# Rule sets

The rules of a list of sources. Each source is compiled on its own: one that is refused is reported
and left out, and the others are kept in their order with their positions in the list.
-/

namespace Rulebook

structure Rejected where
  position : Nat
  source : String
  fault : Fault
  deriving DecidableEq

/-- What became of a list of sources. -/
structure RuleSet where
  rules : List StoredRule
  /-- The positions of the sources of the rules. -/
  positions : List Nat
  rejected : List Rejected
  deriving DecidableEq

namespace RuleSet

def empty : RuleSet :=
  ⟨[], [], []⟩

/-- The set with one more rule in front. -/
def consRule (position : Nat) (stored : StoredRule) (set : RuleSet) : RuleSet :=
  ⟨stored :: set.rules, position :: set.positions, set.rejected⟩

/-- The set with one more rejection in front. -/
def consRejected (rejected : Rejected) (set : RuleSet) : RuleSet :=
  ⟨set.rules, set.positions, rejected :: set.rejected⟩

/-- The set of the given results, of which the first one has the given position. -/
def ofResultsFrom (position : Nat) : List (String × Except Fault StoredRule) → RuleSet
  | [] => empty
  | (_, .ok stored) :: rest => (ofResultsFrom (position + 1) rest).consRule position stored
  | (source, .error fault) :: rest =>
    (ofResultsFrom (position + 1) rest).consRejected ⟨position, source, fault⟩

def compile (cache : Cache) (sources : List String) : RuleSet × Cache :=
  let (results, last) := cache.compileEach sources
  (ofResultsFrom 0 (sources.zip results), last)

/-- Compiles the rules of a model against its own declarations. -/
def ofModel (model : Model) : RuleSet :=
  ofResultsFrom 0
    (model.rules.map fun source => (source, compileAgainst model.schema source))

def size (set : RuleSet) : Nat :=
  set.rules.length

def isEmpty (set : RuleSet) : Bool :=
  set.rules.isEmpty

/-- The rules, ready to run. -/
def bind (set : RuleSet) : Except Fault (List Rule) :=
  StoredRule.bindAll set.rules

end RuleSet

end Rulebook
