import Rulebook.Rule.Grammar
import Rulebook.Rule.Stored

/-!
# Compiling rules

Compiling turns a source into a stored rule: the source is parsed and the rule is checked, on its
own or against the declarations of a model.

Sources that were compiled before are not compiled again. Only successes are remembered, one entry a
source, and no more than a fixed number of them; further sources are compiled every time.
-/

namespace Rulebook

def compile (source : String) : Except Fault StoredRule := do
  let rule ← Rule.parse source
  rule.validate
  return rule.toStored

def compileAgainst (schema : Schema) (source : String) : Except Fault StoredRule := do
  let rule ← Rule.parse source
  rule.checkAgainst schema
  return rule.toStored

/-! ## The cache -/

/-- Compiled sources, the newest first. -/
structure Cache where
  entries : List (String × StoredRule)

namespace Cache

/-- How many compiled sources are remembered at most. -/
def capacity : Nat := 4096

def empty : Cache :=
  ⟨[]⟩

def size (cache : Cache) : Nat :=
  cache.entries.length

def isFull (cache : Cache) : Bool :=
  capacity ≤ cache.size

def find? (cache : Cache) (source : String) : Option StoredRule :=
  (cache.entries.find? (·.1 == source)).map (·.2)

def has (cache : Cache) (source : String) : Bool :=
  (cache.find? source).isSome

/-- Remembers a compiled source, unless there is an entry for it or the cache is full. -/
def remember (cache : Cache) (source : String) (stored : StoredRule) : Cache :=
  if cache.has source || cache.isFull then cache else ⟨(source, stored) :: cache.entries⟩

def clear (_ : Cache) : Cache :=
  empty

/-- The stored rule of a source, remembered or compiled and then remembered. -/
def compile (cache : Cache) (source : String) : Except Fault StoredRule × Cache :=
  match cache.find? source with
  | some stored => (.ok stored, cache)
  | none =>
    match Rulebook.compile source with
    | .ok stored => (.ok stored, cache.remember source stored)
    | .error fault => (.error fault, cache)

/-- The result of compiling, with the fault, if any, reported apart. -/
def compileReporting (cache : Cache) (source : String) :
    (Option StoredRule × List Fault) × Cache :=
  match cache.compile source with
  | (.ok stored, after) => ((some stored, []), after)
  | (.error fault, after) => ((none, [fault]), after)

def compileEach (cache : Cache) : List String → List (Except Fault StoredRule) × Cache
  | [] => ([], cache)
  | source :: rest =>
    let (result, next) := cache.compile source
    let (results, last) := next.compileEach rest
    (result :: results, last)

/-! ## What the operations do -/

theorem find?_cons (entry : String × StoredRule) (entries : List (String × StoredRule))
    (source : String) :
    find? ⟨entry :: entries⟩ source =
      if entry.1 = source then some entry.2 else find? ⟨entries⟩ source := by
  by_cases h : entry.1 = source <;> simp [find?, h]

theorem remember_of_has {cache : Cache} {source : String} (stored : StoredRule)
    (h : cache.has source = true) : cache.remember source stored = cache := by
  simp [remember, h]

theorem remember_of_isFull {cache : Cache} (source : String) (stored : StoredRule)
    (h : cache.isFull = true) : cache.remember source stored = cache := by
  simp [remember, h]

theorem size_remember_le {cache : Cache} (h : cache.size ≤ capacity) (source : String)
    (stored : StoredRule) : (cache.remember source stored).size ≤ capacity := by
  unfold remember
  split
  · exact h
  · next hfree =>
    simp only [isFull, Bool.or_eq_true, decide_eq_true_eq, not_or, Nat.not_le] at hfree
    exact hfree.2

end Cache

end Rulebook
