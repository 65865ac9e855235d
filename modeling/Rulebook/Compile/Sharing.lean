import Rulebook.Compile.Cache

/-!
# Callers that share a cache

Several callers compile sources through one cache. A caller gets hold of the cache for one access at
a time, and between its accesses other callers may have theirs. Compiling a source takes one access
that looks it up and, where the source is not remembered but compiles, a later one that remembers
it. A schedule says whose turn it is.
-/

namespace Rulebook

/-- What a caller asks for. -/
inductive Request where
  | compile (source : String)
  | clear
  deriving DecidableEq

/-- What a caller does with the cache while it has hold of it. -/
inductive Access where
  | lookup (source : String)
  | remember (source : String) (stored : StoredRule)
  | clear
  deriving DecidableEq

/-- The cache after an access. -/
def Cache.serve (cache : Cache) : Access → Cache
  | .lookup _ => cache
  | .remember source stored => cache.remember source stored
  | .clear => cache.clear

/-- A caller at work. -/
structure Caller where
  /-- What it has still to ask for. -/
  requests : List Request
  /-- The source that it looked up in vain and compiled, until it is remembered. -/
  compiled : Option (String × StoredRule)
  /-- The sources that it asked for, each with what it got. -/
  answers : List (String × Except Fault StoredRule)

namespace Caller

def start (requests : List Request) : Caller :=
  ⟨requests, none, []⟩

/-- What the caller does at its next turn; a caller that has asked for everything does nothing. -/
def access? (caller : Caller) : Option Access :=
  match caller.compiled, caller.requests with
  | some (source, stored), _ => some (.remember source stored)
  | none, .compile source :: _ => some (.lookup source)
  | none, .clear :: _ => some .clear
  | none, [] => none

/-- The caller after its next turn, at which the cache is as given. -/
def proceed (caller : Caller) (cache : Cache) : Caller :=
  match caller.compiled, caller.requests with
  | some (source, stored), requests => ⟨requests, none, caller.answers ++ [(source, .ok stored)]⟩
  | none, .compile source :: rest =>
    match cache.find? source with
    | some stored => ⟨rest, none, caller.answers ++ [(source, .ok stored)]⟩
    | none =>
      match Rulebook.compile source with
      | .ok stored => ⟨rest, some (source, stored), caller.answers⟩
      | .error fault => ⟨rest, none, caller.answers ++ [(source, .error fault)]⟩
  | none, .clear :: rest => ⟨rest, none, caller.answers⟩
  | none, [] => caller

end Caller

/-- A cache and those who use it. -/
structure SharedCache where
  cache : Cache
  callers : List Caller

namespace SharedCache

/-- The callers are about to ask for the given things, and nothing is remembered. -/
def start (programs : List (List Request)) : SharedCache :=
  ⟨.empty, programs.map Caller.start⟩

/-- What the caller at the position does at its next turn. -/
def access? (shared : SharedCache) (position : Nat) : Option Access :=
  shared.callers[position]?.bind Caller.access?

/-- One turn of the caller at the position. -/
def turn (shared : SharedCache) (position : Nat) : SharedCache where
  cache := (shared.access? position).elim shared.cache shared.cache.serve
  callers := shared.callers.modify position (·.proceed shared.cache)

/-- The turns of a schedule, one after another. -/
def run (shared : SharedCache) (schedule : List Nat) : SharedCache :=
  schedule.foldl turn shared

end SharedCache

end Rulebook
