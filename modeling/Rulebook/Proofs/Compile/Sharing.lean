import Mathlib.Data.List.Basic
import Rulebook.Compile.Sharing
import Rulebook.Proofs.Compile.Binding

/-!
# Sharing a cache changes no answer

Between a lookup and the access that remembers what was compiled, other callers may have compiled
and remembered the same source, filled the cache, or emptied it. None of this shows: whatever the
schedule, the cache is one of those that a program can get to (`SharedCache.Sound.run`), so it is
bounded, has one entry a source, and holds only what compiling gives (`Cache.Reachable.size_le`,
`nodup_sources`, `compile_of_mem`). The answers that a caller has and those that it has still to get
are always the answers that compiling without a cache gives (`Caller.account_proceed`).
-/

namespace Rulebook

/-! ## Caches that a program can get to -/

namespace Cache

/-- The sources that have an entry. -/
def sources (cache : Cache) : List String :=
  cache.entries.map (·.1)

theorem has_iff_mem_sources {cache : Cache} {source : String} :
    cache.has source = true ↔ source ∈ cache.sources := by
  simp [has, find?, sources]

/-- What remembering a source does to a cache. -/
theorem remember_cases (cache : Cache) (source : String) (stored : StoredRule) :
    (cache.has source = true ∧ cache.remember source stored = cache) ∨
      (cache.has source = false ∧ capacity ≤ cache.size ∧ cache.remember source stored = cache) ∨
      (cache.has source = false ∧ cache.size < capacity ∧
        cache.remember source stored = ⟨(source, stored) :: cache.entries⟩) := by
  cases known : cache.has source with
  | true => exact .inl ⟨rfl, remember_of_has stored known⟩
  | false =>
    by_cases room : cache.size < capacity
    · have free : cache.isFull = false := by simpa [isFull] using room
      refine .inr (.inr ⟨rfl, room, ?_⟩)
      simp [remember, known, free]
    · have full : cache.isFull = true := by simpa [isFull] using room
      exact .inr (.inl ⟨rfl, by omega, remember_of_isFull source stored full⟩)

theorem entries_subset_remember (cache : Cache) (source : String) (stored : StoredRule) :
    cache.entries ⊆ (cache.remember source stored).entries := by
  intro entry hmem
  rcases cache.remember_cases source stored with ⟨-, same⟩ | ⟨-, -, same⟩ | ⟨-, -, longer⟩
  · rwa [same]
  · rwa [same]
  · rw [longer]
    exact List.mem_cons_of_mem _ hmem

theorem Reachable.size_le {cache : Cache} (h : cache.Reachable) : cache.size ≤ capacity := by
  induction h with
  | empty => exact Nat.zero_le _
  | remember _ _ ih => exact size_remember_le ih _ _
  | clear _ _ => exact Nat.zero_le _

/-- No source has two entries. -/
theorem Reachable.nodup_sources {cache : Cache} (h : cache.Reachable) : cache.sources.Nodup := by
  induction h with
  | empty => exact List.nodup_nil
  | @remember cache _ source stored _ ih =>
    rcases cache.remember_cases source stored with ⟨-, same⟩ | ⟨-, -, same⟩ | ⟨fresh, -, longer⟩
    · rwa [same]
    · rwa [same]
    · rw [longer]
      refine List.nodup_cons.2 ⟨fun known => ?_, ih⟩
      rw [has_iff_mem_sources.2 known] at fresh
      cases fresh
  | clear _ _ => exact List.nodup_nil

/-- An entry holds what its source compiles to. -/
theorem Reachable.compile_of_mem {cache : Cache} (h : cache.Reachable) {source : String}
    {stored : StoredRule} (hmem : (source, stored) ∈ cache.entries) :
    Rulebook.compile source = .ok stored := by
  induction h with
  | empty => cases hmem
  | @remember cache _ other otherStored compiled ih =>
    rcases cache.remember_cases other otherStored with ⟨-, same⟩ | ⟨-, -, same⟩ | ⟨-, -, longer⟩
    · exact ih (same ▸ hmem)
    · exact ih (same ▸ hmem)
    · rw [longer] at hmem
      rcases List.mem_cons.1 hmem with same | hmem
      · cases same
        exact compiled
      · exact ih hmem
  | clear _ _ => cases hmem

theorem Reachable.has_eq_false {cache : Cache} (h : cache.Reachable) {source : String}
    {fault : Fault} (refused : Rulebook.compile source = .error fault) :
    cache.has source = false := by
  rw [has, Option.isSome_eq_false_iff, Option.isNone_iff_eq_none]
  cases found : cache.find? source with
  | none => rfl
  | some stored =>
    rw [h.sound source stored found] at refused
    cases refused

end Cache

/-! ## One caller -/

/-- The answers to requests that compiling without a cache gives. -/
def directAnswers (requests : List Request) : List (String × Except Fault StoredRule) :=
  requests.filterMap fun
    | .compile source => some (source, compile source)
    | .clear => none

namespace Caller

/-- What the caller is about to remember is what compiling gives. -/
def Honest (caller : Caller) : Prop :=
  ∀ source stored, caller.compiled = some (source, stored) → Rulebook.compile source = .ok stored

/-- The answers that the caller has, then those that it has still to get. -/
def account (caller : Caller) : List (String × Except Fault StoredRule) :=
  caller.answers ++ caller.compiled.toList.map (fun (source, stored) => (source, .ok stored))
    ++ directAnswers caller.requests

/-- How many turns the caller needs at most. -/
def work (caller : Caller) : Nat :=
  caller.compiled.toList.length + 2 * caller.requests.length

theorem honest_start (requests : List Request) : (start requests).Honest := by
  intro source stored h
  cases h

theorem honest_proceed (caller : Caller) (cache : Cache) : (caller.proceed cache).Honest := by
  fun_cases proceed caller cache with
  | case3 source rest asked none missing stored compiled =>
    intro source' stored' h
    cases h
    exact compiled
  | case6 done none =>
    intro source stored h
    rw [none] at h
    cases h
  | case1 => exact nofun
  | case2 => exact nofun
  | case4 => exact nofun
  | case5 => exact nofun

/-- A turn moves an answer from those to get to those that the caller has, or none. -/
theorem account_proceed (caller : Caller) {cache : Cache} (sound : cache.Sound) :
    (caller.proceed cache).account = caller.account := by
  unfold account
  fun_cases proceed caller cache with
  | case1 source stored pending => simp [pending]
  | case2 source rest asked none stored found =>
    simp [none, asked, directAnswers, sound source stored found]
  | case3 source rest asked none missing stored compiled =>
    simp [none, asked, directAnswers, compiled]
  | case4 source rest asked none missing fault refused =>
    simp [none, asked, directAnswers, refused]
  | case5 rest asked none => simp [none, asked, directAnswers]
  | case6 => rfl

theorem work_proceed (caller : Caller) (cache : Cache) :
    (caller.proceed cache).work ≤ caller.work - 1 := by
  unfold work
  fun_cases proceed caller cache with
  | case1 source stored pending => simp [pending]
  | case2 source rest asked none => simp [none, asked]; omega
  | case3 source rest asked none => simp [none, asked]; omega
  | case4 source rest asked none => simp [none, asked]; omega
  | case5 rest asked none => simp [none, asked]; omega
  | case6 done none => simp [none, done]

/-- A caller that needs no turn has all its answers. -/
theorem answers_of_work_eq_zero {caller : Caller} (h : caller.work = 0) :
    caller.answers = caller.account := by
  unfold work at h
  have none : caller.compiled.toList = [] := List.eq_nil_of_length_eq_zero (by omega)
  have done : caller.requests = [] := List.eq_nil_of_length_eq_zero (by omega)
  simp [account, none, done, directAnswers]

theorem answers_prefix_account (caller : Caller) : caller.answers <+: caller.account := by
  rw [account, List.append_assoc]
  exact List.prefix_append _ _

end Caller

/-! ## All callers -/

namespace SharedCache

/-- A caller that no one comes between compiles through the cache in one go. -/
theorem run_alone (cache : Cache) (source : String) :
    run ⟨cache, [.start [.compile source]]⟩ [0, 0] =
      ⟨(cache.compile source).2, [⟨[], none, [(source, (cache.compile source).1)]⟩]⟩ := by
  unfold run turn Cache.compile
  cases found : cache.find? source with
  | some stored => simp [access?, Caller.access?, Caller.start, Caller.proceed, found, Cache.serve]
  | none =>
    cases compiled : Rulebook.compile source with
    | ok stored =>
      simp [access?, Caller.access?, Caller.start, Caller.proceed, found, compiled, Cache.serve]
    | error fault =>
      simp [access?, Caller.access?, Caller.start, Caller.proceed, found, compiled, Cache.serve]

/-- A program can get to the cache, and every caller is honest. -/
structure Sound (shared : SharedCache) : Prop where
  cache : shared.cache.Reachable
  callers : ∀ caller ∈ shared.callers, caller.Honest

theorem sound_start (programs : List (List Request)) : (start programs).Sound := by
  refine ⟨.empty, fun caller hmem => ?_⟩
  obtain ⟨requests, -, rfl⟩ := List.mem_map.1 hmem
  exact Caller.honest_start requests

/-- The access of an honest caller leads to a cache that a program can get to. -/
theorem reachable_serve {cache : Cache} (h : cache.Reachable) {caller : Caller}
    (honest : caller.Honest) : (caller.access?.elim cache cache.serve).Reachable := by
  fun_cases Caller.access? caller with
  | case1 source stored pending => exact h.remember (honest source stored pending)
  | case2 source rest asked none => exact h
  | case3 rest asked none => exact h.clear
  | case4 => exact h

theorem Sound.turn {shared : SharedCache} (h : shared.Sound) (position : Nat) :
    (shared.turn position).Sound := by
  constructor
  · unfold SharedCache.turn access?
    cases hcaller : shared.callers[position]? with
    | none => exact h.cache
    | some caller =>
      exact reachable_serve h.cache (h.callers caller (List.mem_of_getElem? hcaller))
  · intro caller hmem
    obtain ⟨place, hplace⟩ := List.mem_iff_getElem?.1 hmem
    unfold SharedCache.turn at hplace
    rw [List.getElem?_modify, Option.map_eq_map, Option.map_eq_some_iff] at hplace
    obtain ⟨before, hbefore, rfl⟩ := hplace
    split
    · exact before.honest_proceed shared.cache
    · exact h.callers before (List.mem_of_getElem? hbefore)

theorem Sound.run {shared : SharedCache} (h : shared.Sound) (schedule : List Nat) :
    (shared.run schedule).Sound := by
  induction schedule generalizing shared with
  | nil => exact h
  | cons position rest ih => exact ih (h.turn position)

theorem run_concat (shared : SharedCache) (schedule : List Nat) (position : Nat) :
    shared.run (schedule ++ [position]) = (shared.run schedule).turn position :=
  List.foldl_concat _ _ _ _

/-- What a schedule does for one caller. -/
theorem caller_run {programs : List (List Request)} (schedule : List Nat) {position : Nat}
    {program : List Request} (h : programs[position]? = some program) :
    ∃ caller, ((start programs).run schedule).callers[position]? = some caller ∧
      caller.account = directAnswers program ∧
      caller.work ≤ 2 * program.length - schedule.count position := by
  induction schedule using List.reverseRecOn with
  | nil =>
    refine ⟨Caller.start program, ?_, rfl, ?_⟩
    · simp [run, start, h]
    · simp [Caller.work, Caller.start]
  | append_singleton schedule turned ih =>
    obtain ⟨caller, hcaller, account, work⟩ := ih
    -- Only a cache that a program can get to answers as compiling does.
    have sound := ((sound_start programs).run schedule).cache.sound
    rw [run_concat]
    unfold turn
    rw [List.getElem?_modify, hcaller, List.count_append]
    by_cases same : turned = position
    · have less := caller.work_proceed ((start programs).run schedule).cache
      refine ⟨caller.proceed ((start programs).run schedule).cache, by simp [same],
        by rw [caller.account_proceed sound, account], ?_⟩
      rw [same, List.count_singleton_self]
      omega
    · exact ⟨caller, by simp [same], account, by simpa [same] using work⟩

/-- An access keeps all entries, unless it empties the cache. -/
theorem entries_turn (shared : SharedCache) (position : Nat) :
    shared.cache.entries ⊆ (shared.turn position).cache.entries ∨
      shared.access? position = some .clear := by
  unfold turn
  cases shared.access? position with
  | none => exact .inl (List.Subset.refl _)
  | some access =>
    cases access with
    | lookup source => exact .inl (List.Subset.refl _)
    | clear => exact .inr rfl
    | remember source stored =>
      exact .inl (shared.cache.entries_subset_remember source stored)

/-- A source that was remembered has an entry, unless it had none and the cache was full. -/
theorem has_turn {shared : SharedCache} (h : shared.Sound) {position : Nat} {source : String}
    {stored : StoredRule} (haccess : shared.access? position = some (.remember source stored)) :
    if shared.cache.has source = false ∧ shared.cache.size = Cache.capacity then
      (shared.turn position).cache = shared.cache
    else (shared.turn position).cache.has source = true := by
  have bound := h.cache.size_le
  have after : (shared.turn position).cache = shared.cache.remember source stored := by
    rw [turn, haccess]
    rfl
  rw [after]
  rcases shared.cache.remember_cases source stored with
    ⟨known, same⟩ | ⟨fresh, full, same⟩ | ⟨fresh, room, longer⟩
  · rw [if_neg (by simp [known]), same, known]
  · rw [if_pos ⟨fresh, by omega⟩, same]
  · rw [if_neg (by omega), longer, Cache.has, Cache.find?_cons, if_pos rfl]
    rfl

end SharedCache

/-! ## Main statement -/

/--
**A shared cache is transparent and bounded.** Whatever the callers ask for and whatever the
schedule: a caller gets, in order, the answers that compiling without a cache gives, and it has all
of them after two turns for each request. The cache holds only what its sources compile to, one
entry a source and no more than its capacity. No turn takes an entry away but one that empties the
cache, and a turn that remembers a source leaves it with an entry, unless it had none and the cache
was full; then the cache stays as it was.
-/
theorem shared_cache_transparent (programs : List (List Request)) (schedule : List Nat) :
    let shared := (SharedCache.start programs).run schedule
    (∀ position program, programs[position]? = some program →
      ∃ caller, shared.callers[position]? = some caller ∧
        caller.answers <+: directAnswers program ∧
        (2 * program.length ≤ schedule.count position →
          caller.answers = directAnswers program)) ∧
    (∀ source stored, (source, stored) ∈ shared.cache.entries →
      compile source = .ok stored) ∧
    (∀ source fault, compile source = .error fault → shared.cache.has source = false) ∧
    shared.cache.size ≤ Cache.capacity ∧
    shared.cache.sources.Nodup ∧
    (∀ position, shared.cache.entries ⊆ (shared.turn position).cache.entries ∨
      shared.access? position = some .clear) ∧
    (∀ position source stored, shared.access? position = some (.remember source stored) →
      if shared.cache.has source = false ∧ shared.cache.size = Cache.capacity then
        (shared.turn position).cache = shared.cache
      else (shared.turn position).cache.has source = true) := by
  intro shared
  have sound : shared.Sound := (SharedCache.sound_start programs).run schedule
  refine ⟨fun position program h => ?_, fun source stored => sound.cache.compile_of_mem,
    fun source fault => sound.cache.has_eq_false, sound.cache.size_le, sound.cache.nodup_sources,
    shared.entries_turn, fun position source stored => SharedCache.has_turn sound⟩
  obtain ⟨caller, hcaller, account, work⟩ := SharedCache.caller_run schedule h
  refine ⟨caller, hcaller, account ▸ caller.answers_prefix_account, fun turns => ?_⟩
  rw [← account]
  exact Caller.answers_of_work_eq_zero (by omega)

end Rulebook
