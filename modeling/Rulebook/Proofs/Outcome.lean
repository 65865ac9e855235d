import Mathlib.Data.List.Forall2
import Rulebook.Fault

/-!
# Outcomes

What may be refused ends with a result or with a fault. The results of steps that follow one another
are those of each step (`bind_eq_ok_iff`), their fault is that of the first step that fails
(`bind_eq_error_iff`), the results for a list are those for each of its members
(`mapM_eq_ok_iff`), and steps that can fail in one way only do so together as well
(`FaultsOnly.bind`, `FaultsOnly.mapM`).
-/

namespace Rulebook

variable {α β : Type}

/-! ## Results -/

theorem bind_eq_ok_iff {first : Except Fault α} {second : α → Except Fault β} {result : β} :
    (first >>= second) = .ok result ↔ ∃ value, first = .ok value ∧ second value = .ok result := by
  cases first with
  | error fault => exact ⟨nofun, nofun⟩
  | ok value =>
    constructor
    · intro h
      exact ⟨value, rfl, h⟩
    · rintro ⟨_, ⟨⟩, h⟩
      exact h

/-- Behind a check, the result is that of what follows where the check passes. -/
theorem check_bind_eq_ok_iff {check : Except Fault Unit} {onward : Unit → Except Fault α}
    {result : α} :
    (check >>= onward) = .ok result ↔ check = .ok () ∧ onward () = .ok result := by
  rw [bind_eq_ok_iff]
  exact ⟨fun ⟨(), passed, h⟩ => ⟨passed, h⟩, fun ⟨passed, h⟩ => ⟨(), passed, h⟩⟩

theorem bind_eq_error_iff {first : Except Fault α} {second : α → Except Fault β} {fault : Fault} :
    (first >>= second) = .error fault ↔
      first = .error fault ∨ ∃ value, first = .ok value ∧ second value = .error fault := by
  cases first with
  | error fault' =>
    constructor
    · intro h
      cases h
      exact .inl rfl
    · rintro (⟨⟨⟩⟩ | ⟨_, ⟨⟩, -⟩)
      rfl
  | ok value =>
    constructor
    · intro h
      exact .inr ⟨value, rfl, h⟩
    · rintro (⟨⟨⟩⟩ | ⟨_, ⟨⟩, h⟩)
      exact h

theorem mapM_eq_ok_iff {step : α → Except Fault β} {values : List α} {results : List β} :
    values.mapM step = .ok results ↔
      List.Forall₂ (fun value result => step value = .ok result) values results := by
  induction values generalizing results with
  | nil =>
    rw [List.mapM_nil, List.forall₂_nil_left_iff]
    constructor
    · intro h
      cases h
      rfl
    · rintro rfl
      rfl
  | cons value values ih =>
    rw [List.mapM_cons, bind_eq_ok_iff, List.forall₂_cons_left_iff]
    constructor
    · rintro ⟨result, hresult, h⟩
      obtain ⟨results, hresults, h⟩ := bind_eq_ok_iff.1 h
      cases h
      exact ⟨result, results, hresult, ih.1 hresults, rfl⟩
    · rintro ⟨result, results, hresult, hresults, rfl⟩
      exact ⟨result, hresult, bind_eq_ok_iff.2 ⟨results, ih.2 hresults, rfl⟩⟩

/-! ## Faults -/

/-- Where there is no result, the fault is of the given sort. -/
def FaultsOnly (sort : Fault → Prop) (outcome : Except Fault α) : Prop :=
  ∀ fault, outcome = .error fault → sort fault

variable {sort : Fault → Prop}

theorem faultsOnly_ok (value : α) : FaultsOnly sort (.ok value) := by
  intro fault h
  cases h

theorem faultsOnly_error {fault : Fault} (h : sort fault) :
    FaultsOnly sort (.error fault : Except Fault α) := by
  intro fault' h'
  cases h'
  exact h

theorem FaultsOnly.mono {sort' : Fault → Prop} {outcome : Except Fault α}
    (h : FaultsOnly sort outcome) (le : ∀ fault, sort fault → sort' fault) :
    FaultsOnly sort' outcome :=
  fun fault hfault => le fault (h fault hfault)

theorem FaultsOnly.bind {first : Except Fault α} {second : α → Except Fault β}
    (h : FaultsOnly sort first) (h' : ∀ value, FaultsOnly sort (second value)) :
    FaultsOnly sort (first >>= second) := by
  cases first with
  | error fault => exact faultsOnly_error (h fault rfl)
  | ok value => exact h' value

theorem FaultsOnly.mapM {step : α → Except Fault β} (h : ∀ value, FaultsOnly sort (step value))
    (values : List α) : FaultsOnly sort (values.mapM step) := by
  induction values with
  | nil => exact faultsOnly_ok []
  | cons value values ih =>
    rw [List.mapM_cons]
    exact (h value).bind fun _ => ih.bind fun _ => faultsOnly_ok _

/-- An outcome without result has one of its faults. -/
theorem FaultsOnly.exists_error {outcome : Except Fault α} (h : FaultsOnly sort outcome)
    (refused : ∀ value, outcome ≠ .ok value) : ∃ fault, outcome = .error fault ∧ sort fault := by
  cases outcome with
  | error fault => exact ⟨fault, rfl, h fault rfl⟩
  | ok value => exact absurd rfl (refused value)

end Rulebook
