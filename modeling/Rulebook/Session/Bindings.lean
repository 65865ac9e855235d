import Rulebook.Rule.Basic

/-!
# Bindings

The values of names in a session. A name can be declared and still have no value: its question was
not answered, or no rule has given it one. Names keep the order in which they were declared.

What an operation does is said by what `get?` answers afterwards and by the declared names.
-/

namespace Rulebook

/-- Declared names, each with its value or without one. -/
abbrev Bindings := List (String × Option Literal)

namespace Bindings

def names (bindings : Bindings) : List String :=
  bindings.map (·.1)

/-- What is bound to a name; `none` for a name that is not declared. -/
def get? (bindings : Bindings) (name : String) : Option (Option Literal) :=
  (bindings.find? (·.1 == name)).map (·.2)

def has (bindings : Bindings) (name : String) : Bool :=
  bindings.any (·.1 == name)

/-- The value of a name that has one. -/
def value? (bindings : Bindings) (name : String) : Option Literal :=
  (bindings.get? name).join

/-- Declares a name without value; a name that is declared keeps what it has. -/
def declare (bindings : Bindings) (name : String) : Bindings :=
  if bindings.has name then bindings else bindings ++ [(name, none)]

/-- Gives a declared name a value, and leaves all other names as they are. -/
def assign (bindings : Bindings) (name : String) (value : Literal) : Bindings :=
  bindings.map fun entry => if entry.1 == name then (entry.1, some value) else entry

/-- Gives a name a value and declares it where needed. -/
def insert (bindings : Bindings) (name : String) (value : Literal) : Bindings :=
  (bindings.declare name).assign name value

/-- Takes all values away and keeps the names. -/
def clear (bindings : Bindings) : Bindings :=
  bindings.map fun entry => (entry.1, none)

/-! ## What the operations do -/

@[simp] theorem get?_nil (name : String) : get? [] name = none := rfl

theorem get?_cons (entry : String × Option Literal) (bindings : Bindings) (name : String) :
    get? (entry :: bindings) name =
      if entry.1 = name then some entry.2 else get? bindings name := by
  by_cases h : entry.1 = name <;> simp [get?, h]

theorem has_eq_isSome_get? (bindings : Bindings) (name : String) :
    bindings.has name = (bindings.get? name).isSome := by
  induction bindings with
  | nil => rfl
  | cons entry rest ih =>
    rw [get?_cons]
    unfold has at ih
    by_cases h : entry.1 = name
    · simp [has, h]
    · rw [if_neg h, ← ih, has, List.any_cons]
      simp [h]

theorem has_iff_mem_names (bindings : Bindings) (name : String) :
    bindings.has name = true ↔ name ∈ bindings.names := by
  simp [has, names]

theorem has_congr {first second : Bindings} (h : first.names = second.names) (name : String) :
    first.has name = second.has name := by
  rw [Bool.eq_iff_iff, has_iff_mem_names, has_iff_mem_names, h]

theorem get?_append (first second : Bindings) (name : String) :
    get? (first ++ second) name = (first.get? name).or (second.get? name) := by
  induction first with
  | nil => rfl
  | cons entry rest ih =>
    rw [List.cons_append, get?_cons, get?_cons]
    split
    · rfl
    · exact ih

theorem get?_declare (bindings : Bindings) (declared name : String) :
    (bindings.declare declared).get? name =
      (bindings.get? name).or (if declared = name then some none else none) := by
  unfold declare
  split
  · next h =>
    rw [has_eq_isSome_get?] at h
    split
    · next heq =>
      subst heq
      obtain ⟨value, hvalue⟩ := Option.isSome_iff_exists.1 h
      simp [hvalue]
    · simp
  · rw [get?_append, get?_cons]
    simp

theorem get?_assign (bindings : Bindings) (assigned name : String) (value : Literal) :
    (bindings.assign assigned value).get? name =
      if assigned = name then (bindings.get? name).map fun _ => some value
      else bindings.get? name := by
  induction bindings with
  | nil => simp [assign]
  | cons entry rest ih =>
    unfold assign at ih
    rw [assign, List.map_cons, get?_cons, get?_cons, ih]
    by_cases hassigned : assigned = name
    · subst hassigned
      by_cases hentry : entry.1 = assigned <;> simp [hentry]
    · by_cases hentry : entry.1 = assigned
      · simp [hentry, hassigned]
      · simp [hentry, hassigned]

theorem assign_assign (bindings : Bindings) (name : String) (value value' : Literal) :
    (bindings.assign name value).assign name value' = bindings.assign name value' := by
  unfold assign
  rw [List.map_map]
  apply List.map_congr_left
  intro entry _
  by_cases same : entry.1 = name <;> simp [same]

theorem assign_comm {first second : String} (h : first ≠ second) (bindings : Bindings)
    (value value' : Literal) :
    (bindings.assign first value).assign second value' =
      (bindings.assign second value').assign first value := by
  unfold assign
  rw [List.map_map, List.map_map]
  apply List.map_congr_left
  intro entry _
  by_cases isFirst : entry.1 = first
  · simp [isFirst, h]
  · by_cases isSecond : entry.1 = second <;> simp [isFirst, isSecond, h.symm]

theorem get?_insert (bindings : Bindings) (inserted name : String) (value : Literal) :
    (bindings.insert inserted value).get? name =
      if inserted = name then some (some value) else bindings.get? name := by
  rw [insert, get?_assign, get?_declare]
  by_cases h : inserted = name
  · cases bindings.get? name <;> simp [h]
  · simp [h]

theorem get?_clear (bindings : Bindings) (name : String) :
    bindings.clear.get? name = (bindings.get? name).map fun _ => none := by
  induction bindings with
  | nil => rfl
  | cons entry rest ih =>
    unfold clear at ih
    rw [clear, List.map_cons, get?_cons, get?_cons, ih]
    split <;> rfl

@[simp] theorem names_assign (bindings : Bindings) (name : String) (value : Literal) :
    (bindings.assign name value).names = bindings.names := by
  simp only [names, assign, List.map_map]
  congr 1
  funext entry
  by_cases h : entry.1 = name <;> simp [h]

@[simp] theorem names_clear (bindings : Bindings) : bindings.clear.names = bindings.names := by
  simp [names, clear, Function.comp_def]

theorem clear_congr {first second : Bindings} (h : first.names = second.names) :
    first.clear = second.clear := by
  have clear_eq (bindings : Bindings) : bindings.clear = bindings.names.map (·, none) := by
    simp [clear, names, Function.comp_def]
  rw [clear_eq, clear_eq, h]

theorem clear_declare (bindings : Bindings) (name : String) :
    (bindings.declare name).clear = bindings.clear.declare name := by
  unfold declare
  rw [has_congr (names_clear bindings)]
  split
  · rfl
  · simp [clear]

theorem names_declare (bindings : Bindings) (name : String) :
    (bindings.declare name).names =
      if name ∈ bindings.names then bindings.names else bindings.names ++ [name] := by
  by_cases h : name ∈ bindings.names
  · simp [declare, (has_iff_mem_names bindings name).2 h, h]
  · have : bindings.has name = false := by
      simpa [← has_iff_mem_names] using h
    rw [declare, this, if_neg h]
    simp [names]

theorem value?_declare (bindings : Bindings) (declared name : String) :
    (bindings.declare declared).value? name = bindings.value? name := by
  rw [value?, get?_declare, value?]
  cases bindings.get? name with
  | some value => rfl
  | none => split <;> rfl

theorem value?_assign_self {bindings : Bindings} {name : String} (h : name ∈ bindings.names)
    (value : Literal) : (bindings.assign name value).value? name = some value := by
  rw [← has_iff_mem_names, has_eq_isSome_get?, Option.isSome_iff_exists] at h
  obtain ⟨old, hold⟩ := h
  simp [value?, get?_assign, hold]

theorem value?_assign_of_ne {bindings : Bindings} {assigned name : String} (h : assigned ≠ name)
    (value : Literal) : (bindings.assign assigned value).value? name = bindings.value? name := by
  rw [value?, get?_assign, if_neg h, value?]

@[simp] theorem value?_clear (bindings : Bindings) (name : String) :
    bindings.clear.value? name = none := by
  rw [value?, get?_clear]
  cases bindings.get? name <;> rfl

theorem mem_names_declare (bindings : Bindings) (declared name : String) :
    name ∈ (bindings.declare declared).names ↔ name ∈ bindings.names ∨ name = declared := by
  rw [names_declare]
  split
  · next known =>
    constructor
    · exact .inl
    · rintro (h | rfl)
      · exact h
      · exact known
  · rw [List.mem_append, List.mem_singleton]

/-! ## Declaring many names -/

theorem mem_names_foldl_declare (declared : List String) (bindings : Bindings) (name : String) :
    name ∈ (declared.foldl declare bindings).names ↔ name ∈ bindings.names ∨ name ∈ declared := by
  induction declared generalizing bindings with
  | nil => simp
  | cons first rest ih => rw [List.foldl_cons, ih, mem_names_declare, List.mem_cons, or_assoc]

theorem clear_foldl_declare (declared : List String) (bindings : Bindings) :
    (declared.foldl declare bindings).clear = declared.foldl declare bindings.clear := by
  induction declared generalizing bindings with
  | nil => rfl
  | cons first rest ih => rw [List.foldl_cons, List.foldl_cons, ih, clear_declare]

theorem value?_foldl_declare (declared : List String) (bindings : Bindings) (name : String) :
    (declared.foldl declare bindings).value? name = bindings.value? name := by
  induction declared generalizing bindings with
  | nil => rfl
  | cons first rest ih => rw [List.foldl_cons, ih, value?_declare]

/-- Distinct new names are declared behind the others, in their order. -/
theorem foldl_declare_of_nodup {declared : List String} (distinct : declared.Nodup)
    {bindings : Bindings} (fresh : ∀ name ∈ declared, name ∉ bindings.names) :
    declared.foldl declare bindings = bindings ++ declared.map (·, none) := by
  induction declared generalizing bindings with
  | nil => simp
  | cons first rest ih =>
    obtain ⟨once, distinct⟩ := List.nodup_cons.1 distinct
    obtain ⟨new, others⟩ := List.forall_mem_cons.1 fresh
    have unknown : ¬ bindings.has first = true := mt (has_iff_mem_names bindings first).1 new
    have appended : bindings.declare first = bindings ++ [(first, none)] := if_neg unknown
    have fresh' : ∀ name ∈ rest, name ∉ (bindings.declare first).names := by
      intro name hname declared
      rcases (mem_names_declare bindings first name).1 declared with known | rfl
      · exact others name hname known
      · exact once hname
    rw [List.foldl_cons, ih distinct fresh', appended, List.map_cons, List.append_assoc]
    rfl

end Bindings

end Rulebook
