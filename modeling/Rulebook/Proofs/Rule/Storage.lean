import Rulebook.Proofs.Outcome
import Rulebook.Proofs.Rule.RoundTrip
import Rulebook.Rule.Stored

/-!
# Stored rules come back

Restoring checks a stored rule part by part. A rule whose parts pass the checks (`Rule.Storable`)
comes back as it was stored (`toRule_toStored`); printable rules, and so all rules that the parser
returns, are of this kind. Nothing else is restored (`StoredRule.toRule_eq_ok_iff`): every check
accepts just what storing writes, so an altered stored rule is either refused or is the
stored form of another rule (`toRule_exact`).
-/

namespace Rulebook

/-! ## Rules that can be stored -/

/-- A number is finite. -/
def Literal.Storable : Literal → Prop
  | .number x => x.isFinite = true
  | .text _ => True

structure Comparison.Storable (comparison : Comparison) : Prop where
  left : comparison.left ≠ ""
  right : comparison.right.Storable

structure Rule.Storable (rule : Rule) : Prop where
  nonempty : rule.condition ≠ []
  condition : ∀ comparison ∈ rule.condition, comparison.Storable
  target : rule.target ≠ ""
  value : rule.value.Storable

theorem IsName.ne_empty {name : String} (h : IsName name) : name ≠ "" := by
  rintro rfl
  obtain ⟨first, rest, spelled, -⟩ := h.word
  cases spelled

theorem Literal.Printable.storable {literal : Literal} (h : literal.Printable) :
    literal.Storable := by
  cases literal with
  | number x => exact h
  | text value => trivial

theorem Comparison.Printable.storable {comparison : Comparison} (h : comparison.Printable) :
    comparison.Storable :=
  ⟨h.left.ne_empty, h.right.storable⟩

theorem Rule.Printable.storable {rule : Rule} (h : rule.Printable) : rule.Storable :=
  ⟨h.nonempty, fun comparison hmem => (h.condition comparison hmem).storable, h.target.ne_empty,
    h.value.storable⟩

/-! ## Parts -/

theorem relationOfTag_eq_ok_iff {tag : String} {relation : Relation} :
    relationOfTag tag = .ok relation ↔ relation.tag = tag := by
  constructor
  · intro h
    unfold relationOfTag at h
    iterate 6
      split at h
      · next same =>
        cases h
        exact same.symm
    cases h
  · rintro rfl
    cases relation <;> rfl

theorem restoreName_eq_ok_iff {name restored : String} :
    restoreName name = .ok restored ↔ restored ≠ "" ∧ restored = name := by
  unfold restoreName
  by_cases empty : name = ""
  · rw [if_pos (String.isEmpty_iff.2 empty)]
    subst empty
    exact ⟨nofun, fun h => absurd h.2 h.1⟩
  · rw [if_neg (by rwa [String.isEmpty_iff]), Except.ok.injEq, eq_comm]
    exact (and_iff_right_of_imp fun same => same ▸ empty).symm

theorem StoredLiteral.toLiteral_eq_ok_iff {stored : StoredLiteral} {literal : Literal} :
    stored.toLiteral = .ok literal ↔ literal.Storable ∧ literal.toStored = stored := by
  constructor
  · intro h
    obtain ⟨kind, number, text⟩ := stored
    unfold toLiteral at h
    split at h
    · next isNumber =>
      cases isNumber
      cases number with
      | none => cases text <;> cases h
      | some x =>
        cases text with
        | some value => cases h
        | none =>
          dsimp only at h
          split at h
          · next finite => cases h; exact ⟨finite, rfl⟩
          · cases h
    · split at h
      · next isText =>
        cases isText
        cases number with
        | some x => cases text <;> cases h
        | none =>
          cases text with
          | none => cases h
          | some value => cases h; exact ⟨trivial, rfl⟩
      · cases h
  · rintro ⟨storable, rfl⟩
    cases literal with
    | number x =>
      have finite : x.isFinite = true := storable
      simp [Literal.toStored, toLiteral, finite]
    | text value =>
      have tags : textTag ≠ numberTag := by decide
      simp [Literal.toStored, toLiteral, tags]

theorem StoredComparison.toComparison_eq_ok_iff {stored : StoredComparison}
    {comparison : Comparison} :
    stored.toComparison = .ok comparison ↔
      comparison.Storable ∧ comparison.toStored = stored := by
  unfold toComparison
  simp only [bind_eq_ok_iff, restoreName_eq_ok_iff, relationOfTag_eq_ok_iff,
    StoredLiteral.toLiteral_eq_ok_iff]
  constructor
  · rintro ⟨left, ⟨named, hleft⟩, relation, hrelation, right, ⟨storable, hright⟩, h⟩
    cases h
    exact ⟨⟨named, storable⟩, by rw [Comparison.toStored, hleft, hrelation, hright]⟩
  · rintro ⟨storable, rfl⟩
    exact ⟨_, ⟨storable.left, rfl⟩, _, rfl, _, ⟨storable.right, rfl⟩, rfl⟩

theorem mapM_toComparison_eq_ok_iff {stored : List StoredComparison}
    {condition : List Comparison} :
    stored.mapM StoredComparison.toComparison = .ok condition ↔
      (∀ comparison ∈ condition, comparison.Storable) ∧
        condition.map Comparison.toStored = stored := by
  simp only [mapM_eq_ok_iff, StoredComparison.toComparison_eq_ok_iff]
  constructor
  · intro h
    induction h with
    | nil => exact ⟨nofun, rfl⟩
    | cons first _ ih =>
      obtain ⟨storable, rfl⟩ := first
      obtain ⟨others, rfl⟩ := ih
      exact ⟨List.forall_mem_cons.2 ⟨storable, others⟩, rfl⟩
  · rintro ⟨storable, rfl⟩
    rw [List.forall₂_map_left_iff, List.forall₂_same]
    exact fun comparison mem => ⟨storable comparison mem, rfl⟩

/-! ## Rules -/

/-- What is restored is a rule that can be stored, from just the form in which it is stored. -/
theorem StoredRule.toRule_eq_ok_iff {stored : StoredRule} {rule : Rule} :
    stored.toRule = .ok rule ↔ rule.Storable ∧ rule.toStored = stored := by
  have nonempty_iff : rule.toStored.conditions = [] ↔ rule.condition = [] := List.map_eq_nil_iff
  constructor
  · intro h
    unfold toRule at h
    split at h
    · cases h
    · next nonempty =>
      simp only [bind_eq_ok_iff, mapM_toComparison_eq_ok_iff, restoreName_eq_ok_iff,
        StoredLiteral.toLiteral_eq_ok_iff] at h
      obtain ⟨condition, ⟨storable, hcondition⟩, target, ⟨named, htarget⟩, value,
        ⟨storable', hvalue⟩, h⟩ := h
      cases h
      have same : Rule.toStored ⟨condition, target, value⟩ = stored := by
        rw [Rule.toStored, hcondition, htarget, hvalue]
      refine ⟨⟨fun empty => nonempty ?_, storable, named, storable'⟩, same⟩
      rw [← same, List.isEmpty_iff]
      exact nonempty_iff.2 empty
  · rintro ⟨storable, rfl⟩
    unfold toRule
    rw [if_neg (by rw [List.isEmpty_iff, nonempty_iff]; exact storable.nonempty)]
    simp only [bind_eq_ok_iff, mapM_toComparison_eq_ok_iff, restoreName_eq_ok_iff,
      StoredLiteral.toLiteral_eq_ok_iff]
    exact ⟨_, ⟨storable.condition, rfl⟩, _, ⟨storable.target, rfl⟩, _, ⟨storable.value, rfl⟩, rfl⟩

theorem Relation.tag_injective : Function.Injective tag := by
  intro relation relation' h
  have restored := relationOfTag_eq_ok_iff.2 h
  rw [relationOfTag_eq_ok_iff.2 rfl] at restored
  exact (Except.ok.inj restored).symm

theorem Literal.toStored_injective : Function.Injective toStored := by
  intro literal literal' h
  cases literal <;> cases literal' <;> simp_all [toStored]

theorem Comparison.toStored_injective : Function.Injective toStored := by
  intro ⟨left, relation, right⟩ ⟨left', relation', right'⟩ h
  obtain ⟨hleft, htag, hright⟩ := StoredComparison.mk.inj h
  rw [Comparison.mk.injEq]
  exact ⟨hleft, Relation.tag_injective htag, Literal.toStored_injective hright⟩

/-- Different rules are stored differently, whether or not they can be restored. -/
theorem Rule.toStored_injective : Function.Injective toStored := by
  intro ⟨condition, target, value⟩ ⟨condition', target', value'⟩ h
  obtain ⟨hcondition, htarget, hvalue⟩ := StoredRule.mk.inj h
  rw [Rule.mk.injEq]
  exact ⟨List.map_injective_iff.2 Comparison.toStored_injective hcondition, htarget,
    Literal.toStored_injective hvalue⟩

/-- A stored rule is restored to the rule that was stored, its numbers bit for bit. -/
theorem toRule_toStored {rule : Rule} (h : rule.Storable) : rule.toStored.toRule = .ok rule :=
  StoredRule.toRule_eq_ok_iff.2 ⟨h, rfl⟩

theorem bind_toStored {rule : Rule} (h : rule.Storable) (valid : rule.validate = .ok ()) :
    rule.toStored.bind = .ok rule :=
  bind_eq_ok_iff.2 ⟨rule, toRule_toStored h, bind_eq_ok_iff.2 ⟨(), valid, rfl⟩⟩

/-! ## Refusals -/

/-- The stored rule does not give a rule. -/
def Fault.IsStorage (fault : Fault) : Prop :=
  ∃ cause, fault = .storage cause

theorem isStorage_storage (cause : StorageCause) : (Fault.storage cause).IsStorage :=
  ⟨cause, rfl⟩

theorem faultsOnly_restoreName (name : String) : FaultsOnly Fault.IsStorage (restoreName name) := by
  unfold restoreName
  split
  · exact faultsOnly_error (isStorage_storage _)
  · exact faultsOnly_ok name

theorem faultsOnly_relationOfTag (tag : String) :
    FaultsOnly Fault.IsStorage (relationOfTag tag) := by
  unfold relationOfTag
  iterate 6
    split
    · exact faultsOnly_ok _
  exact faultsOnly_error (isStorage_storage _)

theorem faultsOnly_toLiteral (stored : StoredLiteral) :
    FaultsOnly Fault.IsStorage stored.toLiteral := by
  unfold StoredLiteral.toLiteral
  split
  · split
    · split
      · exact faultsOnly_ok _
      · exact faultsOnly_error (isStorage_storage _)
    · exact faultsOnly_error (isStorage_storage _)
  · split
    · split
      · exact faultsOnly_ok _
      · exact faultsOnly_error (isStorage_storage _)
    · exact faultsOnly_error (isStorage_storage _)

theorem faultsOnly_toComparison (stored : StoredComparison) :
    FaultsOnly Fault.IsStorage stored.toComparison :=
  (faultsOnly_restoreName _).bind fun _ => (faultsOnly_relationOfTag _).bind fun _ =>
    (faultsOnly_toLiteral _).bind fun _ => faultsOnly_ok _

theorem faultsOnly_toRule (stored : StoredRule) : FaultsOnly Fault.IsStorage stored.toRule := by
  unfold StoredRule.toRule
  split
  · exact faultsOnly_error (isStorage_storage _)
  · exact (FaultsOnly.mapM faultsOnly_toComparison _).bind fun _ =>
      (faultsOnly_restoreName _).bind fun _ => (faultsOnly_toLiteral _).bind fun _ =>
        faultsOnly_ok _

/-! ## Main statement -/

/--
**Restoring undoes storing, and accepts nothing else.** A rule with a condition, with names that are
not empty and with finite numbers comes back from its stored form as it was; the stored form of any
other rule is refused as such. A stored rule that is restored is the stored form of the rule that it
gives. So just the stored forms of such rules are restored, no two of them to one rule.
-/
theorem toRule_exact :
    (∀ rule : Rule, rule.Storable → rule.toStored.toRule = .ok rule) ∧
    (∀ rule : Rule, ¬ rule.Storable →
      ∃ cause, rule.toStored.toRule = .error (.storage cause)) ∧
    (∀ (stored : StoredRule) (rule : Rule), stored.toRule = .ok rule → rule.toStored = stored) ∧
    (∀ stored : StoredRule, (∃ rule, stored.toRule = .ok rule) ↔
      ∃ rule : Rule, rule.Storable ∧ rule.toStored = stored) ∧
    ∀ (stored stored' : StoredRule) (rule : Rule), stored.toRule = .ok rule →
      stored'.toRule = .ok rule → stored = stored' := by
  have exact_form (stored : StoredRule) (rule : Rule) (h : stored.toRule = .ok rule) :
      rule.toStored = stored := (StoredRule.toRule_eq_ok_iff.1 h).2
  refine ⟨fun rule => toRule_toStored, fun rule unstorable => ?_, exact_form, fun stored => ?_,
    fun stored stored' rule h h' => ?_⟩
  · have refused : ∀ restored, rule.toStored.toRule ≠ .ok restored := by
      intro restored h
      obtain ⟨storable, same⟩ := StoredRule.toRule_eq_ok_iff.1 h
      exact unstorable (Rule.toStored_injective same ▸ storable)
    obtain ⟨_, h, cause, rfl⟩ := (faultsOnly_toRule rule.toStored).exists_error refused
    exact ⟨cause, h⟩
  · simp only [StoredRule.toRule_eq_ok_iff]
  · rw [← exact_form stored rule h, exact_form stored' rule h']

/-- No literal is stored as a number with a text beside it. -/
example :
    let zero : Number.Binary64 := ⟨false, 0, by decide⟩
    StoredRule.toRule
        ⟨[⟨"age", "gt", ⟨numberTag, some zero, some "0"⟩⟩], "tier", ⟨textTag, none, some "basic"⟩⟩ =
      .error (.storage (.payloadMismatch numberTag)) := by
  decide

end Rulebook
