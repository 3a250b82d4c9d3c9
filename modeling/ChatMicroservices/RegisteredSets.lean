import Mathlib.Data.Finset.Insert
import Mathlib.Data.Finset.Erase

/-!
# What has been added and not since removed

A history of additions and removals, and the set of what is registered after it.
-/

namespace ChatMicroservices.RegisteredSets

inductive Change (α : Type) where
  | add (a : α)
  | remove (a : α)
  deriving DecidableEq

variable {α : Type}

/-- It was added, and not removed after that. -/
def Live (history : List (Change α)) (a : α) : Prop :=
  ∃ before after, history = before ++ .add a :: after ∧ .remove a ∉ after

@[simp] theorem not_live_nil (a : α) : ¬ Live [] a := by
  rintro ⟨before, after, h, -⟩
  exact absurd h.symm (by simp)

theorem live_concat_add {history : List (Change α)} {a b : α} :
    Live (history ++ [.add b]) a ↔ a = b ∨ Live history a := by
  constructor
  · rintro ⟨before, after, h, hremove⟩
    rcases List.eq_nil_or_concat after with rfl | ⟨rest, last, rfl⟩
    · obtain ⟨-, hlast⟩ := List.append_inj' h rfl
      exact .inl (Change.add.inj (List.head_eq_of_cons_eq hlast)).symm
    · rw [List.concat_eq_append, ← List.cons_append, ← List.append_assoc] at h
      obtain ⟨hinit, -⟩ := List.append_inj' h rfl
      refine .inr ⟨before, rest, hinit, fun hmem => hremove ?_⟩
      simp [hmem]
  · rintro (rfl | ⟨before, after, rfl, hremove⟩)
    · exact ⟨history, [], rfl, List.not_mem_nil⟩
    · exact ⟨before, after ++ [.add b], by simp, by simpa using hremove⟩

theorem live_concat_remove {history : List (Change α)} {a b : α} :
    Live (history ++ [.remove b]) a ↔ a ≠ b ∧ Live history a := by
  constructor
  · rintro ⟨before, after, h, hremove⟩
    rcases List.eq_nil_or_concat after with rfl | ⟨rest, last, rfl⟩
    · obtain ⟨-, hlast⟩ := List.append_inj' h rfl
      cases hlast
    · rw [List.concat_eq_append, ← List.cons_append, ← List.append_assoc] at h
      obtain ⟨hinit, hlast⟩ := List.append_inj' h rfl
      obtain rfl := List.head_eq_of_cons_eq hlast
      refine ⟨fun hab => hremove (by simp [hab]), before, rest, hinit, fun hmem => hremove ?_⟩
      simp [hmem]
  · rintro ⟨hab, before, after, rfl, hremove⟩
    exact ⟨before, after ++ [.remove b], by simp, by simpa [hab] using hremove⟩

variable [DecidableEq α]

def Change.apply (registered : Finset α) : Change α → Finset α
  | add a => insert a registered
  | remove a => registered.erase a

/-- The registered set after a history. -/
def registered (history : List (Change α)) : Finset α := history.foldl Change.apply ∅

@[simp] theorem registered_concat (history : List (Change α)) (change : Change α) :
    registered (history ++ [change]) = change.apply (registered history) := by
  simp [registered]

theorem mem_registered {history : List (Change α)} {a : α} :
    a ∈ registered history ↔ Live history a := by
  induction history using List.reverseRecOn with
  | nil => simp [registered]
  | append_singleton history change ih =>
    rw [registered_concat]
    cases change with
    | add b => rw [Change.apply, Finset.mem_insert, live_concat_add, ih]
    | remove b => rw [Change.apply, Finset.mem_erase, live_concat_remove, ih]

end ChatMicroservices.RegisteredSets
