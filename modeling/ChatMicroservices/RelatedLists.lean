import Mathlib.Data.List.Forall2

/-!
# Lists that are related element by element

Every element has a partner in the other list, and a function that may fail, applied to each
element, returns the list of its results.
-/

namespace ChatMicroservices.RelatedLists

variable {α β ε : Type} {R : α → β → Prop} {as : List α} {bs : List β}

theorem exists_mem_zip (h : List.Forall₂ R as bs) {a : α} (ha : a ∈ as) :
    ∃ b, (a, b) ∈ as.zip bs := by
  induction h with
  | nil => cases ha
  | cons _ _ ih =>
    rcases List.mem_cons.mp ha with rfl | ha
    · exact ⟨_, List.mem_cons_self⟩
    · obtain ⟨b, hb⟩ := ih ha
      exact ⟨b, List.mem_cons_of_mem _ hb⟩

theorem exists_partner (h : List.Forall₂ R as bs) {a : α} (ha : a ∈ as) : ∃ b ∈ bs, R a b := by
  obtain ⟨b, hb⟩ := exists_mem_zip h ha
  exact ⟨b, (List.of_mem_zip hb).2, List.forall₂_zip h hb⟩

theorem exists_getElem? (h : List.Forall₂ R as bs) {i : ℕ} {a : α} (ha : as[i]? = some a) :
    ∃ b, bs[i]? = some b ∧ R a b := by
  induction h generalizing i with
  | nil => cases ha
  | @cons a' b' as bs hab _ ih =>
    cases i with
    | zero =>
      obtain rfl := Option.some.inj ha
      exact ⟨b', rfl, hab⟩
    | succ i => exact ih ha

/-- An element and its partner may be replaced by others that are related. -/
theorem forall₂_set (h : List.Forall₂ R as bs) (i : ℕ) {a : α} {b : β} (hab : R a b) :
    List.Forall₂ R (as.set i a) (bs.set i b) := by
  induction h generalizing i with
  | nil => exact .nil
  | cons hfirst hrest ih =>
    cases i with
    | zero => exact .cons hab hrest
    | succ i => exact .cons hfirst (ih i)

theorem exists_forall₂ (h : ∀ a ∈ as, ∃ b, R a b) : ∃ bs, List.Forall₂ R as bs := by
  induction as with
  | nil => exact ⟨[], .nil⟩
  | cons a as ih =>
    obtain ⟨⟨b, hb⟩, has⟩ := List.forall_mem_cons.mp h
    obtain ⟨bs, hbs⟩ := ih has
    exact ⟨b :: bs, .cons hb hbs⟩

theorem mapM_eq_ok {f : α → Except ε β} :
    as.mapM f = .ok bs ↔ List.Forall₂ (fun a b => f a = .ok b) as bs := by
  induction as generalizing bs with
  | nil =>
    rw [List.mapM_nil, List.forall₂_nil_left_iff]
    exact ⟨fun h => (Except.ok.inj h).symm, fun h => congrArg Except.ok h.symm⟩
  | cons a as ih =>
    rw [List.mapM_cons, List.forall₂_cons_left_iff]
    constructor
    · intro h
      cases ha : f a with
      | error e =>
        rw [ha] at h
        cases h
      | ok b =>
        cases has : as.mapM f with
        | error e =>
          rw [ha, has] at h
          cases h
        | ok bs' =>
          rw [ha, has] at h
          exact ⟨b, bs', ha ▸ rfl, ih.mp has, (Except.ok.inj h).symm⟩
    · rintro ⟨b, bs', ha, has, rfl⟩
      rw [ha, ih.mpr has]
      rfl

end ChatMicroservices.RelatedLists
