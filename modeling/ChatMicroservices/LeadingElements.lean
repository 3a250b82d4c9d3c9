import Mathlib.Data.Finset.Max

/-!
# Elements that lead a list

A property leads a list if it holds of some element and of all that are not earlier, so it
holds of the latest elements. Earlier additions and later additions with the property keep
it, and so does a map that keeps the times.
-/

namespace ChatMicroservices.LeadingElements

variable {α τ : Type} [LinearOrder τ] {time : α → τ} {P Q : α → Prop} {as : List α}

def Leading (time : α → τ) (P : α → Prop) (as : List α) : Prop :=
  ∃ a ∈ as, P a ∧ ∀ b ∈ as, time b < time a ∨ P b

theorem leading_of_length_le_one (hlength : as.length ≤ 1) {a : α} (ha : a ∈ as) (hP : P a) :
    Leading time P as := by
  refine ⟨a, ha, hP, fun b hb => .inr ?_⟩
  match as, hlength with
  | [c], _ =>
    rw [List.mem_singleton] at ha hb
    exact hb.trans ha.symm ▸ hP

theorem Leading.mono (h : Leading time P as) (hPQ : ∀ a ∈ as, P a → Q a) :
    Leading time Q as := by
  obtain ⟨a, ha, hP, hothers⟩ := h
  refine ⟨a, ha, hPQ a ha hP, fun b hb => ?_⟩
  rcases hothers b hb with hlt | hb'
  · exact .inl hlt
  · exact .inr (hPQ b hb hb')

theorem Leading.map {f : α → α} (h : Leading time P as) (htime : ∀ a, time (f a) = time a)
    (hPQ : ∀ a ∈ as, P a → Q (f a)) : Leading time Q (as.map f) := by
  obtain ⟨a, ha, hP, hothers⟩ := h
  refine ⟨f a, List.mem_map_of_mem ha, hPQ a ha hP, fun b hb => ?_⟩
  obtain ⟨c, hc, rfl⟩ := List.mem_map.mp hb
  rcases hothers c hc with hlt | hc'
  · exact .inl (by rwa [htime, htime])
  · exact .inr (hPQ c hc hc')

theorem Leading.append_before (h : Leading time P as) {b : α}
    (hb : ∀ a ∈ as, time b < time a) : Leading time P (as ++ [b]) := by
  obtain ⟨a, ha, hP, hothers⟩ := h
  refine ⟨a, List.mem_append_left _ ha, hP, fun c hc => ?_⟩
  rcases List.mem_append.mp hc with hc | hc
  · exact hothers c hc
  · rw [List.mem_singleton.mp hc]
    exact .inl (hb a ha)

theorem leading_append_after {b : α} (hP : P b) (hb : ∀ a ∈ as, time a < time b) :
    Leading time P (as ++ [b]) := by
  refine ⟨b, List.mem_append_right _ List.mem_cons_self, hP, fun c hc => ?_⟩
  rcases List.mem_append.mp hc with hc | hc
  · exact .inl (hb c hc)
  · rw [List.mem_singleton.mp hc]
    exact .inr hP

/-- The latest elements have the property. -/
theorem Leading.latest (h : Leading time P as) {a : α} (ha : a ∈ as)
    (hlatest : ∀ b ∈ as, time b ≤ time a) : P a := by
  obtain ⟨b, hb, -, hothers⟩ := h
  rcases hothers a ha with hlt | hP
  · exact absurd (hlatest b hb) (not_le.mpr hlt)
  · exact hP

/-- A list that some property leads has a latest element. -/
theorem Leading.exists_latest (h : Leading time P as) : ∃ a ∈ as, ∀ b ∈ as, time b ≤ time a := by
  obtain ⟨a, ha, -⟩ := h
  have hne : (as : Multiset α) ≠ 0 := by
    rw [Ne, Multiset.coe_eq_zero]
    exact List.ne_nil_of_mem ha
  simpa using Multiset.exists_max_image time hne

end ChatMicroservices.LeadingElements
