import ChatMicroservices.RelatedLists
import Mathlib.Data.Fintype.Card
import Mathlib.Data.List.Nodup
import Mathlib.Logic.Relation
import Mathlib.Order.WellFounded

/-!
# Walks through graphs of objects

A value is a leaf, something that a walk cannot take, or an object with further values in it.
The walk that builds a result carries the objects it is in, and fails when it comes to one of
them again. It succeeds just for the values that unfold to finite trees. A survey looks whether
there is anything bad behind a value, and passes over an object that it comes to again.
-/

namespace ChatMicroservices.ObjectWalks
open RelatedLists

variable {ν ρ τ ε : Type}

inductive Look (ρ τ ε : Type)
  | leaf (t : τ)
  | bad (e : ε)
  | node (r : ρ)

/-- How values look, what is in an object, and the result for an object from those for what is
in it. -/
structure Graph (ν ρ τ ε : Type) where
  look : ν → Look ρ τ ε
  children : ρ → List ν
  build : ρ → List τ → τ
  cycle : ε

namespace Graph

variable (g : Graph ν ρ τ ε)

section

variable [DecidableEq ρ]

/-- The result for a value inside the objects of `stack`. -/
def walk : ℕ → List ρ → ν → Except ε τ
  | 0, _, _ => .error g.cycle
  | fuel + 1, stack, v =>
    match g.look v with
    | .leaf t => .ok t
    | .bad e => .error e
    | .node r =>
      if r ∈ stack then .error g.cycle
      else ((g.children r).mapM (walk fuel (r :: stack))).map (g.build r)

/-- There is nothing bad behind a value. -/
def survey : ℕ → List ρ → ν → Bool
  | 0, _, _ => true
  | fuel + 1, stack, v =>
    match g.look v with
    | .leaf _ => true
    | .bad _ => false
    | .node r => r ∈ stack || (g.children r).all (survey fuel (r :: stack))

end

/-- The value unfolds to a finite tree without anything bad. -/
inductive Unfolds : ν → Prop
  | leaf {v : ν} {t : τ} : g.look v = .leaf t → Unfolds v
  | node {v : ν} {r : ρ} : g.look v = .node r → (∀ w ∈ g.children r, Unfolds w) → Unfolds v

/-- A path from one value to another that goes through none of the objects `avoided`. -/
inductive Path (avoided : List ρ) : ν → ν → Prop
  | refl (v : ν) : Path avoided v v
  | step {v w u : ν} {r : ρ} : g.look v = .node r → r ∉ avoided → w ∈ g.children r →
      Path avoided w u → Path avoided v u

/-- One object is directly in the other. -/
def Contains (r r' : ρ) : Prop := ∃ w ∈ g.children r, g.look w = .node r'

variable {g}

/-- In a value that unfolds, the objects inside one another are well founded. -/
theorem Unfolds.acc {v : ν} (h : g.Unfolds v) {r : ρ} (hr : g.look v = .node r) :
    Acc (flip g.Contains) r := by
  induction h generalizing r with
  | leaf hleaf => cases hleaf.symm.trans hr
  | node hnode _ ih =>
    cases hnode.symm.trans hr
    refine Acc.intro _ fun r' hinside => ?_
    obtain ⟨w, hw, hlook⟩ := hinside
    exact ih w hw hlook

theorem not_self_of_acc {α : Type} {R : α → α → Prop} {a : α} (h : Acc R a) : ¬ R a a := by
  induction h with
  | intro a _ ih => exact fun hself => ih a hself hself

/-- The end of a path that comes through an object is behind something in it. -/
theorem Path.leaves {avoided : List ρ} {v w : ν} (h : g.Path avoided v w) (r : ρ) :
    g.Path (r :: avoided) v w ∨ ∃ u ∈ g.children r, g.Path (r :: avoided) u w := by
  induction h with
  | refl v => exact .inl (.refl v)
  | @step v w u r' hlook havoided hchild _ ih =>
    rcases ih with ih | ih
    · by_cases hr : r' = r
      · exact .inr ⟨w, hr ▸ hchild, ih⟩
      · exact .inl (.step hlook (by simp [hr, havoided]) hchild ih)
    · exact .inr ih

section

variable [DecidableEq ρ]

/-- Everything a successful walk can have met. -/
theorem walk_eq_ok {fuel : ℕ} {stack : List ρ} {v : ν} {t : τ} :
    g.walk (fuel + 1) stack v = .ok t ↔ g.look v = .leaf t ∨
      ∃ r ts, g.look v = .node r ∧ r ∉ stack ∧
        List.Forall₂ (fun w t => g.walk fuel (r :: stack) w = .ok t) (g.children r) ts ∧
        t = g.build r ts := by
  rw [walk]
  cases hlook : g.look v with
  | leaf t' => simp
  | bad e => simp
  | node r =>
    by_cases hr : r ∈ stack
    · simp only [if_pos hr, reduceCtorEq, false_or, false_iff]
      rintro ⟨r', ts, heq, hstack, -⟩
      cases heq
      exact hstack hr
    · simp only [if_neg hr, reduceCtorEq, false_or]
      constructor
      · intro h
        cases hchildren : (g.children r).mapM (g.walk fuel (r :: stack)) with
        | error e =>
          rw [hchildren] at h
          cases h
        | ok ts =>
          rw [hchildren] at h
          exact ⟨r, ts, rfl, hr, mapM_eq_ok.mp hchildren, (Except.ok.inj h).symm⟩
      · rintro ⟨r', ts, heq, -, hchildren, rfl⟩
        cases heq
        rw [mapM_eq_ok.mpr hchildren]
        rfl

theorem unfolds_of_walk {fuel : ℕ} {stack : List ρ} {v : ν} {t : τ}
    (h : g.walk fuel stack v = .ok t) : g.Unfolds v := by
  induction fuel generalizing stack v t with
  | zero => cases h
  | succ fuel ih =>
    rcases walk_eq_ok.mp h with hleaf | ⟨r, ts, hnode, -, hchildren, -⟩
    · exact .leaf hleaf
    · refine .node hnode fun w hw => ?_
      obtain ⟨t, -, ht⟩ := exists_partner hchildren hw
      exact ih ht

theorem survey_of_not_bad {fuel : ℕ} {stack : List ρ} {v : ν}
    (h : ∀ w, g.Path [] v w → ∀ e, g.look w ≠ .bad e) : g.survey fuel stack v = true := by
  induction fuel generalizing stack v with
  | zero => rfl
  | succ fuel ih =>
    rw [survey]
    cases hlook : g.look v with
    | leaf t => rfl
    | bad e => exact absurd hlook (h v (.refl v) e)
    | node r =>
      simp only [Bool.or_eq_true, List.all_eq_true]
      refine .inr fun w hw => ih fun u hpath => ?_
      exact h u (.step hlook List.not_mem_nil hw hpath)

variable [Fintype ρ]

/-- The fuel lasts as long as the objects of the stack are different. -/
theorem walk_of_unfolds {v : ν} (h : g.Unfolds v) {fuel : ℕ} {stack : List ρ}
    (hnodup : stack.Nodup) (hfuel : Fintype.card ρ < fuel + stack.length)
    (hstack : ∀ s ∈ stack, ∀ r, g.look v = .node r → Relation.TransGen g.Contains s r) :
    ∃ t, g.walk fuel stack v = .ok t := by
  induction h generalizing fuel stack with
  | @leaf v t hleaf =>
    have hlength := hnodup.length_le_card
    obtain ⟨fuel, rfl⟩ : ∃ f, fuel = f + 1 := ⟨fuel - 1, by omega⟩
    exact ⟨t, walk_eq_ok.mpr (.inl hleaf)⟩
  | @node v r hnode hchildren ih =>
    have hlength := hnodup.length_le_card
    obtain ⟨fuel, rfl⟩ : ∃ f, fuel = f + 1 := ⟨fuel - 1, by omega⟩
    -- An object of the stack contains `r`, so `r` would be inside itself.
    have hr : r ∉ stack := by
      intro hmem
      have hacc : Acc (Relation.TransGen (flip g.Contains)) r :=
        (Unfolds.acc (.node hnode hchildren) hnode).transGen
      exact not_self_of_acc hacc (Relation.transGen_swap.mp (hstack r hmem r hnode))
    have hresults : ∀ w ∈ g.children r, ∃ t, g.walk fuel (r :: stack) w = .ok t := by
      intro w hw
      refine ih w hw (List.nodup_cons.mpr ⟨hr, hnodup⟩) ?_ fun s hs r' hlook => ?_
      · rw [List.length_cons]
        omega
      · rcases List.mem_cons.mp hs with rfl | hs
        · exact .single ⟨w, hw, hlook⟩
        · exact (hstack s hs r hnode).tail ⟨w, hw, hlook⟩
    obtain ⟨ts, hts⟩ := exists_forall₂ hresults
    exact ⟨_, walk_eq_ok.mpr (.inr ⟨r, ts, hnode, hr, hts, rfl⟩)⟩

/-- A walk succeeds just for the values that unfold. -/
theorem walk_iff {v : ν} :
    (∃ t, g.walk (Fintype.card ρ + 1) [] v = .ok t) ↔ g.Unfolds v := by
  constructor
  · rintro ⟨t, ht⟩
    exact unfolds_of_walk ht
  · intro h
    exact walk_of_unfolds h List.nodup_nil (by simp) fun s hs => absurd hs List.not_mem_nil

theorem not_bad_of_survey {fuel : ℕ} {stack : List ρ} {v w : ν} (hnodup : stack.Nodup)
    (hfuel : Fintype.card ρ < fuel + stack.length) (h : g.survey fuel stack v = true)
    (hpath : g.Path stack v w) (e : ε) : g.look w ≠ .bad e := by
  induction fuel generalizing stack v with
  | zero =>
    have hlength := hnodup.length_le_card
    omega
  | succ fuel ih =>
    rw [survey] at h
    cases hpath with
    | refl =>
      intro hbad
      rw [hbad] at h
      cases h
    | @step _ u _ r hlook hr hchild hpath =>
      rw [hlook] at h
      simp only [hr, decide_false, Bool.false_or, List.all_eq_true] at h
      have hnext : ∀ u ∈ g.children r, g.Path (r :: stack) u w → g.look w ≠ .bad e := by
        intro u hu hpath
        refine ih (List.nodup_cons.mpr ⟨hr, hnodup⟩) ?_ (h u hu) hpath
        rw [List.length_cons]
        omega
      rcases hpath.leaves r with hpath | ⟨u', hu', hpath⟩
      · exact hnext u hchild hpath
      · exact hnext u' hu' hpath

/-- A survey finds what is bad behind a value. -/
theorem survey_iff {v : ν} : g.survey (Fintype.card ρ + 1) [] v = true ↔
    ∀ w, g.Path [] v w → ∀ e, g.look w ≠ .bad e :=
  ⟨fun h _ hpath => not_bad_of_survey List.nodup_nil (by simp) h hpath, survey_of_not_bad⟩

end

end Graph

end ChatMicroservices.ObjectWalks
