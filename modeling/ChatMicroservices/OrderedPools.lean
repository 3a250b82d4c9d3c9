import Mathlib.Data.List.Sort

/-!
# Draining labelled pools in order

Pools are listed by priority, and a draw removes the first element of the first pool that
has one. So the elements leave in the order of the concatenation of the pools, whatever
the number of pools. The listing is a stable sort, which does not depend on the members
that a filter drops.
-/

namespace ChatMicroservices.OrderedPools

variable {δ κ α : Type}

/-- The elements of a pool, each with the label of the pool. -/
def labels (pool : δ × List κ) : List (δ × κ) := pool.2.map fun k => (pool.1, k)

/-- All elements in the order in which they are drawn. -/
def labelled (pools : List (δ × List κ)) : List (δ × κ) := pools.flatMap labels

@[simp] theorem labels_nil (d : δ) : labels (d, ([] : List κ)) = [] := rfl

@[simp] theorem labels_cons (d : δ) (k : κ) (ks : List κ) :
    labels (d, k :: ks) = (d, k) :: labels (d, ks) := rfl

@[simp] theorem labels_eq_nil {pool : δ × List κ} : labels pool = [] ↔ pool.2 = [] := by
  simp [labels]

@[simp] theorem labelled_nil : labelled ([] : List (δ × List κ)) = [] := rfl

@[simp] theorem labelled_cons (pool : δ × List κ) (pools : List (δ × List κ)) :
    labelled (pool :: pools) = labels pool ++ labelled pools := rfl

theorem labelled_append (pools pools' : List (δ × List κ)) :
    labelled (pools ++ pools') = labelled pools ++ labelled pools' := List.flatMap_append

theorem labelled_eq_nil {pools : List (δ × List κ)} :
    labelled pools = [] ↔ ∀ pool ∈ pools, pool.2 = [] := by
  simp [labelled, List.flatMap_eq_nil_iff]

/-- Remove the first element of the first pool that has one. -/
def draw : List (δ × List κ) → List (δ × List κ)
  | [] => []
  | (d, []) :: pools => (d, []) :: draw pools
  | (d, _ :: ks) :: pools => (d, ks) :: pools

theorem draw_of_empty {pools : List (δ × List κ)} (h : labelled pools = []) :
    draw pools = pools := by
  induction pools with
  | nil => rfl
  | cons pool pools ih =>
    obtain ⟨d, ks⟩ := pool
    rw [labelled_cons, List.append_eq_nil_iff] at h
    obtain rfl : ks = [] := labels_eq_nil.mp h.1
    rw [draw, ih h.2]

/-- The pool a draw takes from comes after empty ones only. -/
theorem draw_append {before : List (δ × List κ)} (h : labelled before = []) (d : δ) (k : κ)
    (ks : List κ) (after : List (δ × List κ)) :
    draw (before ++ (d, k :: ks) :: after) = before ++ (d, ks) :: after := by
  induction before with
  | nil => rfl
  | cons pool before ih =>
    obtain ⟨e, ls⟩ := pool
    rw [labelled_cons, List.append_eq_nil_iff] at h
    obtain rfl : ls = [] := labels_eq_nil.mp h.1
    rw [List.cons_append, draw, ih h.2, List.cons_append]

/-- If the `n`-th member of a list contributes the `n`-th element of `total`, the members
together contribute an initial segment of it. -/
theorem flatMap_eq_take {f : α → List κ} {members : List α} {total : List κ}
    (h : ∀ (n : ℕ) a, members[n]? = some a → f a = (total[n]?).toList) :
    members.flatMap f = total.take members.length := by
  induction members generalizing total with
  | nil => rfl
  | cons a members ih =>
    have hrest : ∀ (n : ℕ) b, members[n]? = some b → f b = (total.tail[n]?).toList := by
      intro n b hb
      rw [List.getElem?_tail]
      exact h (n + 1) b hb
    rw [List.flatMap_cons, ih hrest, h 0 a rfl]
    cases total with
    | nil => simp
    | cons k total => rfl

section Sorting

variable {r : α → α → Prop} [DecidableRel r] [IsTrans α r]

theorem filter_orderedInsert (p : α → Bool) (a : α) {l : List α} (hl : l.Pairwise r) :
    (l.orderedInsert r a).filter p =
      if p a then (l.filter p).orderedInsert r a else l.filter p := by
  induction l with
  | nil => simp [List.filter_cons]
  | cons b l ih =>
    obtain ⟨hb, hl⟩ := List.pairwise_cons.mp hl
    by_cases hab : r a b
    · -- everything that follows is not below `a` either, so `a` is first among what is kept
      have hall : ∀ c ∈ (b :: l).filter p, r a c := by
        intro c hc
        rcases List.mem_cons.mp (List.mem_of_mem_filter hc) with rfl | hc
        · exact hab
        · exact IsTrans.trans _ _ _ hab (hb c hc)
      rw [List.orderedInsert_cons_of_le r l hab, List.filter_cons]
      split
      · cases hf : (b :: l).filter p with
        | nil => rfl
        | cons c rest =>
          rw [List.orderedInsert_cons_of_le r rest (hall c (by simp [hf]))]
      · rfl
    · rw [List.orderedInsert_of_not_le r l hab, List.filter_cons, ih hl]
      by_cases hpb : p b = true
      · by_cases hpa : p a = true
        · simp [hpa, hpb, List.orderedInsert_of_not_le r _ hab]
        · simp [hpa, hpb]
      · simp [hpb]

theorem filter_insertionSort [Std.Total r] (p : α → Bool) (l : List α) :
    (l.insertionSort r).filter p = (l.filter p).insertionSort r := by
  induction l with
  | nil => rfl
  | cons a l ih =>
    rw [List.insertionSort_cons, filter_orderedInsert p a (List.pairwise_insertionSort r l), ih,
      List.filter_cons]
    split
    · rw [List.insertionSort_cons]
    · rfl

end Sorting

end ChatMicroservices.OrderedPools
