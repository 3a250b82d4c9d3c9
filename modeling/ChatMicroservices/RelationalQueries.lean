import Mathlib.Data.List.Dedup
import Mathlib.Data.List.Sort
import Mathlib.Data.List.Perm.Basic

/-!
# Relational queries on lists of rows

The clauses of a query as functions on lists. A query says by which relation its rows are
ordered, and leaves open how rows that are equal in it are arranged; `Sorter` is any way to do
it. `rowNumber` and `groupCount` work on the parts of the rows that have the same key.
-/

namespace ChatMicroservices.RelationalQueries

universe u v w

/-- A way to arrange rows so that earlier rows are related to later ones. -/
structure Sorter {α : Type u} (r : α → α → Prop) where
  sort : List α → List α
  perm : ∀ rows, (sort rows).Perm rows
  pairwise : ∀ rows, (sort rows).Pairwise r

namespace Sorter

variable {α : Type u} {r : α → α → Prop}

/-- Rows that are equal in the order stay in the order in which they are read. -/
def stable (r : α → α → Prop) [DecidableRel r] [Std.Total r] [IsTrans α r] : Sorter r where
  sort := List.insertionSort r
  perm := List.perm_insertionSort r
  pairwise := List.pairwise_insertionSort r

theorem mem_sort (s : Sorter r) {rows : List α} {row : α} : row ∈ s.sort rows ↔ row ∈ rows :=
  (s.perm rows).mem_iff

theorem length_sort (s : Sorter r) (rows : List α) : (s.sort rows).length = rows.length :=
  (s.perm rows).length_eq

theorem sort_eq_nil (s : Sorter r) {rows : List α} : s.sort rows = [] ↔ rows = [] := by
  rw [← List.length_eq_zero_iff, s.length_sort, List.length_eq_zero_iff]

/-- The first of the sorted rows is a row to which all others are related. -/
theorem head?_sort [Std.Refl r] (s : Sorter r) {rows : List α} {first : α}
    (h : (s.sort rows).head? = some first) : first ∈ rows ∧ ∀ row ∈ rows, r first row := by
  obtain ⟨rest, hsort⟩ : ∃ rest, s.sort rows = first :: rest := by
    cases hrows : s.sort rows with
    | nil => rw [hrows] at h; cases h
    | cons row rest =>
      rw [hrows] at h
      obtain rfl := Option.some.inj h
      exact ⟨rest, rfl⟩
  have hpairwise := s.pairwise rows
  rw [hsort] at hpairwise
  have hmem : ∀ row, row ∈ first :: rest ↔ row ∈ rows := fun row => by
    rw [← hsort, s.mem_sort]
  refine ⟨(hmem first).mp List.mem_cons_self, fun row hrow => ?_⟩
  rcases List.mem_cons.mp ((hmem row).mpr hrow) with rfl | hrest
  · exact Std.Refl.refl row
  · exact (List.pairwise_cons.mp hpairwise).1 row hrest

end Sorter

section Prefixes

variable {α : Type u} {r : α → α → Prop} {p : α → Bool} {rows : List α}

/-- If the rows that satisfy `p` come before the others, they are the first. -/
theorem filter_eq_take (hp : ∀ a b, r a b → p b = true → p a = true) (hrows : rows.Pairwise r) :
    rows.filter p = rows.take (rows.countP p) := by
  induction rows with
  | nil => rfl
  | cons row rows ih =>
    obtain ⟨hfirst, hrest⟩ := List.pairwise_cons.mp hrows
    by_cases hrow : p row = true
    · rw [List.filter_cons_of_pos hrow, List.countP_cons_of_pos hrow, List.take_succ_cons,
        ih hrest]
    · have hnone : ∀ row' ∈ rows, ¬ p row' = true := fun row' hmem hrow' =>
        hrow (hp row row' (hfirst row' hmem) hrow')
      rw [List.filter_cons_of_neg hrow, List.countP_cons_of_neg hrow,
        List.filter_eq_nil_iff.mpr hnone, List.countP_eq_zero.mpr hnone, List.take_zero]

theorem getElem_iff_lt_countP (hp : ∀ a b, r a b → p b = true → p a = true)
    (hrows : rows.Pairwise r) {n : ℕ} (hn : n < rows.length) :
    p rows[n] = true ↔ n < rows.countP p := by
  have hfilter := filter_eq_take hp hrows
  constructor
  · intro hrow
    by_contra hge
    -- The row is among those that the filter drops.
    have hdrop : rows[n] ∈ rows.drop (rows.countP p) :=
      List.mem_drop_iff_getElem.mpr ⟨n - rows.countP p, by omega, by congr 1; omega⟩
    have hcount : (rows.take (rows.countP p)).countP p + (rows.drop (rows.countP p)).countP p =
        rows.countP p := by
      rw [← List.countP_append, List.take_append_drop]
    have htake : (rows.take (rows.countP p)).countP p = rows.countP p := by
      rw [← hfilter, List.countP_filter]
      simp
    have hzero : (rows.drop (rows.countP p)).countP p = 0 := by omega
    exact List.countP_eq_zero.mp hzero _ hdrop hrow
  · intro hlt
    have hmem : rows[n] ∈ rows.take (rows.countP p) :=
      List.mem_take_iff_getElem.mpr ⟨n, by omega, rfl⟩
    rw [← hfilter] at hmem
    exact (List.mem_filter.mp hmem).2

end Prefixes

section Swap

variable {α : Type u} (r : α → α → Prop) [DecidableRel r]

/-- Exchange the rows in the positions `n` and `n + 1` if the order does not tell them apart. -/
def swapTies : ℕ → List α → List α
  | _, [] => []
  | _, [row] => [row]
  | 0, row :: row' :: rows => if r row' row then row' :: row :: rows else row :: row' :: rows
  | n + 1, row :: row' :: rows => row :: swapTies n (row' :: rows)

theorem swapTies_perm (n : ℕ) (rows : List α) : (swapTies r n rows).Perm rows := by
  fun_induction swapTies r n rows with
  | case1 => exact .refl _
  | case2 => exact .refl _
  | case3 row row' rows h => exact .swap ..
  | case4 row row' rows h => exact .refl _
  | case5 n row row' rows ih => exact ih.cons row

theorem swapTies_pairwise (n : ℕ) {rows : List α} (h : rows.Pairwise r) :
    (swapTies r n rows).Pairwise r := by
  induction rows generalizing n with
  | nil => cases n <;> exact h
  | cons row rows ih =>
    cases rows with
    | nil => cases n <;> exact h
    | cons row' rows =>
      obtain ⟨hfirst, hrest⟩ := List.pairwise_cons.mp h
      cases n with
      | zero =>
        rw [swapTies]
        split
        · rename_i htie
          obtain ⟨hsecond, hrows⟩ := List.pairwise_cons.mp hrest
          refine List.pairwise_cons.mpr ⟨fun row'' hmem => ?_, List.pairwise_cons.mpr ⟨?_, hrows⟩⟩
          · rcases List.mem_cons.mp hmem with rfl | hmem
            · exact htie
            · exact hsecond row'' hmem
          · exact fun row'' hmem => hfirst row'' (List.mem_cons_of_mem _ hmem)
        · exact h
      | succ n =>
        rw [swapTies]
        refine List.pairwise_cons.mpr ⟨fun row'' hmem => ?_, ih n hrest⟩
        exact hfirst row'' ((swapTies_perm r n _).mem_iff.mp hmem)

theorem getElem?_swapTies {n : ℕ} {rows : List α} {a b : α} (ha : rows[n]? = some a)
    (hb : rows[n + 1]? = some b) (htie : r b a) : (swapTies r n rows)[n + 1]? = some a := by
  induction rows generalizing n with
  | nil => simp at ha
  | cons row rows ih =>
    cases rows with
    | nil => simp at hb
    | cons row' rows =>
      cases n with
      | zero =>
        obtain rfl : row = a := by simpa using ha
        obtain rfl : row' = b := by simpa using hb
        rw [swapTies, if_pos htie]
        rfl
      | succ n =>
        rw [swapTies]
        simp only [List.getElem?_cons_succ] at ha hb ⊢
        exact ih (by simpa using ha) (by simpa using hb)

def Sorter.swapTies (s : Sorter r) (n : ℕ) : Sorter r where
  sort rows := RelationalQueries.swapTies r n (s.sort rows)
  perm rows := (swapTies_perm r n _).trans (s.perm rows)
  pairwise rows := swapTies_pairwise r n (s.pairwise rows)

end Swap

section Partition

variable {α : Type u} {κ : Type v} [DecidableEq κ] (key : α → κ)

/-- The rows of one part. -/
def part (rows : List α) (k : κ) : List α := rows.filter fun row => key row = k

/-- The keys of the rows, each of them once. -/
def keys (rows : List α) : List κ := (rows.map key).dedup

variable {key}

theorem mem_part {rows : List α} {k : κ} {row : α} :
    row ∈ part key rows k ↔ row ∈ rows ∧ key row = k := by
  simp [part]

theorem mem_keys {rows : List α} {k : κ} : k ∈ keys key rows ↔ ∃ row ∈ rows, key row = k := by
  simp [keys]

theorem keys_nodup (rows : List α) : (keys key rows).Nodup := List.nodup_dedup _

theorem part_ne_nil {rows : List α} {k : κ} (h : k ∈ keys key rows) : part key rows k ≠ [] := by
  obtain ⟨row, hrow, hkey⟩ := mem_keys.mp h
  exact List.ne_nil_of_mem (mem_part.mpr ⟨hrow, hkey⟩)

variable {r : α → α → Prop}

/-- The rows, each with its position in its sorted part. -/
def rowNumber (key : α → κ) (s : Sorter r) (rows : List α) : List (α × ℕ) :=
  (keys key rows).flatMap fun k => (s.sort (part key rows k)).zipIdx 1

/-- `WHERE rn = 1` -/
def firstRows (key : α → κ) (s : Sorter r) (rows : List α) : List α :=
  ((rowNumber key s rows).filter fun row => row.2 = 1).map Prod.fst

theorem filter_zipIdx_one (rows : List α) :
    (((rows.zipIdx 1).filter fun row => row.2 = 1).map Prod.fst) = rows.head?.toList := by
  cases rows with
  | nil => rfl
  | cons row rows =>
    have hrest : (rows.zipIdx 2).filter (fun row => row.2 = 1) = [] := by
      rw [List.filter_eq_nil_iff]
      intro row hrow hone
      have hle := List.le_snd_of_mem_zipIdx hrow
      have heq : row.2 = 1 := by simpa using hone
      omega
    rw [List.zipIdx_cons, List.filter_cons_of_pos (by simp), hrest]
    rfl

theorem firstRows_eq (key : α → κ) (s : Sorter r) (rows : List α) :
    firstRows key s rows =
      (keys key rows).flatMap fun k => (s.sort (part key rows k)).head?.toList := by
  rw [firstRows, rowNumber, List.filter_flatMap, List.map_flatMap]
  simp only [filter_zipIdx_one]

/-- There is exactly one first row for each key. -/
theorem map_key_firstRows (key : α → κ) (s : Sorter r) (rows : List α) :
    (firstRows key s rows).map key = keys key rows := by
  rw [firstRows_eq, List.map_flatMap]
  have hone : ∀ k ∈ keys key rows,
      (s.sort (part key rows k)).head?.toList.map key = [k] := by
    intro k hk
    cases hsort : s.sort (part key rows k) with
    | nil => exact absurd (s.sort_eq_nil.mp hsort) (part_ne_nil hk)
    | cons row rest =>
      have hrow : row ∈ part key rows k := s.mem_sort.mp (hsort ▸ List.mem_cons_self)
      simp [(mem_part.mp hrow).2]
  rw [List.flatMap_congr hone]
  exact List.flatMap_singleton' _

/-- A first row is one of the rows, and all rows of its part come after it in the order. -/
theorem mem_firstRows [Std.Refl r] {s : Sorter r} {rows : List α} {first : α}
    (h : first ∈ firstRows key s rows) :
    first ∈ rows ∧ ∀ row ∈ rows, key row = key first → r first row := by
  rw [firstRows_eq] at h
  obtain ⟨k, -, hhead⟩ := List.mem_flatMap.mp h
  obtain ⟨hmem, hfirst⟩ := s.head?_sort (Option.mem_toList.mp hhead)
  obtain ⟨hrows, hkey⟩ := mem_part.mp hmem
  exact ⟨hrows, fun row hrow heq => hfirst row (mem_part.mpr ⟨hrow, heq.trans hkey⟩)⟩

def groupCount (key : α → κ) (rows : List α) : List (κ × ℕ) :=
  (keys key rows).map fun k => (k, (part key rows k).length)

theorem map_fst_groupCount (rows : List α) :
    (groupCount key rows).map Prod.fst = keys key rows := by
  rw [groupCount, List.map_map]
  exact List.map_id _

theorem find?_groupCount (rows : List α) (k : κ) :
    (groupCount key rows).find? (fun group => group.1 = k) =
      if k ∈ keys key rows then some (k, (part key rows k).length) else none := by
  cases hfind : (groupCount key rows).find? (fun group => group.1 = k) with
  | none =>
    rw [if_neg]
    intro hk
    have hmem : (k, (part key rows k).length) ∈ groupCount key rows :=
      List.mem_map.mpr ⟨k, hk, rfl⟩
    simpa using List.find?_eq_none.mp hfind _ hmem
  | some group =>
    have hgroup : group.1 = k := by simpa using List.find?_some hfind
    obtain ⟨k', hk', hpair⟩ := List.mem_map.mp (List.mem_of_find?_eq_some hfind)
    obtain rfl : k' = k := by rw [← hgroup, ← hpair]
    rw [if_pos hk', hpair]

/-- A key without rows has no group, and no rows to count. -/
theorem count_groupCount (rows : List α) (k : κ) :
    (((groupCount key rows).find? fun group => group.1 = k).map Prod.snd).getD 0 =
      rows.countP fun row => key row = k := by
  rw [find?_groupCount, List.countP_eq_length_filter]
  split
  · rfl
  · rename_i hk
    have hnone : rows.filter (fun row => key row = k) = [] := by
      rw [List.filter_eq_nil_iff]
      intro row hrow heq
      exact hk (mem_keys.mpr ⟨row, hrow, by simpa using heq⟩)
    rw [hnone]
    rfl

end Partition

section LeftJoin

variable {α : Type u} {β : Type v} {κ : Type w} [DecidableEq κ]

/-- The matches of a row on the left, or a row that is not matched. -/
def joined (row : α) : List β → List (α × Option β)
  | [] => [(row, none)]
  | matched => matched.map fun row' => (row, some row')

def leftJoin (keyLeft : α → κ) (keyRight : β → κ) (left : List α) (right : List β) :
    List (α × Option β) :=
  left.flatMap fun row => joined row (right.filter fun row' => keyRight row' = keyLeft row)

variable {keyLeft : α → κ} {keyRight : β → κ}

/-- If no two rows on the right have the same key, each row on the left appears once. -/
theorem leftJoin_eq {right : List β} (hright : (right.map keyRight).Nodup) (left : List α) :
    leftJoin keyLeft keyRight left right =
      left.map fun row => (row, right.find? fun row' => keyRight row' = keyLeft row) := by
  have hone : ∀ row, joined row (right.filter fun row' => keyRight row' = keyLeft row) =
      [(row, right.find? fun row' => keyRight row' = keyLeft row)] := by
    intro row
    rw [← List.head?_filter]
    have hsame : ∀ x ∈ right.filter (fun row' => keyRight row' = keyLeft row),
        ∀ y ∈ right.filter (fun row' => keyRight row' = keyLeft row), x = y := by
      intro x hx y hy
      simp only [List.mem_filter, decide_eq_true_eq] at hx hy
      exact List.inj_on_of_nodup_map hright hx.1 hy.1 (hx.2.trans hy.2.symm)
    have hnodup : (right.filter fun row' => keyRight row' = keyLeft row).Nodup :=
      (List.Nodup.of_map _ hright).filter _
    cases hmatches : right.filter (fun row' => keyRight row' = keyLeft row) with
    | nil => rfl
    | cons row' rest =>
      cases rest with
      | nil => rfl
      | cons row'' rest =>
        rw [hmatches] at hsame hnodup
        have heq : row' = row'' := hsame row' (by simp) row'' (by simp)
        simp [heq] at hnodup
  rw [leftJoin, List.flatMap_congr fun row _ => hone row]
  exact List.flatMap_pure_eq_map _ _

end LeftJoin

end ChatMicroservices.RelationalQueries
