import ChatMicroservices.KeyedTables
import Mathlib.Data.List.Induction

/-!
# Maps in insertion order

A map with the interface of a JavaScript `Map`: an entry keeps its place when its value is
set again, and a new key goes to the end.
-/

namespace ChatMicroservices.InsertionMaps
open KeyedTables

abbrev InsertionMap (κ ν : Type) : Type := KeyedTable (Prod.fst : κ × ν → κ)

namespace InsertionMap

variable {κ ν : Type} [DecidableEq κ]

omit [DecidableEq κ] in
def empty : InsertionMap κ ν := KeyedTable.empty

def get (m : InsertionMap κ ν) (k : κ) : Option ν := (m.find k).map Prod.snd

def has (m : InsertionMap κ ν) (k : κ) : Bool := (m.get k).isSome

def set (m : InsertionMap κ ν) (k : κ) (v : ν) : InsertionMap κ ν :=
  match m.insert (k, v) with
  | some m' => m'
  | none => m.update (fun entry => entry.1 = k) (fun entry => (entry.1, v)) fun _ => rfl

def delete (m : InsertionMap κ ν) (k : κ) : InsertionMap κ ν where
  rows := m.rows.filter fun entry => entry.1 ≠ k
  keys_nodup := m.keys_nodup.sublist (List.filter_sublist.map _)

/-- Set the entries of a list one after the other. -/
def setAll (m : InsertionMap κ ν) (entries : List (κ × ν)) : InsertionMap κ ν :=
  entries.foldl (fun m entry => m.set entry.1 entry.2) m

omit [DecidableEq κ] in
/-- Change the values, each under its key. -/
def mapValues (m : InsertionMap κ ν) (f : κ → ν → ν) : InsertionMap κ ν where
  rows := m.rows.map fun entry => (entry.1, f entry.1 entry.2)
  keys_nodup := by
    rw [List.map_map]
    exact m.keys_nodup

omit [DecidableEq κ] in
theorem eq_of_rows_eq {m m' : InsertionMap κ ν} (h : m.rows = m'.rows) : m = m' := by
  cases m
  cases m'
  congr

theorem get_eq_some {m : InsertionMap κ ν} {k : κ} {v : ν} :
    m.get k = some v ↔ (k, v) ∈ m.rows := by
  rw [get, Option.map_eq_some_iff]
  constructor
  · rintro ⟨⟨k', v'⟩, h, rfl⟩
    obtain ⟨hmem, rfl⟩ := KeyedTable.find_eq_some.mp h
    exact hmem
  · intro h
    exact ⟨(k, v), KeyedTable.find_eq_some.mpr ⟨h, rfl⟩, rfl⟩

@[simp] theorem get_empty (k : κ) : (empty : InsertionMap κ ν).get k = none := rfl

theorem mem_set {m : InsertionMap κ ν} {k k' : κ} {v v' : ν} :
    (k', v') ∈ (m.set k v).rows ↔ (k' = k ∧ v' = v) ∨ (k' ≠ k ∧ (k', v') ∈ m.rows) := by
  unfold set
  split
  · rename_i m' h
    obtain ⟨hrows, hfresh⟩ := KeyedTable.insert_eq_some h
    rw [hrows, List.mem_append, List.mem_singleton, Prod.mk.injEq]
    constructor
    · rintro (hmem | heq)
      · exact .inr ⟨hfresh _ hmem, hmem⟩
      · exact .inl heq
    · rintro (heq | ⟨-, hmem⟩)
      · exact .inr heq
      · exact .inl hmem
  · rename_i h
    have hk : k ∈ m.rows.map Prod.fst := by
      by_contra hk
      simp [KeyedTable.insert, hk] at h
    obtain ⟨old, hold, hkey⟩ := List.mem_map.mp hk
    rw [KeyedTable.mem_update]
    constructor
    · rintro ⟨⟨k₀, v₀⟩, hmem, heq⟩
      by_cases hk₀ : k₀ = k
      · rw [if_pos (by simpa using hk₀)] at heq
        exact .inl ⟨(congrArg Prod.fst heq).symm.trans hk₀, (congrArg Prod.snd heq).symm⟩
      · rw [if_neg (by simpa using hk₀)] at heq
        obtain ⟨rfl, rfl⟩ := Prod.mk.inj heq
        exact .inr ⟨hk₀, hmem⟩
    · rintro (⟨rfl, rfl⟩ | ⟨hne, hmem⟩)
      · exact ⟨old, hold, by simp [hkey]⟩
      · exact ⟨_, hmem, by simp [hne]⟩

theorem mem_delete {m : InsertionMap κ ν} {k : κ} {entry : κ × ν} :
    entry ∈ (m.delete k).rows ↔ entry.1 ≠ k ∧ entry ∈ m.rows := by
  simp [delete, and_comm]

@[simp] theorem get_set (m : InsertionMap κ ν) (k k' : κ) (v : ν) :
    (m.set k v).get k' = if k' = k then some v else m.get k' := by
  refine Option.ext fun v' => ?_
  rw [get_eq_some, mem_set]
  split
  · rename_i hk
    simp [hk, eq_comm]
  · rename_i hk
    simp [hk, get_eq_some]

@[simp] theorem get_delete (m : InsertionMap κ ν) (k k' : κ) :
    (m.delete k).get k' = if k' = k then none else m.get k' := by
  refine Option.ext fun v' => ?_
  rw [get_eq_some, mem_delete]
  split
  · rename_i hk
    simp [hk]
  · rename_i hk
    simp [hk, get_eq_some]

omit [DecidableEq κ] in
theorem mapValues_eq_self {m : InsertionMap κ ν} {f : κ → ν → ν} (h : ∀ k v, f k v = v) :
    m.mapValues f = m := by
  refine eq_of_rows_eq ?_
  simp [mapValues, h]

@[simp] theorem get_mapValues (m : InsertionMap κ ν) (f : κ → ν → ν) (k : κ) :
    (m.mapValues f).get k = (m.get k).map (f k) := by
  refine Option.ext fun v' => ?_
  rw [get_eq_some, Option.map_eq_some_iff, mapValues, List.mem_map]
  constructor
  · rintro ⟨⟨k', v⟩, hmem, heq⟩
    obtain ⟨rfl, rfl⟩ := Prod.mk.inj heq
    exact ⟨v, get_eq_some.mpr hmem, rfl⟩
  · rintro ⟨v, hget, rfl⟩
    exact ⟨(k, v), get_eq_some.mp hget, rfl⟩

/-- A key that is deleted takes one row with it. -/
theorem length_rows_delete {m : InsertionMap κ ν} {k : κ} (h : m.has k = true) :
    (m.delete k).rows.length + 1 = m.rows.length := by
  obtain ⟨v, hget⟩ := Option.isSome_iff_exists.mp h
  have hmem : k ∈ m.rows.map Prod.fst := List.mem_map_of_mem (get_eq_some.mp hget)
  have hkeys : (m.delete k).rows.map Prod.fst = (m.rows.map Prod.fst).erase k := by
    rw [m.keys_nodup.erase_eq_filter, List.filter_map, delete]
    refine congrArg _ (List.filter_congr fun entry _ => ?_)
    simp [bne, beq_eq_decide]
  have hlength := List.length_erase_add_one hmem
  rwa [← hkeys, List.length_map, List.length_map] at hlength

theorem not_mem_keys {m : InsertionMap κ ν} {k : κ} (h : m.has k = false) :
    k ∉ m.rows.map Prod.fst := by
  intro hmem
  obtain ⟨entry, hentry, rfl⟩ := List.mem_map.mp hmem
  have hget : m.get entry.1 = some entry.2 := get_eq_some.mpr hentry
  rw [has, hget] at h
  cases h

/-- Of the entries that are set the last one with a key counts. -/
theorem get_setAll (m : InsertionMap κ ν) (entries : List (κ × ν)) (k : κ) :
    (m.setAll entries).get k = ((empty.setAll entries).get k).or (m.get k) := by
  induction entries using List.reverseRecOn with
  | nil => rfl
  | append_singleton entries entry ih =>
    simp only [setAll, List.foldl_append, List.foldl_cons, List.foldl_nil, get_set] at ih ⊢
    split
    · rfl
    · exact ih

theorem mem_of_get_setAll {entries : List (κ × ν)} {k : κ} {v : ν}
    (h : (empty.setAll entries).get k = some v) : (k, v) ∈ entries := by
  induction entries using List.reverseRecOn with
  | nil => cases h
  | append_singleton entries entry ih =>
    simp only [setAll, List.foldl_append, List.foldl_cons, List.foldl_nil, get_set] at h
    split at h
    · rename_i hk
      obtain rfl := Option.some.inj h
      simp [hk]
    · exact List.mem_append_left _ (ih h)

theorem set_rows_of_fresh {m : InsertionMap κ ν} {k : κ} {v : ν} (h : k ∉ m.rows.map Prod.fst) :
    (m.set k v).rows = m.rows ++ [(k, v)] := by
  simp [set, KeyedTable.insert, h]

/-- Entries with new keys end up behind the old ones, in their own order. -/
theorem setAll_rows {m : InsertionMap κ ν} {entries : List (κ × ν)}
    (h : ((m.rows ++ entries).map Prod.fst).Nodup) :
    (m.setAll entries).rows = m.rows ++ entries := by
  induction entries generalizing m with
  | nil => simp [setAll]
  | cons entry entries ih =>
    have hfresh : entry.1 ∉ m.rows.map Prod.fst := by
      intro hmem
      rw [List.map_append, List.nodup_append] at h
      exact h.2.2 _ hmem entry.1 (by simp) rfl
    have hrows : (m.set entry.1 entry.2).rows = m.rows ++ [entry] := set_rows_of_fresh hfresh
    have hstep := ih (m := m.set entry.1 entry.2) (by simpa [hrows] using h)
    rw [setAll, List.foldl_cons]
    rw [setAll] at hstep
    rw [hstep, hrows, List.append_assoc, List.singleton_append]

end InsertionMap

end ChatMicroservices.InsertionMaps
