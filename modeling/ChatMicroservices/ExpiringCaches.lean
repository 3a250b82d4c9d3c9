import ChatMicroservices.InsertionMaps

/-!
# Caches whose entries expire

What a program may rely on that keeps values in a cache with a time to live: a hit is a value
that was stored under the key not too long ago. A cache is free to forget an entry. The
least-recently-used cache of a given size is one of these caches.
-/

namespace ChatMicroservices.ExpiringCaches
open KeyedTables InsertionMaps

/-- A cache in which an entry is a value with the time at which it was stored. -/
structure ExpiringCache (κ ν : Type) (ttl : ℕ) where
  State : Type
  empty : State
  get : ℕ → κ → State → Option ν × State
  set : ℕ → κ → ν → State → State
  entry : State → κ → Option (ν × ℕ)
  entry_empty : ∀ k, entry empty k = none
  get_fst : ∀ now k s,
    (get now k s).1 = ((entry s k).filter fun e => now ≤ e.2 + ttl).map Prod.fst
  entry_get : ∀ {now k s k' e}, entry (get now k s).2 k' = some e → entry s k' = some e
  entry_set : ∀ {now k v s k' e}, entry (set now k v s) k' = some e →
    k' = k ∧ e = (v, now) ∨ entry s k' = some e

/-- A hit was stored under the key, at a time that is not too far away. -/
theorem ExpiringCache.entry_of_hit {κ ν : Type} {ttl now : ℕ} {cache : ExpiringCache κ ν ttl}
    {k : κ} {v : ν} {s : cache.State} (h : (cache.get now k s).1 = some v) :
    ∃ t, cache.entry s k = some (v, t) ∧ now ≤ t + ttl := by
  rw [cache.get_fst, Option.map_eq_some_iff] at h
  obtain ⟨⟨v', t⟩, hentry, rfl⟩ := h
  obtain ⟨hentry, hfresh⟩ := Option.filter_eq_some_iff.mp hentry
  exact ⟨t, hentry, of_decide_eq_true hfresh⟩

section LeastRecentlyUsed

variable {κ ν : Type} [DecidableEq κ]

/-- The entry becomes the first one, and at most `max` entries stay. -/
def touch (max : ℕ) (k : κ) (v : ν) (m : InsertionMap κ ν) : InsertionMap κ ν where
  rows := ((k, v) :: (m.delete k).rows).take max
  keys_nodup := by
    refine List.Nodup.sublist ((List.take_sublist _ _).map _) ?_
    rw [List.map_cons, List.nodup_cons]
    refine ⟨fun hmem => ?_, (m.delete k).keys_nodup⟩
    obtain ⟨entry, hentry, hkey⟩ := List.mem_map.mp hmem
    exact (InsertionMap.mem_delete.mp hentry).1 hkey

theorem length_touch_le (max : ℕ) (k : κ) (v : ν) (m : InsertionMap κ ν) :
    (touch max k v m).rows.length ≤ max :=
  List.length_take_le _ _

theorem get_touch {max : ℕ} {k k' : κ} {v v' : ν} {m : InsertionMap κ ν}
    (h : (touch max k v m).get k' = some v') : k' = k ∧ v' = v ∨ m.get k' = some v' := by
  rw [InsertionMap.get_eq_some] at h
  rcases List.mem_cons.mp (List.mem_of_mem_take h) with heq | hmem
  · exact .inl (Prod.mk.inj heq)
  · exact .inr (InsertionMap.get_eq_some.mpr (InsertionMap.mem_delete.mp hmem).2)

theorem length_delete_le {max : ℕ} {m : InsertionMap κ ν} (h : m.rows.length ≤ max) (k : κ) :
    (m.delete k).rows.length ≤ max :=
  Nat.le_trans (List.length_filter_le _ _) h

end LeastRecentlyUsed

/-- The cache keeps the `max` entries that were stored or asked for last. -/
def leastRecentlyUsed (κ ν : Type) [DecidableEq κ] (max ttl : ℕ) : ExpiringCache κ ν ttl where
  State := { m : InsertionMap κ (ν × ℕ) // m.rows.length ≤ max }
  empty := ⟨InsertionMap.empty, Nat.zero_le max⟩
  get now k m :=
    match m.1.get k with
    | none => (none, m)
    | some (v, t) =>
      if now ≤ t + ttl then (some v, ⟨touch max k (v, t) m.1, length_touch_le max k _ _⟩)
      else (none, ⟨m.1.delete k, length_delete_le m.2 k⟩)
  set now k v m := ⟨touch max k (v, now) m.1, length_touch_le max k _ _⟩
  entry m k := m.1.get k
  entry_empty := InsertionMap.get_empty
  get_fst := by
    intro now k m
    cases hget : m.1.get k with
    | none => rfl
    | some e =>
      obtain ⟨v, t⟩ := e
      by_cases hfresh : now ≤ t + ttl <;> simp [hfresh, Option.filter]
  entry_get := by
    intro now k m k' e h
    cases hget : m.1.get k with
    | none =>
      rw [hget] at h
      exact h
    | some stored =>
      obtain ⟨v, t⟩ := stored
      rw [hget] at h
      by_cases hfresh : now ≤ t + ttl
      · simp only [if_pos hfresh] at h
        rcases get_touch h with ⟨rfl, rfl⟩ | hold
        · exact hget
        · exact hold
      · simp only [if_neg hfresh, InsertionMap.get_delete] at h
        split at h
        · cases h
        · exact h
  entry_set := fun h => get_touch h

end ChatMicroservices.ExpiringCaches
