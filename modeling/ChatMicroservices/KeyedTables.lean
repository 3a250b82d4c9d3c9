import Mathlib.Data.List.Nodup

/-!
# Tables with a primary key and locks on their rows

Rows in the order of their insertion, no two with the same key. Insertion is rejected when
the key is taken; an update may change any row but not its key. A lock on a row has at most
one holder, so locks are a partial function from keys to holders.
-/

namespace ChatMicroservices.KeyedTables

structure KeyedTable {ρ κ : Type} (key : ρ → κ) where
  rows : List ρ
  keys_nodup : (rows.map key).Nodup

namespace KeyedTable

variable {ρ κ : Type} [DecidableEq κ] {key : ρ → κ}

def empty : KeyedTable key := ⟨[], List.nodup_nil⟩

def find (t : KeyedTable key) (k : κ) : Option ρ := t.rows.find? fun r => key r = k

omit [DecidableEq κ] in
theorem eq_of_key_eq (t : KeyedTable key) {r r' : ρ} (h : r ∈ t.rows) (h' : r' ∈ t.rows)
    (hk : key r = key r') : r = r' :=
  List.inj_on_of_nodup_map t.keys_nodup h h' hk

theorem find_eq_some {t : KeyedTable key} {k : κ} {r : ρ} :
    t.find k = some r ↔ r ∈ t.rows ∧ key r = k := by
  constructor
  · intro h
    exact ⟨List.mem_of_find?_eq_some h, by simpa using List.find?_some h⟩
  · rintro ⟨hr, rfl⟩
    cases hf : t.find (key r) with
    | none => simpa using List.find?_eq_none.mp hf r hr
    | some r' =>
      have hk : key r' = key r := by simpa using List.find?_some hf
      rw [t.eq_of_key_eq (List.mem_of_find?_eq_some hf) hr hk]

theorem find_eq_none {t : KeyedTable key} {k : κ} :
    t.find k = none ↔ ∀ r ∈ t.rows, key r ≠ k := by
  simp [find, List.find?_eq_none]

def insert (t : KeyedTable key) (r : ρ) : Option (KeyedTable key) :=
  if h : key r ∈ t.rows.map key then none
  else some ⟨t.rows ++ [r], by
    rw [List.map_append, List.nodup_append]
    refine ⟨t.keys_nodup, List.nodup_singleton _, ?_⟩
    intro a ha b hb hab
    rw [List.map_singleton, List.mem_singleton] at hb
    exact h (hb ▸ hab ▸ ha)⟩

theorem insert_eq_some {t t' : KeyedTable key} {r : ρ} (h : t.insert r = some t') :
    t'.rows = t.rows ++ [r] ∧ ∀ r' ∈ t.rows, key r' ≠ key r := by
  unfold insert at h
  split at h
  · cases h
  · rename_i hk
    obtain rfl := Option.some.inj h
    refine ⟨rfl, fun r' hr' heq => hk ?_⟩
    exact heq ▸ List.mem_map_of_mem hr'

theorem insert_of_free {t : KeyedTable key} {r : ρ} (h : ∀ r' ∈ t.rows, key r' ≠ key r) :
    ∃ t', t.insert r = some t' := by
  have hfree : key r ∉ t.rows.map key := by
    intro hmem
    obtain ⟨r', hr', hkey⟩ := List.mem_map.mp hmem
    exact h r' hr' hkey
  rw [insert, dif_neg hfree]
  exact ⟨_, rfl⟩

/-- Replace the rows that satisfy `p`, keeping their keys. -/
def update (t : KeyedTable key) (p : ρ → Bool) (f : ρ → ρ) (hf : ∀ r, key (f r) = key r) :
    KeyedTable key where
  rows := t.rows.map fun r => if p r then f r else r
  keys_nodup := by
    have hkeys : (t.rows.map fun r => if p r then f r else r).map key = t.rows.map key := by
      rw [List.map_map]
      refine List.map_congr_left fun r _ => ?_
      by_cases hp : p r <;> simp [hp, hf]
    exact hkeys ▸ t.keys_nodup

omit [DecidableEq κ] in
theorem mem_update {t : KeyedTable key} {p : ρ → Bool} {f : ρ → ρ}
    {hf : ∀ r, key (f r) = key r} {r' : ρ} :
    r' ∈ (t.update p f hf).rows ↔ ∃ r ∈ t.rows, (if p r then f r else r) = r' :=
  List.mem_map

omit [DecidableEq κ] in
/-- An update makes no new keys. -/
theorem key_of_mem_update {t : KeyedTable key} {p : ρ → Bool} {f : ρ → ρ}
    (hf : ∀ r, key (f r) = key r) {r : ρ} (h : r ∈ (t.update p f hf).rows) :
    ∃ r' ∈ t.rows, key r' = key r := by
  obtain ⟨r', hr', rfl⟩ := mem_update.mp h
  refine ⟨r', hr', ?_⟩
  split
  · exact (hf r').symm
  · rfl

/-- The rows that satisfy `p`. -/
def filter (t : KeyedTable key) (p : ρ → Bool) : KeyedTable key where
  rows := t.rows.filter p
  keys_nodup := t.keys_nodup.sublist (List.filter_sublist.map key)

omit [DecidableEq κ] in
theorem eq_of_rows {t t' : KeyedTable key} (h : t.rows = t'.rows) : t = t' := by
  cases t
  cases t'
  cases h
  rfl

end KeyedTable

/-- The new value of a column, if it has to be written at all. -/
def differing {α : Type} [DecidableEq α] (entity stored : α) : Option α :=
  if entity = stored then none else some entity

@[simp] theorem differing_self {α : Type} [DecidableEq α] (a : α) : differing a a = none := by
  simp [differing]

theorem differing_eq_none {α : Type} [DecidableEq α] {a b : α} :
    differing a b = none ↔ a = b := by
  simp [differing]

theorem eq_of_differing {α : Type} [DecidableEq α] {a b c : α} (h : differing a b = some c) :
    c = a := by
  unfold differing at h
  split at h
  · cases h
  · exact (Option.some.inj h).symm

@[simp] theorem differing_getD {α : Type} [DecidableEq α] (a b : α) :
    (differing a b).getD b = a := by
  cases h : differing a b with
  | none => exact (differing_eq_none.mp h).symm
  | some c => exact eq_of_differing h

theorem differing_of_ne {α : Type} [DecidableEq α] {a b : α} (h : a ≠ b) :
    differing a b = some a := if_neg h

/-- Who holds the lock on the row of each key. -/
abbrev Locks (κ ι : Type) : Type := κ → Option ι

namespace Locks

variable {κ ι : Type} [DecidableEq κ] [DecidableEq ι]

/-- No one but `i` holds the lock. -/
def Available (locks : Locks κ ι) (i : ι) (k : κ) : Prop := locks k = none ∨ locks k = some i

instance (locks : Locks κ ι) (i : ι) (k : κ) : Decidable (locks.Available i k) :=
  inferInstanceAs (Decidable (_ ∨ _))

def acquire (locks : Locks κ ι) (i : ι) (ks : List κ) : Locks κ ι :=
  fun k => if k ∈ ks then some i else locks k

omit [DecidableEq κ] in
def releaseAll (locks : Locks κ ι) (i : ι) : Locks κ ι :=
  fun k => if locks k = some i then none else locks k

omit [DecidableEq ι] in
theorem acquire_of_mem {locks : Locks κ ι} {i : ι} {ks : List κ} {k : κ} (h : k ∈ ks) :
    locks.acquire i ks k = some i := if_pos h

omit [DecidableEq ι] in
/-- Taking locks that are available takes none from another holder. -/
theorem acquire_other {locks : Locks κ ι} {i j : ι} (hj : j ≠ i) {ks : List κ}
    (h : ∀ k ∈ ks, locks.Available i k) (k : κ) :
    locks.acquire i ks k = some j ↔ locks k = some j := by
  unfold acquire
  split
  · rename_i hk
    rcases h k hk with hn | hi
    · simp [hn, hj.symm]
    · simp [hi]
  · rfl

omit [DecidableEq κ] in
theorem releaseAll_other {locks : Locks κ ι} {i j : ι} (hj : j ≠ i) (k : κ) :
    locks.releaseAll i k = some j ↔ locks k = some j := by
  unfold releaseAll
  split
  · rename_i hi
    simp [hi, hj.symm]
  · rfl

omit [DecidableEq κ] [DecidableEq ι] in
/-- Two holders never share a row. -/
theorem holder_unique {locks : Locks κ ι} {i j : ι} {k : κ} (hi : locks k = some i)
    (hj : locks.Available j k) : i = j := by
  rcases hj with hn | hj
  · rw [hn] at hi
    cases hi
  · exact Option.some.inj (hi.symm.trans hj)

end Locks

end ChatMicroservices.KeyedTables
