import ChatMicroservices.JavaScriptValues
import Mathlib.Data.List.Nodup

/-!
# The table of users

The primary key and the two unique columns of `users`. An `INSERT` that would repeat a value
in one of them is rejected and has no effect.
-/

namespace ChatMicroservices.UsersTable
open JavaScriptValues

structure User where
  id : JsString
  username : JsString
  email : JsString
  password : JsString
  createdAt : ℕ
  updatedAt : ℕ
  deriving DecidableEq

structure Table where
  rows : List User
  ids_nodup : (rows.map User.id).Nodup
  usernames_nodup : (rows.map User.username).Nodup
  emails_nodup : (rows.map User.email).Nodup

namespace Table

def empty : Table := ⟨[], List.nodup_nil, List.nodup_nil, List.nodup_nil⟩

/-- The row repeats no value of a unique column. -/
def Admits (t : Table) (row : User) : Prop :=
  row.id ∉ t.rows.map User.id ∧ row.username ∉ t.rows.map User.username ∧
    row.email ∉ t.rows.map User.email

instance (t : Table) (row : User) : Decidable (t.Admits row) :=
  inferInstanceAs (Decidable (_ ∧ _ ∧ _))

theorem nodup_concat {α β : Type} {f : α → β} {xs : List α} (h : (xs.map f).Nodup) {x : α}
    (hx : f x ∉ xs.map f) : ((xs ++ [x]).map f).Nodup := by
  rw [List.map_append, List.map_singleton, List.nodup_append]
  refine ⟨h, List.nodup_singleton _, ?_⟩
  rintro a ha b hb rfl
  obtain rfl := List.mem_singleton.mp hb
  exact hx ha

def insert (t : Table) (row : User) : Option Table :=
  if h : t.Admits row then
    some {
      rows := t.rows ++ [row]
      ids_nodup := nodup_concat t.ids_nodup h.1
      usernames_nodup := nodup_concat t.usernames_nodup h.2.1
      emails_nodup := nodup_concat t.emails_nodup h.2.2 }
  else none

theorem insert_eq_some {t t' : Table} {row : User} (h : t.insert row = some t') :
    t'.rows = t.rows ++ [row] := by
  unfold insert at h
  split at h
  · obtain rfl := Option.some.inj h
    rfl
  · cases h

/-- Two rows share neither a username nor an e-mail address. -/
theorem pairwise_distinct (t : Table) :
    t.rows.Pairwise fun u v => u.username ≠ v.username ∧ u.email ≠ v.email := by
  have husernames : t.rows.Pairwise fun u v => u.username ≠ v.username :=
    List.pairwise_map.mp t.usernames_nodup
  have hemails : t.rows.Pairwise fun u v => u.email ≠ v.email :=
    List.pairwise_map.mp t.emails_nodup
  exact husernames.and hemails

end Table

end ChatMicroservices.UsersTable
