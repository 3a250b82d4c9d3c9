import ChatMicroservices.PrekeyController
import Mathlib.Data.List.Rotate

/-!
# The pools of a user's devices

The pools in the order in which `getPrekeyBundle` lists the rows, what one consumption does
to them, and which writes leave them alone. Only rows that still have a prekey matter: the
selection and the remaining prekeys do not depend on the others.
-/

namespace ChatMicroservices.PrekeyPools
open JavaScriptValues JsonColumns KeyedTables OrderedPools PrekeyBundles PrekeyDatabase
open PrekeyController

/-- The pool of a row, labelled with the device. -/
def pool (r : Prekey) : JsString × List Json := (r.deviceId, poolOf r.bundle)

def pools (userId : JsString) (rows : List Prekey) : List (JsString × List Json) :=
  (listing userId rows).map pool

/-- The one-time prekeys that are left, each with its device, in listing order. -/
def remaining (userId : JsString) (rows : List Prekey) : List (JsString × Json) :=
  labelled (pools userId rows)

/-- The rows of the user that still have a prekey. -/
def stocked (userId : JsString) (rows : List Prekey) : List Prekey :=
  rows.filter fun r => r.userId = userId ∧ Stocked r = true

instance : IsTrans Prekey fun a b => b.createdAt ≤ a.createdAt :=
  ⟨fun _ _ _ h h' => le_trans h' h⟩

instance : Std.Total fun a b : Prekey => b.createdAt ≤ a.createdAt :=
  ⟨fun a b => le_total b.createdAt a.createdAt⟩

theorem mem_listing {userId : JsString} {rows : List Prekey} {r : Prekey} :
    r ∈ listing userId rows ↔ r ∈ rows ∧ r.userId = userId := by
  simp [listing, List.mem_insertionSort]

theorem mem_stocked {userId : JsString} {rows : List Prekey} {r : Prekey} :
    r ∈ stocked userId rows ↔ r ∈ rows ∧ r.userId = userId ∧ Stocked r = true := by
  simp [stocked]

theorem listing_ids_nodup {t : Table} (userId : JsString) :
    ((listing userId t.rows).map Prekey.id).Nodup := by
  have hperm := (List.perm_insertionSort (fun a b : Prekey => b.createdAt ≤ a.createdAt)
    (t.rows.filter fun r => r.userId = userId)).map Prekey.id
  refine hperm.nodup_iff.mpr (List.Nodup.sublist ?_ t.keys_nodup)
  exact List.filter_sublist.map Prekey.id

theorem filter_listing (userId : JsString) (rows : List Prekey) :
    (listing userId rows).filter Stocked =
      (stocked userId rows).insertionSort fun a b => b.createdAt ≤ a.createdAt := by
  rw [listing, filter_insertionSort, List.filter_filter]
  refine congrArg _ (List.filter_congr fun r _ => ?_)
  rw [Bool.and_comm, Bool.decide_and, Bool.decide_eq_true]

theorem remaining_eq_filter (userId : JsString) (rows : List Prekey) :
    remaining userId rows = labelled (((listing userId rows).filter Stocked).map pool) := by
  unfold remaining pools
  induction listing userId rows with
  | nil => rfl
  | cons r rest ih =>
    by_cases hr : Stocked r = true
    · rw [List.filter_cons_of_pos hr, List.map_cons, List.map_cons, labelled_cons,
        labelled_cons, ih]
    · have hnil : labels (pool r) = [] := by
        simpa [Stocked, pool] using hr
      rw [List.filter_cons_of_neg hr, List.map_cons, labelled_cons, hnil, List.nil_append, ih]

theorem remaining_congr {userId : JsString} {rows rows' : List Prekey}
    (h : stocked userId rows' = stocked userId rows) :
    remaining userId rows' = remaining userId rows := by
  rw [remaining_eq_filter, remaining_eq_filter, filter_listing, filter_listing, h]

/-- The row that the next request takes a prekey from. -/
def nextRow (userId : JsString) (rows : List Prekey) : Option Prekey :=
  (listing userId rows).find? Stocked

theorem nextRow_congr {userId : JsString} {rows rows' : List Prekey}
    (h : stocked userId rows' = stocked userId rows) :
    nextRow userId rows' = nextRow userId rows := by
  rw [nextRow, nextRow, ← List.head?_filter, ← List.head?_filter, filter_listing,
    filter_listing, h]

theorem nextRow_mem {userId : JsString} {rows : List Prekey} {c : Prekey}
    (h : nextRow userId rows = some c) : c ∈ stocked userId rows := by
  obtain ⟨hr, hu⟩ := mem_listing.mp (List.mem_of_find?_eq_some h)
  exact mem_stocked.mpr ⟨hr, hu, List.find?_some h⟩

theorem nextRow_eq_none {userId : JsString} {rows : List Prekey} :
    nextRow userId rows = none ↔ remaining userId rows = [] := by
  rw [nextRow, remaining, labelled_eq_nil, List.find?_eq_none]
  simp [pools, pool, Stocked]

theorem select_mem {c : Conditions} {userId : JsString} {deviceId : Value}
    {rows : List Prekey} {r : Prekey} (h : c.select userId deviceId rows = some r) :
    r ∈ rows ∧ r.userId = userId := by
  have hr := ((List.rotate_perm _ c.pick).mem_iff).mp (List.mem_of_head? h)
  rw [List.mem_filter, decide_eq_true_iff] at hr
  exact ⟨hr.1, hr.2.1⟩

theorem update_rows (id : JsString) (changes : PrekeyChanges) (now : ℕ) (t : Table) :
    ((Write.update id changes now).apply t).rows =
      t.rows.map fun r => if r.id = id then changes.apply now r else r := by
  simp [Write.apply, KeyedTable.update]

/-- A change of bundles and times keeps the order of the listing. -/
theorem listing_map {f : Prekey → Prekey} (huser : ∀ r, (f r).userId = r.userId)
    (htime : ∀ r, (f r).createdAt = r.createdAt) (userId : JsString) (rows : List Prekey) :
    listing userId (rows.map f) = (listing userId rows).map f := by
  have hfilter : (rows.map f).filter (fun r => r.userId = userId) =
      (rows.filter fun r => r.userId = userId).map f := by
    rw [List.filter_map]
    refine congrArg _ (List.filter_congr fun r _ => ?_)
    simp [huser]
  rw [listing, listing, hfilter]
  exact (List.map_insertionSort _ _ f _ fun a _ b _ => by rw [htime, htime]).symm

theorem listing_update (userId id : JsString) (changes : PrekeyChanges) (now : ℕ) (t : Table) :
    listing userId ((Write.update id changes now).apply t).rows =
      (listing userId t.rows).map fun r => if r.id = id then changes.apply now r else r := by
  rw [update_rows]
  refine listing_map (fun r => ?_) (fun r => ?_) userId t.rows
  · split <;> rfl
  · split <;> rfl

/-- An update that leaves the pool of its row alone leaves all pools alone. -/
theorem pools_update_of_same {userId id : JsString} {changes : PrekeyChanges} {now : ℕ}
    {t : Table} (h : ∀ r ∈ t.rows, r.id = id →
      poolOf ((changes.bundle.map stored).getD r.bundle) = poolOf r.bundle) :
    pools userId ((Write.update id changes now).apply t).rows = pools userId t.rows := by
  rw [pools, pools, listing_update, List.map_map]
  refine List.map_congr_left fun r hr => ?_
  by_cases hid : r.id = id
  · simp [pool, hid, h r (mem_listing.mp hr).1 hid]
  · simp [hid]

/-- The update of `getPrekeyBundle` draws the next prekey. -/
theorem pools_consume {userId : JsString} {t : Table} {c : Prekey} {k : Json} {ks : List Json}
    {b : Json} (changes : PrekeyChanges) (now : ℕ) (hc : nextRow userId t.rows = some c)
    (hpool : poolOf c.bundle = k :: ks) (hchanges : changes.bundle = some b)
    (hb : poolOf (stored b) = ks) :
    pools userId ((Write.update c.id changes now).apply t).rows = draw (pools userId t.rows) ∧
      remaining userId t.rows = (c.deviceId, k) ::
        remaining userId ((Write.update c.id changes now).apply t).rows := by
  obtain ⟨-, before, after, hlist, hbefore⟩ := List.find?_eq_some_iff_append.mp hc
  have hempty : labelled (before.map pool) = [] := by
    rw [labelled_eq_nil]
    intro p hp
    obtain ⟨r, hr, rfl⟩ := List.mem_map.mp hp
    simpa [Stocked, pool] using hbefore r hr
  have hids := listing_ids_nodup (t := t) userId
  rw [hlist, List.map_append, List.map_cons, List.nodup_middle, List.nodup_cons,
    List.mem_append] at hids
  have hother : ∀ r ∈ before ++ after, r.id ≠ c.id := by
    intro r hr heq
    refine hids.1 ?_
    rw [← heq]
    rcases List.mem_append.mp hr with hr | hr
    · exact .inl (List.mem_map_of_mem hr)
    · exact .inr (List.mem_map_of_mem hr)
  have hmap : ∀ rows : List Prekey, (∀ r ∈ rows, r.id ≠ c.id) →
      (rows.map fun r => if r.id = c.id then changes.apply now r else r) = rows := by
    intro rows hrows
    refine (List.map_congr_left fun r hr => ?_).trans (List.map_id rows)
    exact if_neg (hrows r hr)
  have hold : pools userId t.rows = before.map pool ++ (c.deviceId, k :: ks) :: after.map pool := by
    rw [pools, hlist, List.map_append, List.map_cons, pool, hpool]
  have hnew : pools userId ((Write.update c.id changes now).apply t).rows =
      before.map pool ++ (c.deviceId, ks) :: after.map pool := by
    rw [pools, listing_update, hlist, List.map_append, List.map_cons,
      hmap before fun r hr => hother r (List.mem_append_left _ hr),
      hmap after fun r hr => hother r (List.mem_append_right _ hr), if_pos rfl,
      List.map_append, List.map_cons]
    simp [pool, hchanges, hb]
  refine ⟨?_, ?_⟩
  · rw [hnew, hold, draw_append hempty]
  · rw [remaining, remaining, hold, hnew, labelled_append, labelled_append, hempty]
    rfl

theorem stocked_append_empty {userId : JsString} {r : Prekey} (h : poolOf r.bundle = [])
    (rows : List Prekey) : stocked userId (rows ++ [r]) = stocked userId rows := by
  simp [stocked, Stocked, h]

/-- An update of a row without a prekey that gives it none. -/
theorem stocked_update_of_empty {userId id : JsString} {changes : PrekeyChanges} {now : ℕ}
    {t : Table} (h : ∀ r ∈ t.rows, r.id = id → r.userId = userId → poolOf r.bundle = [] ∧
      poolOf ((changes.bundle.map stored).getD r.bundle) = []) :
    stocked userId ((Write.update id changes now).apply t).rows = stocked userId t.rows := by
  rw [update_rows]
  generalize t.rows = rows at h
  induction rows with
  | nil => rfl
  | cons r rest ih =>
    have hrest := ih fun r' hr' => h r' (List.mem_cons_of_mem r hr')
    unfold stocked at hrest ⊢
    rw [List.map_cons, List.filter_cons, List.filter_cons, hrest]
    by_cases hid : r.id = id
    · by_cases hu : r.userId = userId
      · obtain ⟨hold, hnew⟩ := h r List.mem_cons_self hid hu
        simp [hid, Stocked, hold, hnew]
      · simp [hid, hu]
    · simp [hid]

end ChatMicroservices.PrekeyPools
