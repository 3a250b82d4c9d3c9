import ChatMicroservices.LeadingElements
import ChatMicroservices.PrekeyRequests

/-!
# Two upserts of one device

`publishPrekey` and `storeSignalKeys` find the row of a device and save it, with no lock in
between, or add a row if they find none. Each is responsible for its own properties of the
bundle. If every write retains the properties of the other request, and an added row of the
backup is later than one of the publication, what one has stored survives the other.
-/

namespace ChatMicroservices.PrekeyUpserts
open JavaScriptValues JavaScriptOperators JsonColumns ConcurrentPrograms KeyedTables
open LeadingElements PrekeyBundles PrekeyDatabase PrekeyPools PrekeyDevices PrekeyRequests

inductive Party where
  | publisher
  | backup
  deriving DecidableEq

namespace Party

def other : Party → Party
  | publisher => backup
  | backup => publisher

/-- The properties of a bundle that a request is responsible for. -/
def keys : Party → List String
  | publisher => ["identityKey", "signedPreKey", "preKeys"]
  | backup => ["_encryptedKeyBundle"]

theorem eq_other {i j : Party} (h : j ≠ i) : j = i.other := by
  cases i with
  | publisher =>
    cases j with
    | publisher => exact absurd rfl h
    | backup => rfl
  | backup =>
    cases j with
    | publisher => rfl
    | backup => exact absurd rfl h

end Party

/-- Two bundles have the same values for these properties. -/
def Retains (keys : List String) (old new : Json) : Prop :=
  ∀ key ∈ keys, lookup (js key) (spread new) = lookup (js key) (spread old)

instance (keys : List String) (old new : Json) : Decidable (Retains keys old new) :=
  inferInstanceAs (Decidable (∀ key ∈ keys, _ = _))

/-- A column can hold these properties of the bundle. -/
def StorableAt (keys : List String) (b : Json) : Prop :=
  ∀ key ∈ keys, ∀ v ∈ lookup (js key) (spread b), Storable v

instance (keys : List String) (b : Json) : Decidable (StorableAt keys b) :=
  inferInstanceAs (Decidable (∀ key ∈ keys, ∀ v ∈ lookup (js key) (spread b), Storable v))

theorem Retains.stored {keys : List String} {old new : Json} (h : Retains keys old new)
    (hold : StorableAt keys old) : Retains keys old (stored new) := by
  intro key hkey
  rw [lookup_spread_stored, h key hkey]
  cases hl : lookup (js key) (spread old) with
  | none => rfl
  | some v =>
    have hv : JsonColumns.stored v = v := hold key hkey v hl
    rw [Option.map_some, hv]

/-- The rows of a user and a device. -/
def rowsOf (u d : JsString) (t : Table) : List Prekey :=
  t.rows.filter fun r => r.userId = u ∧ r.deviceId = d

/-- An `UPDATE` meets a row with the other request's properties of the bundle that it writes.
An `INSERT` that meets a row of the device adds the publication before it and the backup
after it. -/
def Compatible (u d : JsString) : Party → Conditions → Op → Database Party → Prop
  | i, _, .update _ id changes, s => ∀ r ∈ s.prekeys.rows, r.id = id →
    Retains i.other.keys r.bundle ((changes.bundle.map stored).getD r.bundle)
  | .publisher, c, .insert _ _ _, s => ∀ r ∈ rowsOf u d s.prekeys, c.now < r.createdAt
  | .backup, c, .insert _ _ _, s => ∀ r ∈ rowsOf u d s.prekeys, r.createdAt < c.now
  | _, _, _, _ => True

instance (u d : JsString) (i : Party) (c : Conditions) (op : Op) (s : Database Party) :
    Decidable (Compatible u d i c op s) := by
  unfold Compatible
  split <;> infer_instance

/-- A parameter is always compared with a text column as the same text. -/
def reading (asText : Value → Option JsString) :
    Semantics Party Conditions (Database Party) Ans := fun i c op s =>
  exec i { c with asText := asText } op s

theorem mem_rowsOf {u d : JsString} {t : Table} {r : Prekey} :
    r ∈ rowsOf u d t ↔ r ∈ t.rows ∧ r.userId = u ∧ r.deviceId = d := by
  simp [rowsOf]

theorem rowsOf_update (u d : JsString) (id : JsString) (changes : PrekeyChanges) (now : ℕ)
    (t : Table) : rowsOf u d ((Write.update id changes now).apply t) =
      (rowsOf u d t).map fun r => if r.id = id then changes.apply now r else r := by
  rw [rowsOf, update_rows, List.filter_map]
  refine congrArg _ (List.filter_congr fun r _ => ?_)
  by_cases hid : r.id = id
  · simp [hid]
  · simp [hid]

theorem rowsOf_insert {u d : JsString} {t : Table} {r : Prekey}
    (hid : r.id ∉ t.rows.map Prekey.id) (hu : r.userId = u) (hd : r.deviceId = d) :
    rowsOf u d ((Write.insert r).apply t) = rowsOf u d t ++ [r] := by
  rw [rowsOf, insert_rows hid, List.filter_append]
  simp [rowsOf, hu, hd]

/-- The rows that a query for the device finds. -/
theorem found_rowsOf {u d : JsString} {c : Conditions} {v : Value} (hv : c.asText v = some d)
    (t : Table) : (t.rows.filter fun r => r.userId = u ∧ c.asText v = some r.deviceId) =
      rowsOf u d t := by
  refine List.filter_congr fun r _ => ?_
  simp [hv, eq_comm]

/-- A query for the device returns one of its rows, if there is one. -/
theorem select_rowsOf {u d : JsString} {t : Table} {c : Conditions} {v : Value}
    (hv : c.asText v = some d) :
    (rowsOf u d t = [] ∧ c.select u v t.rows = none) ∨
      ∃ r ∈ rowsOf u d t, c.select u v t.rows = some r := by
  rw [Conditions.select, found_rowsOf hv]
  cases hfirst : ((rowsOf u d t).rotate c.pick).head? with
  | none =>
    rw [List.head?_eq_none_iff, List.rotate_eq_nil_iff] at hfirst
    exact .inl ⟨hfirst, rfl⟩
  | some r =>
    exact .inr ⟨r, List.mem_rotate.mp (List.mem_of_head? hfirst), rfl⟩

/-- What leads the rows of the device is true of the row that a reader gets. -/
theorem latest_rowsOf {u d : JsString} {t : Table} {c : Conditions} {v : Value}
    (hv : c.asText v = some d) {P : Prekey → Prop}
    (h : Leading Prekey.createdAt P (rowsOf u d t)) :
    ∃ r ∈ rowsOf u d t, P r ∧ c.latest u v t.rows = some r := by
  have hlatest : ∀ r, r ∈ (rowsOf u d t).filter
      (fun r => ∀ r' ∈ rowsOf u d t, r'.createdAt ≤ r.createdAt) ↔
        r ∈ rowsOf u d t ∧ ∀ r' ∈ rowsOf u d t, r'.createdAt ≤ r.createdAt := by
    intro r
    rw [List.mem_filter, decide_eq_true_iff]
  simp only [Conditions.latest, found_rowsOf hv]
  cases hfirst : (((rowsOf u d t).filter fun r => ∀ r' ∈ rowsOf u d t,
      r'.createdAt ≤ r.createdAt).rotate c.pick).head? with
  | none =>
    rw [List.head?_eq_none_iff, List.rotate_eq_nil_iff] at hfirst
    obtain ⟨r, hr, hmax⟩ := h.exists_latest
    have hmem := (hlatest r).mpr ⟨hr, hmax⟩
    rw [hfirst] at hmem
    cases hmem
  | some r =>
    obtain ⟨hr, hmax⟩ := (hlatest r).mp (List.mem_rotate.mp (List.mem_of_head? hfirst))
    exact ⟨r, hr, h.latest hr hmax, rfl⟩

section Facts

variable (u d : JsString) (bundles : Party → Json)

/-- The bundle has the properties that the request stores. -/
def Carries (i : Party) (r : Prekey) : Prop := Retains i.keys (bundles i) r.bundle

/-- A publication must be stored in some row, a backup in the rows that a reader finds. -/
def Holds : Party → (Prekey → Prop) → Table → Prop
  | .publisher, P, t => ∃ r ∈ rowsOf u d t, P r
  | .backup, P, t => Leading Prekey.createdAt P (rowsOf u d t)

/-- What the request stores is there. -/
def Done (i : Party) (t : Table) : Prop := Holds u d i (Carries bundles i) t

/-- The request has found the row with this id, and stores its bundle when it updates it. -/
def Claimed (i : Party) (id : JsString) (t : Table) : Prop :=
  Holds u d i (fun r => r.id = id) t ∨ Done u d bundles i t

/-- What a request may know of the table, whatever the other one does. -/
inductive Knows : Party → (Table → Prop) → Prop where
  | found (i id) : Knows i fun t => ∃ r ∈ rowsOf u d t, r.id = id
  | claimed (i id) : Knows i (Claimed u d bundles i id)
  | done (i) : Knows i (Done u d bundles i)
  | unclaimed : Knows .publisher fun t => rowsOf u d t = [] ∨ Done u d bundles .backup t

/-- There is one row, or the backup is the one that readers find. -/
def Readable (t : Table) : Prop :=
  (rowsOf u d t).length ≤ 1 ∨ Done u d bundles .backup t

variable {u d bundles} {i : Party} {t : Table} {P Q : Prekey → Prop}

theorem Holds.mono (h : Holds u d i P t) (hPQ : ∀ r ∈ rowsOf u d t, P r → Q r) :
    Holds u d i Q t := by
  cases i with
  | publisher =>
    obtain ⟨r, hr, hP⟩ := h
    exact ⟨r, hr, hPQ r hr hP⟩
  | backup => exact Leading.mono h hPQ

theorem Holds.update (h : Holds u d i P t) {id : JsString} {changes : PrekeyChanges} {now : ℕ}
    (hother : ∀ r ∈ rowsOf u d t, r.id ≠ id → P r → Q r)
    (hchanged : ∀ r ∈ rowsOf u d t, r.id = id → P r → Q (changes.apply now r)) :
    Holds u d i Q ((Write.update id changes now).apply t) := by
  have hstep : ∀ r ∈ rowsOf u d t, P r →
      Q (if r.id = id then changes.apply now r else r) := by
    intro r hr hP
    split
    · rename_i hid
      exact hchanged r hr hid hP
    · rename_i hid
      exact hother r hr hid hP
  cases i with
  | publisher =>
    obtain ⟨r, hr, hP⟩ := h
    refine ⟨_, ?_, hstep r hr hP⟩
    rw [rowsOf_update]
    exact List.mem_map_of_mem hr
  | backup =>
    rw [Holds, rowsOf_update]
    refine Leading.map h (fun r => ?_) hstep
    split <;> rfl

/-- The one row of a device leads its rows. -/
theorem Readable.claimed (h : Readable u d bundles t) {r : Prekey} (hr : r ∈ rowsOf u d t) :
    Claimed u d bundles i r.id t := by
  cases i with
  | publisher => exact .inl ⟨r, hr, rfl⟩
  | backup =>
    rcases h with hlength | hdone
    · exact .inl (leading_of_length_le_one hlength hr rfl)
    · exact .inr hdone

variable (u d bundles) in
structure Harmless (i : Party) (t t' : Table) : Prop where
  others : ∀ fact, Knows u d bundles i.other fact → fact t → fact t'
  readable : Readable u d bundles t → Readable u d bundles t'

section Update

variable {id : JsString} {changes : PrekeyChanges} {now : ℕ}

/-- The bundle that is written belongs to the request, unless it is already there. -/
theorem done_update
    (hnew : ∀ b, changes.bundle = some b → Retains i.keys (bundles i) (stored b))
    (hsame : changes.bundle = none → Done u d bundles i t) (hclaimed : Claimed u d bundles i id t) :
    Done u d bundles i ((Write.update id changes now).apply t) := by
  cases hb : changes.bundle with
  | none =>
    refine (hsame hb).update (fun r _ _ hr => hr) fun r _ _ hr => ?_
    rwa [Carries, PrekeyChanges.apply_bundle, hb, Option.map_none, Option.getD_none]
  | some b =>
    have hcarries : ∀ r, Carries bundles i (changes.apply now r) := by
      intro r
      rw [Carries, PrekeyChanges.apply_bundle, hb, Option.map_some, Option.getD_some]
      exact hnew b hb
    rcases hclaimed with hfound | hdone
    · exact hfound.update (fun r _ hne hid => absurd hid hne) fun r _ _ _ => hcarries r
    · exact hdone.update (fun r _ _ hr => hr) fun r _ _ _ => hcarries r

theorem harmless_update (hretains : ∀ r ∈ t.rows, r.id = id →
      Retains i.other.keys r.bundle ((changes.bundle.map stored).getD r.bundle))
    (hdone : Done u d bundles i ((Write.update id changes now).apply t)) :
    Harmless u d bundles i t ((Write.update id changes now).apply t) := by
  have hids : ∀ {j id'}, Holds u d j (fun r => r.id = id') t →
      Holds u d j (fun r => r.id = id') ((Write.update id changes now).apply t) :=
    fun h => h.update (fun _ _ _ hr => hr) fun _ _ _ hr => hr
  have hother : Done u d bundles i.other t →
      Done u d bundles i.other ((Write.update id changes now).apply t) := by
    intro h
    refine h.update (fun _ _ _ hr => hr) fun r hr hid hcarries key hkey => ?_
    exact (hretains r (mem_rowsOf.mp hr).1 hid key hkey).trans (hcarries key hkey)
  have hbackup : Done u d bundles .backup t →
      Done u d bundles .backup ((Write.update id changes now).apply t) := by
    cases i with
    | publisher => exact hother
    | backup => exact fun _ => hdone
  refine ⟨fun fact hknows hfact => ?_, fun h => h.imp (fun hlength => ?_) hbackup⟩
  · generalize i.other = j at hknows hother
    cases hknows with
    | found _ id' => exact hids (j := .publisher) hfact
    | claimed _ id' => exact hfact.imp hids hother
    | done => exact hother hfact
    | unclaimed =>
      refine hfact.imp (fun hempty => ?_) hbackup
      rw [rowsOf_update, hempty, List.map_nil]
  · rwa [rowsOf_update, List.length_map]

end Update

section Insert

variable {r : Prekey} (hid : r.id ∉ t.rows.map Prekey.id) (hu : r.userId = u)
  (hd : r.deviceId = d)

include hid hu hd

theorem done_insert_publication (hcarries : Carries bundles .publisher r) :
    Done u d bundles .publisher ((Write.insert r).apply t) := by
  refine ⟨r, ?_, hcarries⟩
  rw [rowsOf_insert hid hu hd]
  exact List.mem_append_right _ List.mem_cons_self

theorem done_insert_backup (hcarries : Carries bundles .backup r)
    (hlater : ∀ r' ∈ rowsOf u d t, r'.createdAt < r.createdAt) :
    Done u d bundles .backup ((Write.insert r).apply t) := by
  rw [Done, Holds, rowsOf_insert hid hu hd]
  exact leading_append_after hcarries hlater

/-- The publication comes before the rows that are there, so a reader does not find it. -/
theorem harmless_insert_publication
    (hunclaimed : rowsOf u d t = [] ∨ Done u d bundles .backup t)
    (hearlier : ∀ r' ∈ rowsOf u d t, r.createdAt < r'.createdAt) :
    Harmless u d bundles .publisher t ((Write.insert r).apply t) := by
  have hrows := rowsOf_insert hid hu hd
  have hleading : ∀ {P}, Holds u d .backup P t →
      Holds u d .backup P ((Write.insert r).apply t) := by
    intro P h
    rw [Holds, hrows]
    exact Leading.append_before h hearlier
  refine ⟨fun fact hknows hfact => ?_, fun _ => ?_⟩
  · cases hknows with
    | found _ id' =>
      obtain ⟨r', hr', hid'⟩ := hfact
      exact ⟨r', hrows ▸ List.mem_append_left _ hr', hid'⟩
    | claimed _ id' => exact hfact.imp hleading hleading
    | done => exact hleading hfact
  · rcases hunclaimed with hempty | hdone
    · left
      rw [hrows, hempty]
      exact Nat.le_refl 1
    · exact .inr (hleading hdone)

/-- Readers find the backup, since it comes after the rows that are there. -/
theorem harmless_insert_backup (hcarries : Carries bundles .backup r)
    (hlater : ∀ r' ∈ rowsOf u d t, r'.createdAt < r.createdAt) :
    Harmless u d bundles .backup t ((Write.insert r).apply t) := by
  have hrows := rowsOf_insert hid hu hd
  have hdone := done_insert_backup hid hu hd hcarries hlater
  have hkept : ∀ {P}, Holds u d .publisher P t →
      Holds u d .publisher P ((Write.insert r).apply t) := by
    rintro P ⟨r', hr', hP⟩
    exact ⟨r', hrows ▸ List.mem_append_left _ hr', hP⟩
  refine ⟨fun fact hknows hfact => ?_, fun _ => .inr hdone⟩
  cases hknows with
  | found _ id' => exact hkept hfact
  | claimed _ id' => exact hfact.imp hkept hkept
  | done => exact hkept hfact
  | unclaimed => exact .inr hdone

end Insert

variable (u d bundles)

structure Inv (s : Database Party) : Prop where
  readable : Readable u d bundles s.prekeys
  done : ∀ i, (∃ a ∈ s.answers i, Answer.isOk a = true) → Done u d bundles i s.prekeys

/-- What request `i` may assume of the other one. -/
structure Rely (i : Party) (s t : Database Party) : Prop where
  answers : t.answers i = s.answers i
  facts : ∀ fact, Knows u d bundles i fact → fact s.prekeys → fact t.prekeys

def protocol : Protocol Party (Database Party) where
  inv := Inv u d bundles
  rely := Rely u d bundles
  guar i := Rely u d bundles i.other
  rely_refl _ _ := ⟨rfl, fun _ _ => id⟩
  rely_trans _ _ _ _ h h' :=
    ⟨h'.answers.trans h.answers, fun fact hk hf => h'.facts fact hk (h.facts fact hk hf)⟩
  compatible hij _ _ _ h := Party.eq_other hij ▸ h

variable {u d bundles}

/-- A request that has not answered keeps the protocol with a harmless write. -/
theorem Harmless.keeps {s : Database Party} {t' : Table} (h : Harmless u d bundles i s.prekeys t')
    (hinv : Inv u d bundles s) (hs : s.answers i = []) :
    Inv u d bundles { s with prekeys := t' } ∧
      Rely u d bundles i.other s { s with prekeys := t' } := by
  refine ⟨⟨h.readable hinv.readable, fun j hj => ?_⟩, rfl, h.others⟩
  by_cases hji : j = i
  · obtain ⟨a, ha, -⟩ := hj
    rw [hji, hs] at ha
    cases ha
  · obtain rfl := Party.eq_other hji
    exact h.others _ (.done _) (hinv.done _ hj)

end Facts

end ChatMicroservices.PrekeyUpserts
