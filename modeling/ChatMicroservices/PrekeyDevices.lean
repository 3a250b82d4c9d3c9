import ChatMicroservices.PrekeyPools

/-!
# One record for each device

While no two rows have the same user and device, the table is a partial map from devices to
records. An `INSERT` or an `UPDATE` changes the map at one device, and a query for a device
finds its record, whatever the order of the rows. A record has what the column holds of a
bundle.
-/

namespace ChatMicroservices.PrekeyDevices
open JavaScriptValues JavaScriptOperators JsonColumns KeyedTables PrekeyBundles PrekeyDatabase
open PrekeyPools StoredTexts

/-- What is stored for a device. -/
structure Record where
  bundle : Json
  lastBackupTimestamp : Option ℕ
  deriving DecidableEq

abbrev Devices : Type := JsString × JsString → Option Record

def pair (r : Prekey) : JsString × JsString := (r.userId, r.deviceId)

def record (r : Prekey) : Record := ⟨r.bundle, r.lastBackupTimestamp⟩

/-- What is stored of an entity. -/
def saved (entity : Prekey) : Record := ⟨stored entity.bundle, entity.lastBackupTimestamp⟩

/-- No two rows have the same user and device, and each has a bundle and a device that their
columns can hold. -/
structure Regular (t : Table) : Prop where
  single : (t.rows.map pair).Nodup
  storable : ∀ r ∈ t.rows, Storable r.bundle
  fits : ∀ r ∈ t.rows, Fits r.deviceId

theorem Regular.device_fits {t : Table} (h : Regular t) {r : Prekey} (hr : r ∈ t.rows)
    {u d : JsString} (hpair : pair r = (u, d)) : Fits d := by
  obtain ⟨-, rfl⟩ := Prod.mk.inj hpair
  exact h.fits r hr

/-- The table, with the device as its key. -/
def byDevice {t : Table} (h : Regular t) : KeyedTable pair := ⟨t.rows, h.single⟩

def deviceRow (t : Table) (p : JsString × JsString) : Option Prekey :=
  t.rows.find? fun r => pair r = p

def devices (t : Table) : Devices := fun p => (deviceRow t p).map record

theorem regular_empty : Regular KeyedTable.empty :=
  ⟨List.nodup_nil, fun _ hr => absurd hr List.not_mem_nil,
    fun _ hr => absurd hr List.not_mem_nil⟩

theorem deviceRow_eq_some {t : Table} (h : Regular t) {p : JsString × JsString} {r : Prekey} :
    deviceRow t p = some r ↔ r ∈ t.rows ∧ pair r = p :=
  KeyedTable.find_eq_some (t := byDevice h)

theorem deviceRow_eq_none {t : Table} {p : JsString × JsString} :
    deviceRow t p = none ↔ ∀ r ∈ t.rows, pair r ≠ p := by
  simp [deviceRow, List.find?_eq_none]

theorem devices_of_mem {t : Table} (h : Regular t) {r : Prekey} (hr : r ∈ t.rows) :
    devices t (pair r) = some (record r) := by
  rw [devices, (deviceRow_eq_some h).mpr ⟨hr, rfl⟩, Option.map_some]

theorem devices_storable {t : Table} (h : Regular t) {p : JsString × JsString} {rec : Record}
    (hrec : devices t p = some rec) : Storable rec.bundle := by
  obtain ⟨r, hr, rfl⟩ := Option.map_eq_some_iff.mp hrec
  exact h.storable r ((deviceRow_eq_some h).mp hr).1

private theorem filter_pair {rows : List Prekey} (h : (rows.map pair).Nodup)
    (p : JsString × JsString) :
    (rows.filter fun r => pair r = p) = (rows.find? fun r => pair r = p).toList := by
  induction rows with
  | nil => rfl
  | cons r rows ih =>
    rw [List.map_cons, List.nodup_cons] at h
    by_cases hr : pair r = p
    · have hnone : ∀ r' ∈ rows, pair r' ≠ p := by
        intro r' hr' heq
        exact h.1 (hr ▸ heq ▸ List.mem_map_of_mem hr')
      have hempty : (rows.filter fun r => pair r = p) = [] := by
        simpa using hnone
      simp [hr, hempty]
    · simp [hr, ih h.2]

private theorem filter_device {t : Table} (h : Regular t) {c : Conditions} (u : JsString)
    {v : Value} {d : JsString} (hv : c.asText v = some d) :
    (t.rows.filter fun r => r.userId = u ∧ c.asText v = some r.deviceId) =
      (deviceRow t (u, d)).toList := by
  rw [deviceRow, ← filter_pair h.single]
  refine List.filter_congr fun r _ => ?_
  simp [pair, hv, eq_comm]

private theorem filter_unread {rows : List Prekey} {c : Conditions} {u : JsString} {v : Value}
    (hv : c.asText v = none) :
    (rows.filter fun r => r.userId = u ∧ c.asText v = some r.deviceId) = [] := by
  simp [hv]

private theorem head_rotate_toList {α : Type} (a : Option α) (n : ℕ) :
    (a.toList.rotate n).head? = a := by
  cases a with
  | none => simp
  | some a => simp [List.rotate_singleton]

theorem select_eq {t : Table} (h : Regular t) {c : Conditions} (u : JsString) {v : Value}
    {d : JsString} (hv : c.asText v = some d) : c.select u v t.rows = deviceRow t (u, d) := by
  rw [Conditions.select, filter_device h u hv, head_rotate_toList]

theorem select_unread {rows : List Prekey} {c : Conditions} {u : JsString} {v : Value}
    (hv : c.asText v = none) : c.select u v rows = none := by
  rw [Conditions.select, filter_unread hv]
  simp

theorem latest_eq {t : Table} (h : Regular t) {c : Conditions} (u : JsString) {v : Value}
    {d : JsString} (hv : c.asText v = some d) : c.latest u v t.rows = deviceRow t (u, d) := by
  simp only [Conditions.latest, filter_device h u hv]
  cases deviceRow t (u, d) with
  | none => simp
  | some r => simp [List.rotate_singleton]

theorem insert_rows {t : Table} {r : Prekey} (h : r.id ∉ t.rows.map Prekey.id) :
    ((Write.insert r).apply t).rows = t.rows ++ [r] := by
  simp [Write.apply, KeyedTable.insert, h]

theorem mem_insert {t : Table} {r r' : Prekey} (hid : r.id ∉ t.rows.map Prekey.id)
    (h : r' ∈ ((Write.insert r).apply t).rows) : r' ∈ t.rows ∨ r' = r := by
  rwa [insert_rows hid, List.mem_append, List.mem_singleton] at h

theorem regular_insert {t : Table} (ht : Regular t) {r : Prekey}
    (hid : r.id ∉ t.rows.map Prekey.id) (hnew : deviceRow t (pair r) = none)
    (hr : Storable r.bundle) (hfits : Fits r.deviceId) :
    Regular ((Write.insert r).apply t) := by
  refine ⟨?_, fun r' hr' => ?_, fun r' hr' => ?_⟩
  · rw [insert_rows hid, List.map_append, List.map_singleton, List.nodup_append]
    refine ⟨ht.single, List.nodup_singleton _, ?_⟩
    intro p hp q hq hpq
    obtain ⟨r', hr', rfl⟩ := List.mem_map.mp hp
    rw [List.mem_singleton] at hq
    exact deviceRow_eq_none.mp hnew r' hr' (hpq.trans hq)
  · rcases mem_insert hid hr' with hr' | rfl
    · exact ht.storable r' hr'
    · exact hr
  · rcases mem_insert hid hr' with hr' | rfl
    · exact ht.fits r' hr'
    · exact hfits

theorem devices_insert {t : Table} {r : Prekey} (hid : r.id ∉ t.rows.map Prekey.id)
    (hnew : deviceRow t (pair r) = none) :
    devices ((Write.insert r).apply t) =
      Function.update (devices t) (pair r) (some (record r)) := by
  funext p
  rw [devices, deviceRow, insert_rows hid, List.find?_append]
  by_cases hp : p = pair r
  · subst hp
    have hnone : t.rows.find? (fun r' => pair r' = pair r) = none := hnew
    simp [hnone]
  · have hr : pair r ≠ p := fun h => hp h.symm
    simp [hp, hr, devices, deviceRow]

theorem apply_storable {r : Prekey} (hr : Storable r.bundle) (changes : PrekeyChanges)
    (now : ℕ) : Storable (changes.apply now r).bundle := by
  rw [PrekeyChanges.apply_bundle]
  cases changes.bundle with
  | none => exact hr
  | some b => exact storable_stored b

theorem mem_update {t : Table} {id : JsString} {changes : PrekeyChanges} {now : ℕ} {r : Prekey}
    (h : r ∈ ((Write.update id changes now).apply t).rows) :
    ∃ r₀ ∈ t.rows, r = r₀ ∨ r = changes.apply now r₀ := by
  rw [update_rows, List.mem_map] at h
  obtain ⟨r₀, hr₀, rfl⟩ := h
  refine ⟨r₀, hr₀, ?_⟩
  split
  · exact .inr rfl
  · exact .inl rfl

theorem regular_update {t : Table} (h : Regular t) (id : JsString) (changes : PrekeyChanges)
    (now : ℕ) : Regular ((Write.update id changes now).apply t) := by
  refine ⟨?_, fun r hr => ?_, fun r hr => ?_⟩
  · have hpairs : (((Write.update id changes now).apply t).rows.map pair) = t.rows.map pair := by
      rw [update_rows, List.map_map]
      refine List.map_congr_left fun r _ => ?_
      simp only [Function.comp_apply]
      split <;> rfl
    rw [hpairs]
    exact h.single
  · obtain ⟨r₀, hr₀, rfl | rfl⟩ := mem_update hr
    · exact h.storable r hr₀
    · exact apply_storable (h.storable r₀ hr₀) changes now
  · obtain ⟨r₀, hr₀, rfl | rfl⟩ := mem_update hr
    · exact h.fits r hr₀
    · exact h.fits r₀ hr₀

theorem devices_update {t : Table} (h : Regular t) {r : Prekey} (hr : r ∈ t.rows)
    (changes : PrekeyChanges) (now : ℕ) :
    devices ((Write.update r.id changes now).apply t) =
      Function.update (devices t) (pair r) (some (record (changes.apply now r))) := by
  have hsingle := regular_update h r.id changes now
  funext p
  by_cases hp : p = pair r
  · subst hp
    have hmem : changes.apply now r ∈ ((Write.update r.id changes now).apply t).rows := by
      rw [update_rows]
      exact List.mem_map.mpr ⟨r, hr, if_pos rfl⟩
    rw [Function.update_self]
    exact devices_of_mem hsingle hmem
  · rw [Function.update_of_ne hp]
    cases hrow : deviceRow t p with
    | none =>
      have hnone : deviceRow ((Write.update r.id changes now).apply t) p = none := by
        refine deviceRow_eq_none.mpr fun r' hr' => ?_
        rw [update_rows, List.mem_map] at hr'
        obtain ⟨r₀, hr₀, rfl⟩ := hr'
        have hne := deviceRow_eq_none.mp hrow r₀ hr₀
        split
        · exact hne
        · exact hne
      rw [devices, devices, hrow, hnone]
    | some r' =>
      obtain ⟨hr', rfl⟩ := (deviceRow_eq_some h).mp hrow
      have hid : r'.id ≠ r.id := by
        intro heq
        exact hp (congrArg pair (t.eq_of_key_eq hr' hr heq))
      have hmem : r' ∈ ((Write.update r.id changes now).apply t).rows := by
        rw [update_rows]
        exact List.mem_map.mpr ⟨r', hr', if_neg hid⟩
      rw [devices_of_mem hsingle hmem, devices_of_mem h hr']

/-- The write gives the device `p` the record `rec` and keeps the others. -/
structure Puts (t : Table) (p : JsString × JsString) (rec : Record) (t' : Table) : Prop where
  regular : Regular t'
  devices : PrekeyDevices.devices t' = Function.update (PrekeyDevices.devices t) p (some rec)

theorem Puts.same {t : Table} (h : Regular t) {p : JsString × JsString} {rec : Record}
    (hrec : PrekeyDevices.devices t p = some rec) : Puts t p rec t :=
  ⟨h, by rw [← hrec, Function.update_eq_self]⟩

/-- The columns that differ are stored; the others are stored already. -/
theorem record_apply {r : Prekey} (hr : Storable r.bundle) (entity : Prekey) (now : ℕ) :
    record ((changesFrom entity r).apply now r) = saved entity := by
  have htime : (differing entity.lastBackupTimestamp r.lastBackupTimestamp).getD
      r.lastBackupTimestamp = entity.lastBackupTimestamp := by simp
  have hbundle : ((differing entity.bundle r.bundle).map stored).getD r.bundle =
      stored entity.bundle := by
    cases hd : differing entity.bundle r.bundle with
    | none => rw [differing_eq_none.mp hd, hr, Option.map_none, Option.getD_none]
    | some b => rw [eq_of_differing hd, Option.map_some, Option.getD_some]
  rw [record, saved, ← htime, ← hbundle]
  rfl

/-- Saving an entity whose row is stored, when no column differs. -/
theorem puts_save {t : Table} (h : Regular t) {r : Prekey} (hr : r ∈ t.rows) {entity : Prekey}
    (hentity : changesFrom entity r = PrekeyChanges.none) : Puts t (pair r) (saved entity) t := by
  refine Puts.same h ?_
  rw [devices_of_mem h hr, ← record_apply (h.storable r hr) entity 0, hentity]
  rfl

theorem puts_update {t : Table} (h : Regular t) {r : Prekey} (hr : r ∈ t.rows)
    (entity : Prekey) (now : ℕ) :
    Puts t (pair r) (saved entity) ((Write.update r.id (changesFrom entity r) now).apply t) := by
  refine ⟨regular_update h r.id _ now, ?_⟩
  rw [devices_update h hr, record_apply (h.storable r hr)]

theorem puts_insert {t : Table} (h : Regular t) {r : Prekey} (hid : r.id ∉ t.rows.map Prekey.id)
    (hnew : PrekeyDevices.devices t (pair r) = none) (hr : Storable r.bundle)
    (hfits : Fits r.deviceId) :
    Puts t (pair r) (record r) ((Write.insert r).apply t) := by
  have hrow : deviceRow t (pair r) = none := Option.map_eq_none_iff.mp hnew
  exact ⟨regular_insert h hid hrow hr hfits, devices_insert hid hrow⟩

/-- A published bundle is merged into what the device has. -/
def afterPublish (old : Option Record) (bundle : Json) : Record :=
  match old with
  | none => ⟨stored bundle, none⟩
  | some r => ⟨stored (merge r.bundle bundle), r.lastBackupTimestamp⟩

/-- A backup is written next to what the device has, with its time. -/
def afterBackup (old : Option Record) (encryptedBundle : Json) (now : ℕ) : Record :=
  ⟨stored (withBackup ((old.map Record.bundle).getD (.obj [])) encryptedBundle), some now⟩

/-- The consumption of a prekey replaces the pool. -/
def afterConsumption (old : Record) (remaining : List Json) : Record :=
  ⟨stored (withPreKeys old.bundle remaining), old.lastBackupTimestamp⟩

/-- The backup of a device, if there is one. -/
def backupIn (old : Option Record) : Value :=
  (old.map fun r => (Value.json r.bundle).field "_encryptedKeyBundle").getD .undefined

def backupTime (old : Option Record) : Option ℕ := old.bind Record.lastBackupTimestamp

/-- The property of a bundle that holds a backup. -/
def backupField (bundle : Json) : Option Json :=
  lookup (js "_encryptedKeyBundle") (spread bundle)

theorem backupIn_some (r : Record) :
    backupIn (some r) = ((backupField r.bundle).map .json).getD .undefined :=
  field_eq_spread (by decide) r.bundle

theorem backupIn_stored (bundle : Json) (lastBackupTimestamp : Option ℕ) :
    backupIn (some ⟨stored bundle, lastBackupTimestamp⟩) =
      ((backupField bundle).map fun b => .json (stored b)).getD .undefined := by
  rw [backupIn_some, backupField, lookup_spread_stored, Option.map_map]
  rfl

/-- A published bundle hides the backup if it has the property itself. -/
theorem backupIn_afterPublish {old : Option Record} (hold : ∀ r ∈ old, Storable r.bundle)
    (bundle : Json) : backupIn (some (afterPublish old bundle)) =
      ((backupField bundle).map fun b => .json (stored b)).getD (backupIn old) := by
  cases old with
  | none => exact backupIn_stored bundle none
  | some r =>
    have hmerge : backupField (merge r.bundle bundle) =
        (backupField bundle).or (backupField r.bundle) :=
      lookup_merge (fun h => absurd h (by decide)) fun h => absurd h (by decide)
    rw [afterPublish, backupIn_stored, hmerge, backupIn_some]
    cases backupField bundle with
    | some b => rfl
    | none =>
      rw [Option.none_or, Option.map_none, Option.getD_none]
      cases hb : backupField r.bundle with
      | none => rfl
      | some b =>
        have hstorable : stored b = b := (hold r rfl).lookup hb
        rw [Option.map_some, Option.map_some, hstorable]

theorem backupIn_afterConsumption {old : Record} (hold : Storable old.bundle)
    (remaining : List Json) :
    backupIn (some (afterConsumption old remaining)) = backupIn (some old) := by
  have hkept : backupField (withPreKeys old.bundle remaining) = backupField old.bundle :=
    lookup_withPreKeys (by decide) (fun h => absurd h (by decide)) remaining
  rw [afterConsumption, backupIn_stored, hkept, backupIn_some]
  cases hb : backupField old.bundle with
  | none => rfl
  | some b =>
    have hstorable : stored b = b := hold.lookup hb
    rw [Option.map_some, Option.map_some, hstorable]

theorem backupIn_afterBackup (old : Option Record) (encryptedBundle : Json) (now : ℕ) :
    backupIn (some (afterBackup old encryptedBundle now)) = .json (stored encryptedBundle) := by
  rw [afterBackup, backupIn_stored, backupField, lookup_backup]
  rfl

end ChatMicroservices.PrekeyDevices
