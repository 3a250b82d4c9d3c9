import ChatMicroservices.PrekeyRequests

/-!
# What the prekey requests answer and store

For each request the cases of its outcome. A request that does not succeed leaves the table
as it was, and a request that succeeds changes the record of at most one device. Failures of
the database are allowed everywhere.
-/

namespace ChatMicroservices.PrekeyOutcomes
open JavaScriptValues JsonColumns StoredTexts EffectPrograms SequentialPrograms KeyedTables
open PrekeyBundles PrekeyDatabase PrekeyController PrekeyValidation PrekeyConservation
open PrekeyDevices PrekeyRequests

section Effects

variable {e : ℕ → Conditions} {β : Type} {Q : Except JsError β → ℕ → Database Unit → Prop}
  {n : ℕ} {s : Database Unit}

/-- `save` of a stored entity fails, or the device has the record of the entity. -/
theorem leads_save {entity r : Prekey} (hs : Regular s.prekeys) (hr : r ∈ s.prekeys.rows)
    (hid : entity.id = r.id) {f : Unit → Handler β}
    (hfail : ∀ x m k, n ≤ k → (e k).failure ≠ none → Q (.error x) m s)
    (hok : ∀ m t', n ≤ m → Puts s.prekeys (pair r) (saved entity) t' →
      Leads alone e Q (f ()) m { s with prekeys := t' }) :
    Leads alone e Q ((save .dataSource entity).bind f) n s := by
  have hfind : s.prekeys.find entity.id = some r := KeyedTable.find_eq_some.mpr ⟨hr, hid.symm⟩
  simp only [save, Program.bind_eq, Program.bind_assoc]
  refine leads_reread (fun x hx => hfail x _ n (Nat.le_refl n) (by simp [hx])) fun _ => ?_
  simp only [Database.view, hfind]
  split
  · rename_i hsame
    exact hok (n + 1) s.prekeys (by omega) (puts_save hs hr hsame)
  · refine leads_update (fun x hx => hfail x _ (n + 1) (by omega) (by simp [hx])) fun _ => ?_
    rw [hid]
    exact hok (n + 2) _ (by omega) (puts_update hs hr entity _)

end Effects

section Devices

variable {c : Course} {β : Type} {Q : Except JsError β → ℕ → Database Unit → Prop} {n : ℕ}
  {t : Table} {u : JsString} {deviceId : Value}

/-- The query of an upsert finds the row of the device, or there is no record of it, or the
device cannot be compared with a text column. -/
theorem leads_findDevice (ht : Regular t) {f : Option Prekey → Handler β}
    (hfail : ∀ x, (c.conditions n).failure = some x → Q (.error x) (n + 1) (untouched Unit t))
    (hunread : c.asText deviceId = none →
      Leads alone c.conditions Q (f none) (n + 1) (untouched Unit t))
    (hnew : ∀ d, c.asText deviceId = some d → devices t (u, d) = none →
      Leads alone c.conditions Q (f none) (n + 1) (untouched Unit t))
    (hfound : ∀ d r, c.asText deviceId = some d → r ∈ t.rows → pair r = (u, d) →
      Leads alone c.conditions Q (f (some r)) (n + 1) (untouched Unit t)) :
    Leads alone c.conditions Q ((Program.attempt (perform (.findOne u deviceId))).bind f) n
      (untouched Unit t) := by
  refine leads_findOne hfail fun _ => ?_
  rw [untouched_prekeys]
  cases hd : c.asText deviceId with
  | none =>
    have hread : (c.conditions n).asText deviceId = none := c.reads n ▸ hd
    rw [select_unread hread]
    exact hunread hd
  | some d =>
    have hread : (c.conditions n).asText deviceId = some d := c.reads n ▸ hd
    rw [select_eq ht u hread]
    cases hrow : deviceRow t (u, d) with
    | none => exact hnew d hd (Option.map_eq_none_iff.mpr hrow)
    | some r =>
      obtain ⟨hr, hpair⟩ := (deviceRow_eq_some ht).mp hrow
      exact hfound d r hd hr hpair

/-- The `INSERT` of a row for a device without a record. -/
theorem leads_insertDevice (ht : Regular t) {d : JsString} {bundle : Json}
    {lastBackupTimestamp : Option ℕ} (hd : c.asText deviceId = some d)
    (hnew : devices t (u, d) = none) {f : Unit → Handler β}
    (hfail : ∀ x, (c.conditions n).failure ≠ none ∨ ¬ Fits d ∨
      (c.conditions n).newId ∈ t.rows.map Prekey.id → Q (.error x) (n + 1) (untouched Unit t))
    (hok : Fits d → ∀ t', Puts t (u, d) ⟨stored bundle, lastBackupTimestamp⟩ t' →
      Leads alone c.conditions Q (f ()) (n + 1) { untouched Unit t with prekeys := t' }) :
    Leads alone c.conditions Q ((Program.attempt (perform (.insert .dataSource none
      ⟨u, deviceId, bundle, lastBackupTimestamp⟩))).bind f) n (untouched Unit t) := by
  have hread : (c.conditions n).asText deviceId = some d := c.reads n ▸ hd
  refine leads_insert ?_ fun r hr hid => ?_
  · rintro x (hf | ⟨y, hrow⟩ | hid)
    · exact hfail x (.inl hf)
    · exact hfail x (.inr (.inl (NewPrekey.toRow_eq_error hrow d hread)))
    · exact hfail x (.inr (.inr hid))
  · obtain ⟨d', hd', hfits, rfl⟩ := NewPrekey.toRow_eq_ok hr
    obtain rfl : d = d' := Option.some.inj (hread.symm.trans hd')
    exact hok hfits _ (puts_insert ht hid hnew (storable_stored bundle) hfits)

end Devices

/-- The time between two backups of a device, in milliseconds. -/
def backupInterval : ℕ := 24 * (1000 * 60 * 60)

theorem tooEarly_iff (now last : ℕ) :
    ((now : ℚ) - last) / (1000 * 60 * 60) < 24 ↔ now < last + backupInterval := by
  rw [div_lt_iff₀ (by norm_num), sub_lt_iff_lt_add', backupInterval]
  norm_cast

/-- A well-formed backup of the user for a device that the column can hold. -/
structure BackupAccepted (c : Course) (userId : Option JsString) (body : Value)
    (u d : JsString) : Prop where
  user : userId = some u
  named : u ≠ []
  checked : checkBackup (body.field "deviceId") (body.field "encryptedBundle") = .ok ()
  device : c.asText (body.field "deviceId") = some d
  fits : Fits d

/-- Why a backup that starts at moment `n` is not stored. -/
inductive BackupRefused (c : Course) (userId : Option JsString) (body : Value) (n : ℕ)
    (t : Table) : Prop where
  | malformed (h : ∀ u d, ¬ BackupAccepted c userId body u d)
  | failed {k} (hk : n ≤ k) (h : (c.conditions k).failure ≠ none)
  | early {u d last k} (accepted : BackupAccepted c userId body u d)
      (hlast : backupTime (devices t (u, d)) = some last) (hk : n ≤ k)
      (h : c.now k < last + backupInterval)
  | taken {k} (hk : n ≤ k) (h : (c.conditions k).newId ∈ t.rows.map Prekey.id)

inductive BackupOutcome (c : Course) (userId : Option JsString) (body : Value) (n : ℕ)
    (t : Table) : List Answer → ℕ → Table → Prop where
  | refused {answers m} (hanswers : ∀ a ∈ answers, ∃ x, a = .next x)
      (reason : BackupRefused c userId body n t) : BackupOutcome c userId body n t answers m t
  | stored {u d text k m t'} (accepted : BackupAccepted c userId body u d)
      (hk : n ≤ k) (hm : k < m)
      (rate : ∀ last, backupTime (devices t (u, d)) = some last →
        last + backupInterval ≤ c.now k)
      (puts : Puts t (u, d) (afterBackup (devices t (u, d))
        (body.field "encryptedBundle").column (c.now k)) t') :
      BackupOutcome c userId body n t [.message 200 text] m t'

section Backups

variable {c : Course} {userId : Option JsString} {body : Value} {n : ℕ} {t : Table}

/-- The rate check lets a backup through whose device was backed up long enough ago. -/
theorem leads_checkRate {β : Type} {Q : Except JsError β → ℕ → Database Unit → Prop}
    {last : Option ℕ} {s : Database Unit} {f : Unit → Handler β}
    (hearly : ∀ x m l k, last = some l → n ≤ k → c.now k < l + backupInterval →
      Q (.error x) m s)
    (hok : ∀ m, n ≤ m → (∀ l, last = some l → l + backupInterval ≤ c.now m) →
      Leads alone c.conditions Q (f ()) m s) :
    Leads alone c.conditions Q ((checkRate last).bind f) n s := by
  cases last with
  | none => exact hok n (Nat.le_refl n) fun l hl => by cases hl
  | some l =>
    refine (leads_perform rfl).mpr ?_
    simp only [Program.bind_ok]
    split
    · rename_i hrate
      exact hearly _ _ l n rfl (Nat.le_refl n) ((tooEarly_iff _ _).mp hrate)
    · rename_i hrate
      refine hok (n + 1) (by omega) fun l' hl' => ?_
      obtain rfl := Option.some.inj hl'
      have hnow : l + backupInterval ≤ c.now n :=
        not_lt.mp fun h => hrate ((tooEarly_iff _ _).mpr h)
      exact hnow.trans (c.clock (by omega))

private theorem not_accepted_of_error {x : JsError}
    (h : checkBackup (body.field "deviceId") (body.field "encryptedBundle") = .error x)
    (u d : JsString) : ¬ BackupAccepted c userId body u d := by
  intro hu
  have hchecked := hu.checked
  rw [h] at hchecked
  cases hchecked

/-- The postcondition of the `try` block: an exception has changed nothing. -/
def BackupAttempted (c : Course) (u : JsString) (body : Value) (n : ℕ) (t : Table) :
    Except JsError Unit → ℕ → Database Unit → Prop
  | .ok _, m, s => BackupOutcome c (some u) body n t (s.answers ()) m s.prekeys
  | .error _, _, s => s = untouched Unit t ∧ BackupRefused c (some u) body n t

/-- The first row of a device. -/
theorem leads_newBackup (ht : Regular t) {u d : JsString} (hu : u ≠ [])
    (hcheck : checkBackup (body.field "deviceId") (body.field "encryptedBundle") = .ok ())
    (hdevice : c.asText (body.field "deviceId") = some d) (hnew : devices t (u, d) = none) :
    Leads alone c.conditions (BackupAttempted c u body n t)
      ((perform .now).bind fun now =>
        (Program.attempt (perform (.insert .dataSource none ⟨u, body.field "deviceId",
          withBackup (.obj []) (body.field "encryptedBundle").column, some now⟩))).bind fun _ =>
          perform (.respond (.message 200 "Encrypted keys stored"))) (n + 1)
      (untouched Unit t) := by
  refine (leads_perform rfl).mpr (leads_insertDevice ht hdevice hnew ?_ ?_)
  · rintro x (hf | hlong | hid)
    · exact ⟨rfl, .failed (by omega) hf⟩
    · refine ⟨rfl, .malformed fun u' d' h => hlong ?_⟩
      exact Option.some.inj (h.device.symm.trans hdevice) ▸ h.fits
    · exact ⟨rfl, .taken (by omega) hid⟩
  · intro hfits t' hput
    have haccepted : BackupAccepted c (some u) body u d := ⟨rfl, hu, hcheck, hdevice, hfits⟩
    refine (leads_respond _).mpr (.stored haccepted (k := n + 1) (by omega) (by omega) ?_ ?_)
    · simp [hnew, backupTime]
    · rw [hnew]
      exact hput

/-- Another backup of a device that has a row. -/
theorem leads_nextBackup (ht : Regular t) {u d : JsString}
    (haccepted : BackupAccepted c (some u) body u d) {r : Prekey} (hr : r ∈ t.rows)
    (hpair : pair r = (u, d)) :
    Leads alone c.conditions (BackupAttempted c u body n t)
      ((checkRate r.lastBackupTimestamp).bind fun _ => (perform .now).bind fun now =>
        (save .dataSource { r with
          bundle := withBackup r.bundle (body.field "encryptedBundle").column
          lastBackupTimestamp := some now }).bind fun _ =>
          perform (.respond (.message 200 "Encrypted keys updated"))) (n + 1)
      (untouched Unit t) := by
  have hrec : devices t (u, d) = some (record r) := hpair ▸ devices_of_mem ht hr
  have htime : backupTime (devices t (u, d)) = r.lastBackupTimestamp := by
    rw [hrec]
    rfl
  refine leads_checkRate ?_ fun m hm hrate => ?_
  · intro x m l k hl hk hearly
    exact ⟨rfl, .early haccepted (htime.trans hl) (by omega) hearly⟩
  · refine (leads_perform rfl).mpr ?_
    refine leads_save (s := untouched Unit t) (r := r) ht hr ?_ ?_ ?_
    · rfl
    · intro x m' k hk hf
      exact ⟨rfl, .failed (by omega) hf⟩
    · intro m' t' hm' hput
      refine (leads_respond _).mpr (.stored haccepted (k := m) (by omega) (by omega) ?_ ?_)
      · intro l hl
        exact hrate l (htime.symm.trans hl)
      · rw [hpair] at hput
        rw [hrec]
        exact hput

theorem storeBackup_leads (ht : Regular t) {u : JsString} (hu : u ≠ []) :
    Leads alone c.conditions (BackupAttempted c u body n t)
      (storeBackup u (body.field "deviceId") (body.field "encryptedBundle")) n
      (untouched Unit t) := by
  unfold storeBackup
  cases hcheck : checkBackup (body.field "deviceId") (body.field "encryptedBundle") with
  | error x => exact ⟨rfl, .malformed (not_accepted_of_error hcheck)⟩
  | ok _ =>
    simp only [sync, Program.bind_eq, Program.bind_ok]
    refine leads_findDevice ht ?_ (fun hd => ?_) (fun d hd hnew => ?_) fun d r hd hr hpair => ?_
    · exact fun x hx => ⟨rfl, .failed (Nat.le_refl n) (by simp [hx])⟩
    · have hrefused : BackupRefused c (some u) body n t :=
        .malformed fun u' d' h => absurd (hd.symm.trans h.device) (by simp)
      refine (leads_perform rfl).mpr (leads_insert (fun _ _ => ⟨rfl, hrefused⟩) ?_)
      intro r hr _
      simp only [NewPrekey.toRow, c.reads, hd] at hr
      cases hr
    · exact leads_newBackup ht hu hcheck hd hnew
    · have hfits : Fits d := ht.device_fits hr hpair
      exact leads_nextBackup ht ⟨rfl, hu, hcheck, hd, hfits⟩ hr hpair

/-- A backup is stored, or the table stays as it was and no success is answered. -/
theorem storeSignalKeys_serves (c : Course) (userId : Option JsString) (body : Value) (n : ℕ)
    {t : Table} (ht : Regular t) :
    Serves c.conditions (storeSignalKeys userId body) (BackupOutcome c userId body n t) n t := by
  unfold storeSignalKeys readField
  by_cases hbody : body.Nullish
  · rw [Value.destructure_of_nullish hbody]
    refine .refused (by simp [untouched]) (.malformed (not_accepted_of_error (x := ?_) ?_))
    · exact .apiError 400 "deviceId and encryptedBundle are required"
    · simp [checkBackup, Value.field_of_nullish hbody]
  · simp only [Value.destructure_of_not_nullish hbody, sync, Program.bind_eq, Program.bind_ok]
    have hforward : ∀ x m, BackupRefused c userId body n t →
        Leads alone c.conditions
          (fun _ m s => BackupOutcome c userId body n t (s.answers ()) m s.prekeys)
          (perform (.respond (.next x))) m (untouched Unit t) := by
      intro x m hreason
      exact (leads_respond _).mpr (.refused (by simp) hreason)
    rcases userId with _ | _ | ⟨first, rest⟩
    · exact hforward _ n (.malformed fun u d h => by cases h.user)
    · exact hforward _ n (.malformed fun u d h => h.named (Option.some.inj h.user).symm)
    · refine (storeBackup_leads ht (List.cons_ne_nil first rest)).tryCatch
        (fun a m s _ h => h) ?_
      rintro x m s - ⟨rfl, hreason⟩
      exact hforward x m hreason

end Backups

/-- A bundle that passes the validation, for a device that the column can hold. -/
structure PublishAccepted (c : Course) (body : Value) (d : JsString) (bundle : Json) : Prop where
  valid : publishPrekeyValidation body = []
  bundle : body.field "bundle" = .json bundle
  device : c.asText (body.field "deviceId") = some d
  fits : Fits d

inductive PublishOutcome (c : Course) (u : JsString) (body : Value) (t : Table) :
    List Answer → ℕ → Table → Prop where
  | refused {answers m} (hanswers : ∀ a ∈ answers, Answer.isOk a = false) :
      PublishOutcome c u body t answers m t
  | stored {d bundle text m t'} (accepted : PublishAccepted c body d bundle)
      (puts : Puts t (u, d) (afterPublish (devices t (u, d)) bundle) t') :
      PublishOutcome c u body t [.message 200 text] m t'

section Publishing

variable {c : Course} {u : JsString} {body : Value} {n : ℕ} {t : Table}

theorem storeBundle_leads (ht : Regular t) {bundle : Json}
    (hvalid : publishPrekeyValidation body = []) (hbundle : body.field "bundle" = .json bundle) :
    Leads alone c.conditions (fun r m s => match r with
        | .ok _ => PublishOutcome c u body t (s.answers ()) m s.prekeys
        | .error _ => s = untouched Unit t)
      (storeBundle u (body.field "deviceId") (.json bundle)) n (untouched Unit t) := by
  simp only [storeBundle, Program.bind_eq]
  refine leads_findDevice ht (fun _ _ => rfl) (fun hd => ?_) (fun d hd hnew => ?_)
    fun d r hd hr hpair => ?_
  · refine leads_insert (fun _ _ => rfl) ?_
    intro r hr _
    simp only [NewPrekey.toRow, c.reads, hd] at hr
    cases hr
  · refine leads_insertDevice ht hd hnew (fun _ _ => rfl) fun hfits t' hput => ?_
    refine (leads_respond _).mpr (.stored ⟨hvalid, hbundle, hd, hfits⟩ ?_)
    rw [hnew]
    exact hput
  · have hrec : devices t (u, d) = some (record r) := hpair ▸ devices_of_mem ht hr
    have hfits : Fits d := ht.device_fits hr hpair
    refine leads_save (s := untouched Unit t) (r := r) ht hr ?_ ?_ ?_
    · rfl
    · exact fun _ _ _ _ _ => rfl
    · intro m t' _ hput
      refine (leads_respond _).mpr (.stored ⟨hvalid, hbundle, hd, hfits⟩ ?_)
      rw [hpair] at hput
      rw [hrec]
      exact hput

/-- An accepted bundle is merged into the record of its device, or nothing changes. -/
theorem postPrekeys_serves (c : Course) (u : JsString) (body : Value) (n : ℕ) (ht : Regular t) :
    Serves c.conditions (PrekeyValidation.postPrekeys u body) (PublishOutcome c u body t) n t := by
  have hforward : ∀ x m, Leads alone c.conditions
      (fun _ m s => PublishOutcome c u body t (s.answers ()) m s.prekeys)
      (perform (.respond (.next x))) m (untouched Unit t) := by
    intro x m
    exact (leads_respond _).mpr (.refused (by simp [Answer.isOk]))
  simp only [PrekeyValidation.postPrekeys]
  split
  · rename_i hvalid
    obtain ⟨bundle, hbundle, -⟩ := bundle_of_valid hvalid
    unfold publishPrekey readField
    by_cases hbody : body.Nullish
    · rw [Value.destructure_of_nullish hbody]
      exact hforward _ n
    · simp only [Value.destructure_of_not_nullish hbody, sync, Program.bind_eq, Program.bind_ok]
      cases u with
      | nil => exact hforward _ n
      | cons first rest =>
        dsimp only
        split
        · exact hforward _ n
        · rw [hbundle]
          refine (storeBundle_leads ht hvalid hbundle).tryCatch (fun a m s _ h => h) ?_
          rintro x m s - rfl
          exact hforward x m
  · exact (leads_respond _).mpr (.refused (by simp [Answer.isOk]))

end Publishing

/-- The answer for a device with this record. -/
def fetched (d : JsString) (old : Option Record) : Answer :=
  if (backupIn old).truthy then .keys d (backupIn old) else .message 404 "Operation failed"

theorem fetchKeys_leads {c : Course} {u : JsString} {deviceId : Value} {n : ℕ} {t : Table}
    (ht : Regular t) : Leads alone c.conditions (fun r _ s => match r with
        | .ok _ => s.prekeys = t ∧ ∀ d, c.asText deviceId = some d →
          s.answers () = [fetched d (devices t (u, d))]
        | .error _ => s = untouched Unit t ∧
          ((c.conditions n).failure = none → deviceId.truthy = false))
      (fetchKeys u deviceId) n (untouched Unit t) := by
  unfold fetchKeys
  split
  · rename_i hempty
    exact ⟨rfl, fun _ => by simpa using hempty⟩
  · simp only [Program.bind_eq]
    refine leads_findLatest (fun x hx => ⟨rfl, fun h => by simp [hx] at h⟩) fun _ => ?_
    rw [untouched_prekeys]
    have hlatest : ∀ d, c.asText deviceId = some d →
        (c.conditions n).latest u deviceId t.rows = deviceRow t (u, d) := by
      intro d hd
      exact latest_eq ht u (c.reads n ▸ hd)
    cases hfound : (c.conditions n).latest u deviceId t.rows with
    | none =>
      refine (leads_respond _).mpr ⟨rfl, fun d hd => ?_⟩
      have hnone : devices t (u, d) = none :=
        Option.map_eq_none_iff.mpr ((hlatest d hd).symm.trans hfound)
      simp [fetched, hnone, backupIn]
    | some r =>
      have hkeys : ∀ d, c.asText deviceId = some d → r.deviceId = d ∧
          backupIn (devices t (u, d)) = (Value.json r.bundle).field "_encryptedKeyBundle" := by
        intro d hd
        obtain ⟨hr, hpair⟩ := (deviceRow_eq_some ht).mp ((hlatest d hd).symm.trans hfound)
        rw [← hpair, devices_of_mem ht hr]
        exact ⟨congrArg Prod.snd hpair, rfl⟩
      dsimp only
      split
      · rename_i hshown
        refine (leads_respond _).mpr ⟨rfl, fun d hd => ?_⟩
        obtain ⟨rfl, hbackup⟩ := hkeys d hd
        simp [fetched, hbackup, hshown]
      · rename_i hshown
        refine (leads_respond _).mpr ⟨rfl, fun d hd => ?_⟩
        obtain ⟨rfl, hbackup⟩ := hkeys d hd
        simp [fetched, hbackup, hshown]

/-- The table stays as it is; the answer is the backup of the device, unless the query
fails. -/
theorem getSignalKeys_serves (c : Course) (userId : Option JsString) (deviceId : Value) (n : ℕ)
    {t : Table} (ht : Regular t) :
    Serves c.conditions (getSignalKeys userId deviceId) (fun answers _ t' => t' = t ∧
      ∀ u d, userId = some u → u ≠ [] → deviceId.truthy = true → c.asText deviceId = some d →
        (c.conditions n).failure = none → answers = [fetched d (devices t (u, d))]) n t := by
  unfold getSignalKeys
  rcases userId with _ | _ | ⟨first, rest⟩
  · exact (leads_respond _).mpr ⟨rfl, fun u d hu => by cases hu⟩
  · exact (leads_respond _).mpr ⟨rfl, fun u d hu hn => absurd (Option.some.inj hu).symm hn⟩
  · refine (fetchKeys_leads ht).tryCatch ?_ ?_
    · rintro a m s - ⟨hprekeys, hanswers⟩
      refine ⟨hprekeys, fun u d hu _ _ hd _ => ?_⟩
      obtain rfl := Option.some.inj hu
      exact hanswers d hd
    · rintro x m s - ⟨rfl, hreason⟩
      refine (leads_respond _).mpr ⟨rfl, fun u d _ _ htruthy _ hcalm => ?_⟩
      rw [hreason hcalm] at htruthy
      cases htruthy

end ChatMicroservices.PrekeyOutcomes
