import ChatMicroservices.PrekeySessions

/-!
# The key backup of a device as a register

`getSignalKeys` returns what the last successful `storeSignalKeys` of the user and the device
has stored, in sessions of all four requests. The backup lies in the published bundle, and a
client can publish the property that holds it; so no publication may carry a backup that
differs from the stored one. A backup with a number beyond the range of a double is not
stored as it was sent.
-/

namespace ChatMicroservices.BackupRegister
open JavaScriptValues JsonColumns KeyedTables PrekeyBundles PrekeyDatabase PrekeyController
open PrekeyValidation
open SequentialPrograms PrekeyDevices PrekeyRequests PrekeyOutcomes PrekeySessions

/-- What a reader sees of a stored backup. -/
def shown (v : Value) : Option Value := if v.truthy then some v else none

/-- If the request is a backup that passes the checks, a column can hold it as it is. -/
def IfBacksUp : Request → Prop
  | .storeSignalKeys _ body =>
    checkBackup (body.field "deviceId") (body.field "encryptedBundle") = .ok () →
      Storable (body.field "encryptedBundle").column
  | .postPrekeys _ _ | .getPrekeyBundle _ | .getSignalKeys _ _ => True

instance : DecidablePred IfBacksUp
  | .storeSignalKeys _ body => inferInstanceAs (Decidable (checkBackup (body.field "deviceId")
      (body.field "encryptedBundle") = .ok () → Storable (body.field "encryptedBundle").column))
  | .postPrekeys _ _ | .getPrekeyBundle _ | .getSignalKeys _ _ => .isTrue trivial

/-- An accepted bundle has no backup, or one that a reader cannot tell from the stored one; a
backup that is accepted can be stored as it is. -/
def KeepsBackup (c : Course) (t : Table) (request : Request) : Prop :=
  IfPublishes c (fun u d bundle => ∀ v ∈ backupField bundle,
    shown (.json (stored v)) = shown (backupIn (devices t (u, d)))) request ∧ IfBacksUp request

instance (c : Course) (t : Table) (request : Request) : Decidable (KeepsBackup c t request) :=
  inferInstanceAs (Decidable (IfPublishes c _ request ∧ IfBacksUp request))

/-- The last backup that was stored for the device. -/
def lastBackup (c : Course) (u d : JsString) (log : Log) : Option Json :=
  (log.filterMap (backupOf c u d)).getLast?

/-- The answer of `getSignalKeys` for a backup, and for none. -/
def keysAnswer (d : JsString) : Option Json → Answer
  | some encryptedBundle => .keys d (.json encryptedBundle)
  | none => .message 404 "Operation failed"

theorem fetched_eq {d : JsString} {old : Option Record} {backup : Option Json}
    (h : shown (backupIn old) = backup.map .json) : fetched d old = keysAnswer d backup := by
  unfold shown at h
  unfold fetched
  cases backup with
  | none =>
    split at h
    · cases h
    · rename_i hn
      rw [if_neg hn]
      rfl
  | some encryptedBundle =>
    split at h
    · rename_i ht
      rw [if_pos ht, Option.some.inj h]
      rfl
    · cases h

/-- What `checkBackup` lets through. -/
theorem checkBackup_ok {deviceId encryptedBundle : Value}
    (h : checkBackup deviceId encryptedBundle = .ok ()) :
    deviceId.truthy = true ∧ encryptedBundle.truthy = true ∧
      encryptedBundle.field "deviceId" = deviceId := by
  unfold checkBackup at h
  split at h
  · cases h
  · rename_i hpresent
    split at h
    · cases h
    · split at h
      · cases h
      · rename_i hdevice
        simp only [not_or, not_not] at hpresent hdevice
        exact ⟨hpresent.1, hpresent.2, (Value.eq_of_strictEq hdevice).1⟩

/-- An accepted backup is truthy, so readers see it. -/
theorem shown_column {c : Course} {userId : Option JsString} {body : Value} {u d : JsString}
    (h : BackupAccepted c userId body u d) :
    shown (.json (body.field "encryptedBundle").column) =
      some (.json (body.field "encryptedBundle").column) := by
  have htruthy := (checkBackup_ok h.checked).2.1
  rw [shown, Value.json_column_field htruthy, if_pos htruthy]

theorem DeviceStep.lastBackup {c : Course} {n m : ℕ} {u d : JsString} {log : Log} {t t' : Table}
    {request : Request} {answers : List Answer}
    (hstep : DeviceStep c n m u d t' request answers (devices t (u, d)) (devices t' (u, d)))
    (ht : Regular t) (hok : KeepsBackup c t request)
    (h : shown (backupIn (devices t (u, d))) =
      (BackupRegister.lastBackup c u d log).map .json) :
    shown (backupIn (devices t' (u, d))) =
      (BackupRegister.lastBackup c u d (log ++ [⟨request, n, m, answers, t'⟩])).map .json := by
  have hkeep : backupOf c u d ⟨request, n, m, answers, t'⟩ = none →
      shown (backupIn (devices t' (u, d))) = shown (backupIn (devices t (u, d))) →
      shown (backupIn (devices t' (u, d))) =
        (BackupRegister.lastBackup c u d (log ++ [⟨request, n, m, answers, t'⟩])).map .json := by
    intro hno hsame
    rw [hsame, h]
    simp [BackupRegister.lastBackup, List.filterMap_append, hno]
  generalize hold : devices t (u, d) = old at hstep hkeep
  generalize hnew : devices t' (u, d) = new at hstep hkeep
  cases hstep with
  | other hbackup _ => exact hkeep hbackup rfl
  | @published body bundle _ _ accepted _ =>
    refine hkeep rfl ?_
    rw [backupIn_afterPublish fun r hr => devices_storable ht (hold.trans hr)]
    cases hb : backupField bundle with
    | none => rfl
    | some v =>
      rw [← hold]
      exact IfPublishes.accepted hok.1 accepted v hb
  | consumed _ _ _ =>
    refine hkeep rfl ?_
    rw [backupIn_afterConsumption (devices_storable ht hold)]
  | @backedUp userId body _ _ k accepted hk hm hbackup rate =>
    have hstorable : stored (body.field "encryptedBundle").column = _ := hok.2 accepted.checked
    rw [backupIn_afterBackup, hstorable, shown_column accepted]
    simp [BackupRegister.lastBackup, List.filterMap_append, hbackup]

theorem session_register {c : Course} {log : Log} {n : ℕ} {t : Table}
    (h : PrekeySession c (KeepsBackup c) KeyedTable.empty log n t) (u d : JsString) :
    shown (backupIn (devices t (u, d))) = (lastBackup c u d log).map .json := by
  induction h with
  | start => rfl
  | serve before hok served ih =>
    have ht := session_regular regular_empty before
    exact DeviceStep.lastBackup ((serve_step ht served).device u d) ht hok ih

/-- An accepted backup names the device that it is stored for. -/
theorem DeviceStep.backup_device {c : Course} {n m : ℕ} {u d : JsString} {t' : Table}
    {request : Request} {answers : List Answer} {old new : Option Record} {encryptedBundle : Json}
    (hstep : DeviceStep c n m u d t' request answers old new)
    (h : backupOf c u d ⟨request, n, m, answers, t'⟩ = some encryptedBundle) :
    c.asText ((Value.json encryptedBundle).field "deviceId") = some d := by
  cases hstep with
  | other hbackup _ =>
    rw [hbackup] at h
    cases h
  | published _ _ => cases h
  | consumed _ _ _ => cases h
  | backedUp accepted _ _ hbackup _ =>
    rw [hbackup, Option.some.injEq] at h
    have hchecked := checkBackup_ok accepted.checked
    rw [← h, Value.json_column_field hchecked.2.1, hchecked.2.2]
    exact accepted.device

theorem session_backup_device {c : Course} {ok : Table → Request → Prop} {log : Log} {n : ℕ}
    {t : Table} (h : PrekeySession c ok KeyedTable.empty log n t) {u d : JsString}
    {encryptedBundle : Json} (hlast : lastBackup c u d log = some encryptedBundle) :
    c.asText ((Value.json encryptedBundle).field "deviceId") = some d := by
  have hlog : ∀ x ∈ log, ∀ e ∈ backupOf c u d x,
      c.asText ((Value.json e).field "deviceId") = some d := by
    clear hlast
    induction h with
    | start => simp
    | serve before _ served ih =>
      intro x hx e he
      rcases List.mem_append.mp hx with hx | hx
      · exact ih x hx e he
      · obtain rfl := List.mem_singleton.mp hx
        have hstep := serve_step (session_regular regular_empty before) served
        exact DeviceStep.backup_device (hstep.device u d) he
  obtain ⟨x, hx, he⟩ := List.mem_filterMap.mp (List.mem_of_getLast? hlast)
  exact hlog x hx encryptedBundle he

def fetchPhone : Request := .getSignalKeys (some (js "bob")) (.json (.str (js "phone")))

/-- A backup, and then a publication of prekeys. -/
def published (bundle : Json) (ok : Table → Request → Prop)
    [∀ t request, Decidable (ok t request)] : Log × ℕ × Table :=
  sessionOf (serve steady.conditions) ok KeyedTable.empty
    [.storeSignalKeys (some (js "bob")) PrekeyReuse.backupBody,
      .postPrekeys (js "bob") (publication "phone" bundle)]

def kept : Log × ℕ × Table :=
  published (.obj [(js "identityKey", .str (js "idk")), (js "preKeys", .arr [])])
    (KeepsBackup steady)

/-- The published bundle carries an empty backup of its own. -/
def erased : Log × ℕ × Table :=
  published (.obj [(js "identityKey", .str (js "idk")), (js "preKeys", .arr []),
    (js "_encryptedKeyBundle", .null)]) AnyRequest

/-- A backup whose version is too large for a double. -/
def infinite : Log × ℕ × Table :=
  sessionOf (serve steady.conditions) AnyRequest KeyedTable.empty
    [.storeSignalKeys (some (js "bob")) (.json (.obj [(js "deviceId", .str (js "phone")),
      (js "encryptedBundle", .obj [(js "encrypted", .str (js "e")), (js "iv", .str (js "i")),
        (js "salt", .str (js "s")), (js "version", .num (.infinite false)),
        (js "deviceId", .str (js "phone"))])]))]

/-- After these sessions the answer is not the last backup. -/
def Lost (session : Log × ℕ × Table) : Prop :=
  (serve steady.conditions fetchPhone session.2.1 session.2.2).map Prod.fst ≠
    some [keysAnswer (js "phone") (lastBackup steady (js "bob") (js "phone") session.1)]

instance (session : Log × ℕ × Table) : Decidable (Lost session) :=
  inferInstanceAs (Decidable (_ ≠ _))

theorem Lost.not_register {session : Log × ℕ × Table} (h : Lost session) :
    ¬ ∃ m, serve steady.conditions fetchPhone session.2.1 session.2.2 =
      some ([keysAnswer (js "phone") (lastBackup steady (js "bob") (js "phone") session.1)], m,
        session.2.2) := by
  rintro ⟨m, hserve⟩
  exact h (congrArg (Option.map Prod.fst) hserve)

end ChatMicroservices.BackupRegister
