import ChatMicroservices.PrekeySessions

/-!
# The rate limit of backups

Over whole sessions: the table never has two rows for a device, two successful backups of a
device are at least 24 hours apart, and the limit refuses no other backup. The time of a
backup is the reading of the clock that it stores.
-/

namespace ChatMicroservices.BackupRateLimit
open JavaScriptValues KeyedTables PrekeyBundles PrekeyDatabase SequentialPrograms
open PrekeyDevices PrekeyRequests PrekeyOutcomes PrekeySessions

/-- The times of the successful backups of a device, in the order of the log. -/
def backupTimes (c : Course) (u d : JsString) (log : Log) : List ℕ :=
  log.filterMap fun x => if BackedUp c u d x then backupTime (devices x.state (u, d)) else none

/-- Every time is at least one interval after the time before it. -/
def Apart (times : List ℕ) : Prop := times.Pairwise fun s s' => s + backupInterval ≤ s'

theorem apart_append {times : List ℕ} (h : Apart times) {now : ℕ}
    (hlast : ∀ last, times.getLast? = some last → last + backupInterval ≤ now) :
    Apart (times ++ [now]) := by
  rw [Apart, List.pairwise_append]
  refine ⟨h, List.pairwise_singleton _ _, fun s hs s' hs' => ?_⟩
  obtain rfl := List.mem_singleton.mp hs'
  -- every time is the last one or an interval before it
  cases times using List.reverseRecOn with
  | nil => cases hs
  | append_singleton before last =>
    have hnow := hlast last (by simp)
    rw [Apart, List.pairwise_append] at h
    rcases List.mem_append.mp hs with hs | hs
    · have hle := h.2.2 s hs last (by simp)
      omega
    · rw [List.mem_singleton] at hs
      omega

/-- What a session keeps for one device. -/
structure Limited (c : Course) (u d : JsString) (log : Log) (t : Table) : Prop where
  stored : backupTime (devices t (u, d)) = (backupTimes c u d log).getLast?
  apart : Apart (backupTimes c u d log)
  read : ∀ x ∈ log, BackedUp c u d x → ∃ k, x.start ≤ k ∧ k < x.finish ∧
    backupTime (devices x.state (u, d)) = some (c.now k)

theorem Limited.step {c : Course} {u d : JsString} {log : Log} {n m : ℕ} {t t' : Table}
    {request : Request} {answers : List Answer} (h : Limited c u d log t)
    (hstep : DeviceStep c n m u d t' request answers (devices t (u, d)) (devices t' (u, d))) :
    Limited c u d (log ++ [⟨request, n, m, answers, t'⟩]) t' := by
  -- a step that is no backup of the device leaves its time and its part of the log alone
  have hkeep : backupOf c u d ⟨request, n, m, answers, t'⟩ = none →
      backupTime (devices t' (u, d)) = backupTime (devices t (u, d)) →
      Limited c u d (log ++ [⟨request, n, m, answers, t'⟩]) t' := by
    intro hnone htime
    have hno : ¬ BackedUp c u d ⟨request, n, m, answers, t'⟩ := by simp [BackedUp, hnone]
    have htimes : backupTimes c u d (log ++ [⟨request, n, m, answers, t'⟩]) =
        backupTimes c u d log := by
      simp [backupTimes, List.filterMap_append, hno]
    refine ⟨?_, ?_, fun x hx hback => ?_⟩
    · rw [htimes, htime, h.stored]
    · rw [htimes]
      exact h.apart
    · rcases List.mem_append.mp hx with hx | hx
      · exact h.read x hx hback
      · obtain rfl := List.mem_singleton.mp hx
        exact absurd hback hno
  generalize hold : devices t (u, d) = old at hstep hkeep
  generalize hnew : devices t' (u, d) = new at hstep hkeep
  cases hstep with
  | other hbackup _ => exact hkeep hbackup rfl
  | published _ _ =>
    refine hkeep rfl ?_
    cases old <;> rfl
  | consumed _ _ _ => exact hkeep rfl rfl
  | @backedUp userId body _ _ k accepted hk hm hbackup rate =>
    have hback : BackedUp c u d ⟨.storeSignalKeys userId body, n, m, answers, t'⟩ := by
      rw [BackedUp, hbackup]
      rfl
    have htime : backupTime (devices t' (u, d)) = some (c.now k) := by
      rw [hnew]
      rfl
    have htimes : backupTimes c u d (log ++ [⟨.storeSignalKeys userId body, n, m, answers, t'⟩]) =
        backupTimes c u d log ++ [c.now k] := by
      simp [backupTimes, List.filterMap_append, hback, htime]
    refine ⟨?_, ?_, fun x hx hx' => ?_⟩
    · rw [htimes, htime, List.getLast?_append, List.getLast?_singleton, Option.some_or]
    · rw [htimes]
      refine apart_append h.apart fun last hlast => rate last ?_
      rw [← hold, h.stored, hlast]
    · rcases List.mem_append.mp hx with hx | hx
      · exact h.read x hx hx'
      · obtain rfl := List.mem_singleton.mp hx
        exact ⟨k, hk, hm, htime⟩

theorem session_limited {c : Course} {ok : Table → Request → Prop} {log : Log} {n : ℕ}
    {t : Table} (h : PrekeySession c ok KeyedTable.empty log n t) (u d : JsString) :
    Limited c u d log t := by
  induction h with
  | start => exact ⟨rfl, List.Pairwise.nil, by simp⟩
  | serve before _ served ih =>
    exact ih.step ((serve_step (session_regular regular_empty before) served).device u d)

/-- A well-formed backup in time is stored, while the database works and makes new keys. -/
theorem backup_served {c : Course} {userId : Option JsString} {body : Value} {u d : JsString}
    {n : ℕ} {t : Table} (ht : Regular t) (haccepted : BackupAccepted c userId body u d)
    (hcalm : ∀ k, n ≤ k → (c.conditions k).failure = none)
    (hfresh : ∀ k, n ≤ k → (c.conditions k).newId ∉ t.rows.map Prekey.id)
    (hrate : ∀ last, backupTime (devices t (u, d)) = some last →
      last + backupInterval ≤ c.now n) :
    ∃ text m t', serve c.conditions (.storeSignalKeys userId body) n t =
      some ([.message 200 text], m, t') := by
  obtain ⟨answers, m, t', hserve⟩ := serve_total c (.storeSignalKeys userId body) n ht
  cases (storeSignalKeys_serves c userId body n ht).apply hserve with
  | stored _ _ _ _ _ => exact ⟨_, m, t', hserve⟩
  | refused hanswers reason =>
    cases reason with
    | malformed h => exact absurd haccepted (h u d)
    | failed hk h => exact absurd (hcalm _ hk) h
    | taken hk h => exact absurd h (hfresh _ hk)
    | early haccepted' hlast hk h =>
      obtain rfl := Option.some.inj (haccepted.user.symm.trans haccepted'.user)
      obtain rfl := Option.some.inj (haccepted.device.symm.trans haccepted'.device)
      have hle := (hrate _ hlast).trans (c.clock hk)
      exact absurd h (not_lt.mpr hle)

/-- The database works, every key is new, and 5 hours pass with each effect. -/
def fiveHours : Course where
  conditions n := { PrekeyConservation.calm with
    now := 5 * (1000 * 60 * 60) * n
    newId := js (toString n) }
  asText := PrekeyConservation.calm.asText
  reads _ := rfl
  clock _ _ h := Nat.mul_le_mul_left _ h

/-- A backup, another one that comes too early, and one on the next day. -/
def threeBackups : Log × ℕ × Table :=
  sessionOf (serve fiveHours.conditions) AnyRequest KeyedTable.empty
    (List.replicate 3 (.storeSignalKeys (some (js "bob")) PrekeyReuse.backupBody))

end ChatMicroservices.BackupRateLimit
