import ChatMicroservices.PrekeyOutcomes

/-!
# What `getPrekeyBundle` answers and stores

The outcome for a table with any bundles, also those that no client should have published.
The choice of a row and the consumption can throw; otherwise the answer is the consumed
bundle of the chosen row, and at most that row changes.
-/

namespace ChatMicroservices.BundleOutcomes
open JavaScriptValues JsonColumns EffectPrograms SequentialPrograms KeyedTables PrekeyBundles
open PrekeyDatabase PrekeyController PrekeyConservation PrekeyPools PrekeyDevices PrekeyRequests

theorem find_some {p : Prekey → Except JsError Bool} {rows : List Prekey} {r : Prekey}
    (h : find p rows = .ok (some r)) : r ∈ rows ∧ p r = .ok true := by
  induction rows with
  | nil => cases h
  | cons b rows ih =>
    obtain ⟨found, hb, h⟩ := ok_of_bind h
    cases found with
    | false =>
      obtain ⟨hr, hp⟩ := ih h
      exact ⟨List.mem_cons_of_mem b hr, hp⟩
    | true =>
      obtain rfl := Option.some.inj (Except.ok.inj h)
      exact ⟨List.mem_cons_self, hb⟩

theorem published_of_hasOneTimePreKey {r : Prekey} (h : hasOneTimePreKey r = .ok true) :
    isPrekeyBundle r.bundle = .ok true := by
  obtain ⟨published, hb, h⟩ := ok_of_bind h
  cases published with
  | false => exact nomatch h
  | true => exact hb

/-- The chosen row is one of the rows and is published. -/
theorem chosenBundle_some {rows : List Prekey} {r : Prekey}
    (h : chosenBundle rows = .ok (some r)) : r ∈ rows ∧ isPrekeyBundle r.bundle = .ok true := by
  obtain ⟨first, hf, h⟩ := ok_of_bind h
  cases first with
  | some b =>
    obtain rfl := Option.some.inj (Except.ok.inj h)
    obtain ⟨hmem, hp⟩ := find_some hf
    exact ⟨hmem, published_of_hasOneTimePreKey hp⟩
  | none => exact find_some h

/-- Why a request that starts at moment `n` gets no bundle. -/
inductive BundleRefused (e : ℕ → Conditions) (u : JsString) (n : ℕ) (t : Table) : Prop where
  | unnamed (h : u = [])
  | failed {k} (hk : n ≤ k) (h : (e k).failure ≠ none)
  | unchosen {x} (h : chosenBundle (listing u t.rows) = .error x)
  | unconsumed {r x} (h : chosenBundle (listing u t.rows) = .ok (some r))
      (hx : consumeOneTimePreKey r.bundle = .error x)

/-- What the consumption of a row leaves in the table. -/
def Remains (t : Table) (r : Prekey) (result : PreKeyConsumptionResult) (t' : Table) : Prop :=
  match result.consumed, result.storedBundle with
  | true, some bundle => Puts t (pair r) ⟨stored bundle, r.lastBackupTimestamp⟩ t'
  | _, _ => t' = t

inductive BundleOutcome (e : ℕ → Conditions) (u : JsString) (n : ℕ) (t : Table) :
    List Answer → Table → Prop where
  | refused {answers} (hanswers : ∀ a ∈ answers, ∃ x, a = .next x)
      (reason : BundleRefused e u n t) : BundleOutcome e u n t answers t
  | missing (h : chosenBundle (listing u t.rows) = .ok none) :
      BundleOutcome e u n t [.next (.apiError 404 "No prekey bundle found for user")] t
  | served {r result t'} (chosen : chosenBundle (listing u t.rows) = .ok (some r))
      (consumed : consumeOneTimePreKey r.bundle = .ok result) (remains : Remains t r result t') :
      BundleOutcome e u n t [.bundle r.userId r.deviceId result.clientBundle] t'

/-- A transaction over the table `t` with these writes, before its answer. -/
structure InTransaction (t : Table) (writes : List Write) (s : Database Unit) : Prop where
  prekeys : s.prekeys = t
  pending : s.pending () = some writes
  unanswered : s.answers () = []

theorem InTransaction.view {t : Table} {s : Database Unit} (h : InTransaction t [] s) :
    s.view () .queryRunner = t := by
  simp [Database.view, h.pending, h.prekeys]

theorem InTransaction.write {t : Table} {s : Database Unit} (h : InTransaction t [] s)
    (w : Write) : InTransaction t [w] (s.write () .queryRunner w) := by
  refine ⟨?_, ?_, ?_⟩
  · simp [Database.write, h.pending, h.prekeys]
  · simp [Database.write, h.pending]
  · simp [Database.write, h.pending, h.unanswered]

section Transactions

variable {e : ℕ → Conditions} {u : JsString} {n m : ℕ} {t : Table} {s : Database Unit}

/-- The postcondition of the `try` block: an exception has changed nothing. -/
def Attempted (e : ℕ → Conditions) (u : JsString) (n : ℕ) (t : Table) :
    Except JsError Unit → ℕ → Database Unit → Prop
  | .ok _, _, s => BundleOutcome e u n t (s.answers ()) s.prekeys
  | .error _, _, s => s.prekeys = t ∧ s.answers () = [] ∧ BundleRefused e u n t

theorem leads_commit {writes : List Write} {f : Unit → Handler Unit}
    (hs : InTransaction t writes s) (hm : n ≤ m)
    (hok : ∀ s', s'.prekeys = writes.foldl (fun t w => w.apply t) t → s'.answers () = [] →
      Leads alone e (Attempted e u n t) (f ()) (m + 1) s') :
    Leads alone e (Attempted e u n t)
      ((Program.attempt (perform .commitTransaction)).bind f) m s := by
  cases hf : (e m).failure with
  | some x =>
    refine ⟨.error x, s.endTransaction (), ?_, hs.prekeys, hs.unanswered, ?_⟩
    · simp [alone, exec, hs.pending, hf]
    · exact .failed hm (by simp [hf])
  | none =>
    refine ⟨.ok (), s.commit (), ?_, hok (s.commit ()) ?_ hs.unanswered⟩
    · simp [alone, exec, hs.pending, hf]
    · simp [Database.commit, Database.view, hs.pending, hs.prekeys]

theorem noBundle_leads (hs : InTransaction t [] s) (hm : n ≤ m)
    (h : chosenBundle (listing u t.rows) = .ok none) :
    Leads alone e (Attempted e u n t) noBundle m s := by
  refine leads_commit hs hm fun s' hprekeys hanswers => (leads_respond _).mpr ?_
  simp only [Attempted, respond_unanswered hanswers, respond_prekeys, hprekeys]
  exact .missing h

theorem respondBundle_leads {writes : List Write} {r : Prekey} {result : PreKeyConsumptionResult}
    (hs : InTransaction t writes s) (hm : n ≤ m)
    (chosen : chosenBundle (listing u t.rows) = .ok (some r))
    (consumed : consumeOneTimePreKey r.bundle = .ok result)
    (remains : Remains t r result (writes.foldl (fun t w => w.apply t) t)) :
    Leads alone e (Attempted e u n t) (respondBundle r result.clientBundle) m s := by
  refine leads_commit hs hm fun s' hprekeys hanswers => (leads_respond _).mpr ?_
  simp only [Attempted, respond_unanswered hanswers, respond_prekeys, hprekeys]
  exact .served chosen consumed remains

/-- `save` inside the transaction collects its write. -/
theorem saveConsumed_leads (ht : Regular t) (hs : InTransaction t [] s) (hm : n ≤ m) {r : Prekey}
    (hr : r ∈ t.rows) {entity : Prekey} (hid : entity.id = r.id) {f : Unit → Handler Unit}
    (hok : ∀ m' writes s', n ≤ m' → InTransaction t writes s' →
      Puts t (pair r) (saved entity) (writes.foldl (fun t w => w.apply t) t) →
      Leads alone e (Attempted e u n t) (f ()) m' s') :
    Leads alone e (Attempted e u n t) ((save .queryRunner entity).bind f) m s := by
  have hfind : t.find entity.id = some r := KeyedTable.find_eq_some.mpr ⟨hr, hid.symm⟩
  simp only [save, Program.bind_eq, Program.bind_assoc]
  refine leads_reread ?_ fun _ => ?_
  · intro x hx
    exact ⟨hs.prekeys, hs.unanswered, .failed hm (by simp [hx])⟩
  · simp only [hs.view, hfind]
    split
    · rename_i hsame
      exact hok (m + 1) [] s (by omega) hs (puts_save ht hr hsame)
    · refine leads_update ?_ fun _ => ?_
      · intro x hx
        exact ⟨hs.prekeys, hs.unanswered, .failed (k := m + 1) (by omega) (by simp [hx])⟩
      · rw [hid]
        exact hok (m + 2) [.update r.id (changesFrom entity r) (e (m + 1)).now] _ (by omega)
          (hs.write _) (puts_update ht hr entity _)

theorem consumeFrom_leads (ht : Regular t) (hs : InTransaction t [] s) (hm : n ≤ m) {r : Prekey}
    (chosen : chosenBundle (listing u t.rows) = .ok (some r)) :
    Leads alone e (Attempted e u n t) (consumeFrom r) m s := by
  have hr : r ∈ t.rows := (mem_listing.mp (chosenBundle_some chosen).1).1
  unfold consumeFrom
  cases hconsume : consumeOneTimePreKey r.bundle with
  | error x => exact ⟨hs.prekeys, hs.unanswered, .unconsumed chosen hconsume⟩
  | ok result =>
    have hidle : Remains t r result t → Leads alone e (Attempted e u n t)
        (respondBundle r result.clientBundle) m s :=
      fun h => respondBundle_leads hs hm chosen hconsume h
    simp only [sync, Program.bind_eq, Program.bind_ok]
    cases hc : result.consumed with
    | false => exact hidle (by simp [Remains, hc])
    | true =>
      cases hb : result.storedBundle with
      | none => exact hidle (by simp [Remains, hc, hb])
      | some bundle =>
        refine saveConsumed_leads ht hs hm hr ?_ ?_
        · rfl
        · intro m' writes s' hm' hs' hput
          refine respondBundle_leads hs' hm' chosen hconsume ?_
          simp only [Remains, hc, hb]
          exact hput

/-- What follows the lock. -/
theorem locked_leads (ht : Regular t) (hs : InTransaction t [] s) (hm : n ≤ m) :
    Leads alone e (Attempted e u n t)
      (if listing u t.rows = [] then noBundle
      else (sync (chosenBundle (listing u t.rows))).bind fun chosen =>
        match chosen with
        | none => noBundle
        | some chosen => (sync (isPrekeyBundle chosen.bundle)).bind fun published =>
          if published then consumeFrom chosen else noBundle) m s := by
  split
  · rename_i hempty
    refine noBundle_leads hs hm ?_
    rw [hempty]
    rfl
  · cases hchosen : chosenBundle (listing u t.rows) with
    | error x => exact ⟨hs.prekeys, hs.unanswered, .unchosen hchosen⟩
    | ok chosen =>
      cases chosen with
      | none => exact noBundle_leads hs hm hchosen
      | some r =>
        simp only [sync, Program.bind_ok, (chosenBundle_some hchosen).2, if_true]
        exact consumeFrom_leads ht hs hm hchosen

theorem handOut_leads (ht : Regular t) (hs : InTransaction t [] s) (hm : n ≤ m) :
    Leads alone e (Attempted e u n t) (handOut u) m s := by
  cases hf : (e m).failure with
  | some x =>
    refine ⟨.error x, s, ?_, hs.prekeys, hs.unanswered, .failed hm (by simp [hf])⟩
    simp [alone, exec, hf]
  | none =>
    refine ⟨.ok (listing u t.rows),
      { s with locks := s.locks.acquire () ((listing u t.rows).map Prekey.id) }, ?_, ?_⟩
    · simp [alone, exec, hf, hs.view, available]
    · exact locked_leads ht ⟨hs.prekeys, hs.pending, hs.unanswered⟩ (by omega)

theorem rollbackAndForward_leads (x : JsError) (hprekeys : s.prekeys = t)
    (hanswers : s.answers () = []) (reason : BundleRefused e u n t) :
    Leads alone e (fun _ _ s' => BundleOutcome e u n t (s'.answers ()) s'.prekeys)
      (rollbackAndForward x) m s := by
  have hforward : ∀ m', Leads alone e
      (fun _ _ s' => BundleOutcome e u n t (s'.answers ()) s'.prekeys)
      (perform (.respond (.next x))) m' (s.endTransaction ()) := by
    intro m'
    have hended : (s.endTransaction ()).answers () = [] := hanswers
    refine (leads_respond _).mpr ?_
    rw [respond_unanswered hended, respond_prekeys]
    have hsame : (s.endTransaction ()).prekeys = t := hprekeys
    rw [hsame]
    exact .refused (by simp) reason
  refine ⟨(e m).outcome (), s.endTransaction (), rfl, ?_⟩
  cases hf : (e m).failure with
  | none =>
    simp only [Conditions.outcome, hf]
    exact hforward (m + 1)
  | some y =>
    simp only [Conditions.outcome, hf]
    exact hforward (m + 1)

end Transactions

/-- What a request for a bundle answers and stores. -/
theorem getPrekeyBundle_serves (e : ℕ → Conditions) (u : JsString) (n : ℕ) {t : Table}
    (ht : Regular t) :
    Serves e (getPrekeyBundle u) (fun answers _ t' => BundleOutcome e u n t answers t') n t := by
  unfold getPrekeyBundle
  split
  · rename_i hu
    exact (leads_respond _).mpr (.refused (by simp) (.unnamed hu))
  · refine ⟨(e n).outcome (), untouched Unit t, rfl, ?_⟩
    cases hf : (e n).failure with
    | some x =>
      simp only [Conditions.outcome, hf]
      exact .refused (by simp [untouched]) (.failed (Nat.le_refl n) (by simp [hf]))
    | none =>
      simp only [Conditions.outcome, hf]
      cases hf' : (e (n + 1)).failure with
      | some x =>
        refine ⟨.error x, untouched Unit t, by simp [alone, exec, hf'], ?_⟩
        exact .refused (by simp [untouched]) (.failed (k := n + 1) (by omega) (by simp [hf']))
      | none =>
        refine ⟨.ok (), { untouched Unit t with
          pending := Function.update (untouched Unit t).pending () (some []) },
          by simp [alone, exec, hf'], ?_⟩
        have hs : InTransaction t [] { untouched Unit t with
            pending := Function.update (untouched Unit t).pending () (some []) } :=
          ⟨rfl, by simp, rfl⟩
        have hbody : Leads alone e
            (fun _ _ s => BundleOutcome e u n t (s.answers ()) s.prekeys)
            (Program.tryCatch (handOut u) rollbackAndForward) (n + 2)
            { untouched Unit t with
              pending := Function.update (untouched Unit t).pending () (some []) } := by
          refine (handOut_leads ht hs (by omega)).tryCatch (fun _ _ _ _ h => h) ?_
          rintro x m s - ⟨hprekeys, hanswers, reason⟩
          exact rollbackAndForward_leads x hprekeys hanswers reason
        refine hbody.tryFinally fun r m s _ h => ?_
        refine ⟨(e m).outcome (), s, rfl, ?_⟩
        cases hf'' : (e m).failure with
        | none =>
          simp only [Conditions.outcome, hf'']
          exact h
        | some x =>
          simp only [Conditions.outcome, hf'']
          exact h

end ChatMicroservices.BundleOutcomes
