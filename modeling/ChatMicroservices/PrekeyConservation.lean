import ChatMicroservices.PrekeyHandOut
import Mathlib.Logic.Function.Iterate

/-!
# Conservation of the one-time prekeys

Any number of concurrent `getPrekeyBundle` requests for one user, each of which can fail at
any statement. The commits take the prekeys of the user's devices in listing order, every
answer carries what its commit took, and nothing else changes as long as no bundle has a
property `__proto__`, which is lost when the bundle is copied without a prekey.
-/

namespace ChatMicroservices.PrekeyConservation
open JavaScriptValues JavaScriptOperators JsonColumns EffectPrograms ConcurrentPrograms
open KeyedTables OrderedPools
open PrekeyBundles PrekeyDatabase PrekeyController PrekeyPools PrekeyProtocol PrekeyHandOut

/-- A table before any request. -/
def untouched (ι : Type) (t : Table) : Database ι :=
  ⟨t, fun _ => none, fun _ => none, [], fun _ => []⟩

/-- Requests for the bundle of one user before their first statement. -/
def start (ι : Type) (userId : JsString) (t : Table) :
    Pool ι Ans JsError Unit (Database ι) :=
  ⟨untouched ι t, fun _ => getPrekeyBundle userId⟩

/-- The same row with another pool; the time of the update may differ too. -/
structure SameDevice (r r' : Prekey) : Prop where
  id : r'.id = r.id
  userId : r'.userId = r.userId
  deviceId : r'.deviceId = r.deviceId
  bundle : SameButPool r.bundle r'.bundle
  lastBackupTimestamp : r'.lastBackupTimestamp = r.lastBackupTimestamp
  createdAt : r'.createdAt = r.createdAt

theorem SameDevice.refl (r : Prekey) : SameDevice r r :=
  ⟨rfl, rfl, rfl, SameButPool.refl r.bundle, rfl, rfl⟩

/-- A copy of the bundle keeps all its properties. -/
def Intact (r : Prekey) : Prop := lookup (js "__proto__") (spread r.bundle) = none

instance : DecidablePred Intact := fun _ => inferInstanceAs (Decidable (_ = none))

theorem SameDevice.consume {r r' : Prekey} (h : SameDevice r r')
    (hb : isPrekeyBundle r'.bundle = .ok true) (hintact : Intact r') {ks : List Json}
    (hstored : stored (withPreKeys r'.bundle ks) = withPreKeys r'.bundle ks) (now : ℕ) :
    SameDevice r ((consumption r' ks).apply now r') := by
  refine ⟨h.id, h.userId, h.deviceId, h.bundle.trans ?_, h.lastBackupTimestamp, h.createdAt⟩
  change SameButPool r'.bundle (stored (withPreKeys r'.bundle ks))
  rw [hstored]
  exact sameButPool_withPreKeys hb hintact ks

/-- After `n` commits the pools have lost `n` prekeys, if they had so many. -/
structure Drained (userId : JsString) (t : Table) (n : ℕ) (rows : List Prekey) : Prop where
  pools : pools userId rows = draw^[n] (pools userId t.rows)
  intact : ∀ r ∈ stocked userId rows, Intact r
  rows : List.Forall₂ SameDevice t.rows rows

/-- What is stocked after a consumption was stocked before, and has lost a prekey at most. -/
theorem intact_consume {userId : JsString} {t : Table} {c : Prekey} {ks : List Json} {now : ℕ}
    (hintact : ∀ r ∈ stocked userId t.rows, Intact r) (hc : c ∈ stocked userId t.rows)
    (hstored : stored (withPreKeys c.bundle ks) = withPreKeys c.bundle ks) :
    ∀ r ∈ stocked userId ((Write.update c.id (consumption c ks) now).apply t).rows,
      Intact r := by
  intro r hr
  obtain ⟨hmem, huser, hstocked⟩ := mem_stocked.mp hr
  rw [update_rows, List.mem_map] at hmem
  obtain ⟨r₀, hr₀, rfl⟩ := hmem
  by_cases hid : r₀.id = c.id
  · obtain rfl : r₀ = c := t.eq_of_key_eq hr₀ (mem_stocked.mp hc).1 hid
    rw [if_pos rfl]
    change lookup (js "__proto__") (spread (stored (withPreKeys r₀.bundle ks))) = none
    rw [hstored, lookup_withPreKeys (by decide) fun _ => hintact r₀ hc]
    exact hintact r₀ hc
  · rw [if_neg hid] at huser hstocked ⊢
    exact hintact r₀ (mem_stocked.mpr ⟨hr₀, huser, hstocked⟩)

theorem drained_stable (userId : JsString) (t : Table) : Stable userId (Drained userId t) where
  idle := by
    intro n rows h hempty
    refine ⟨?_, h.intact, h.rows⟩
    rw [Function.iterate_succ_apply', ← h.pools]
    exact (draw_of_empty hempty).symm
  consume := by
    intro n t' c ks now h hc hwf hconsumed hpools
    obtain ⟨hmem, -, hstocked⟩ := mem_stocked.mp hc
    have hb : isPrekeyBundle c.bundle = .ok true :=
      hwf.published (by simpa [Stocked] using hstocked)
    refine ⟨?_, intact_consume h.intact hc hconsumed.storable, ?_⟩
    · rw [hpools, h.pools, Function.iterate_succ_apply']
    · rw [update_rows, List.forall₂_map_right_iff, List.forall₂_iff_zip]
      obtain ⟨hlength, hsame⟩ := List.forall₂_iff_zip.mp h.rows
      refine ⟨hlength, fun {r r'} hr => ?_⟩
      split
      · rename_i hid
        obtain rfl : r' = c := t'.eq_of_key_eq (List.of_mem_zip hr).2 hmem hid
        exact (hsame hr).consume hb (h.intact r' hc) hconsumed.storable now
      · exact hsame hr

/-- What holds at every moment of a run from the table `t`, and of all its answers. -/
structure Conserved {ι : Type} (userId : JsString) (t : Table) (s : Database ι) : Prop where
  pools : pools userId s.prekeys.rows = draw^[s.history.length] (pools userId t.rows)
  remaining : remaining userId s.prekeys.rows =
    (remaining userId t.rows).drop s.history.length
  rows : List.Forall₂ SameDevice t.rows s.prekeys.rows
  single : ∀ i, (s.answers i).length ≤ 1
  answered : ∀ i user device bundle, .bundle user device bundle ∈ s.answers i →
    Settled (PrekeyPools.remaining userId t.rows) i s
  aborted : ∀ i, i ∉ s.history → handedOut (s.answers i) = []
  exhausted : ∀ i user device bundle, .bundle user device bundle ∈ s.answers i →
    bundle.preKeys = [] → PrekeyPools.remaining userId s.prekeys.rows = []

section Runs

variable {ι : Type} {userId : JsString} {t : Table}

theorem untouched_inv (hwf : ∀ r ∈ t.rows, r.userId = userId → WellFormed r.bundle)
    (hintact : ∀ r ∈ stocked userId t.rows, Intact r) :
    Inv userId (remaining userId t.rows) (Drained userId t) (untouched ι t) where
  pool := rfl
  wellFormed := hwf
  kept := ⟨rfl, hintact, List.forall₂_same.mpr fun r _ => SameDevice.refl r⟩
  once := List.nodup_nil
  single _ := Nat.zero_le _
  settled := by simp [untouched]

theorem not_mem_history_of_unanswered {s : Database ι} {i : ι} {total : List (JsString × Json)}
    (hsettled : ∀ user device bundle, .bundle user device bundle ∈ s.answers i →
      Settled total i s) (hi : i ∉ s.history) : handedOut (s.answers i) = [] := by
  unfold handedOut
  rw [List.flatMap_eq_nil_iff]
  intro a ha
  cases a with
  | bundle user device bundle =>
    obtain ⟨n, hn, -⟩ := hsettled user device bundle ha
    exact absurd (List.mem_of_getElem? hn) hi
  | keys _ _ | invalid _ | message _ _ | next _ => rfl

theorem conserved_of_inv {s : Database ι}
    (h : Inv userId (remaining userId t.rows) (Drained userId t) s) : Conserved userId t s where
  pools := h.kept.pools
  remaining := h.pool
  rows := h.kept.rows
  single := h.single
  answered := h.settled
  aborted i hi := not_mem_history_of_unanswered (h.settled i) hi
  exhausted := by
    intro i user device bundle hb hempty
    obtain ⟨n, hn, ha⟩ := h.settled i user device bundle hb
    have hnone : (remaining userId t.rows)[n]? = none := by
      obtain ⟨before, after, hanswers⟩ := List.append_of_mem hb
      have hsingle := h.single i
      rw [hanswers] at hsingle ha
      simp only [List.length_append, List.length_cons] at hsingle
      obtain rfl : before = [] := List.length_eq_zero_iff.mp (by omega)
      obtain rfl : after = [] := List.length_eq_zero_iff.mp (by omega)
      have hnil : ((remaining userId t.rows)[n]?).toList = [] := by
        rw [← ha]
        simp [handedOut, hempty]
      simpa using hnil
    rw [h.pool, List.drop_eq_nil_iff]
    have hle := List.getElem?_eq_none_iff.mp hnone
    have hlt := (List.getElem?_eq_some_iff.mp hn).1
    omega

variable [DecidableEq ι]

/-- In every run of concurrent requests for bundles without a `__proto__` the prekeys are
conserved. When all committed requests have finished, their answers carry, in the order of the
commits, the first prekeys of the user, as many as there were commits. Rows change with commits
only. -/
theorem pool_conserved (hwf : ∀ r ∈ t.rows, r.userId = userId → WellFormed r.bundle)
    (hintact : ∀ r ∈ stocked userId t.rows, Intact r)
    {q : Pool ι Ans JsError Unit (Database ι)}
    (h : Steps exec Anything (start ι userId t) q) :
    Conserved userId t q.shared ∧
      ((∀ i ∈ q.shared.history, q.result i ≠ none) →
        (q.shared.history.flatMap fun i => handedOut (q.shared.answers i)) =
          (remaining userId t.rows).take q.shared.history.length) ∧
      ∀ r, Steps exec Anything q r → r.shared.history = q.shared.history →
        r.shared.prekeys = q.shared.prekeys := by
  have hinv := untouched_inv (ι := ι) hwf hintact
  have hsafe : ∀ i, Safe exec Anything
      (protocol userId (remaining userId t.rows) (Drained userId t) True) i
      (fun _ s => Outcome (remaining userId t.rows) i s)
      ((start ι userId t).threads i) (untouched ι t) :=
    fun i => getPrekeyBundle_safe (drained_stable userId t) ⟨List.not_mem_nil, rfl⟩
  obtain ⟨hq, hsafe'⟩ := h.safe hinv hsafe
  refine ⟨conserved_of_inv hq, fun hfinished => ?_, fun r hr hsame => ?_⟩
  · refine flatMap_eq_take fun n i hi => ?_
    obtain ⟨r, hr⟩ := Option.ne_none_iff_exists'.mp
      (hfinished i (List.mem_of_getElem? hi))
    rcases h.post hinv hsafe hr with habsent | ⟨m, hm, ha⟩
    · exact absurd (List.mem_of_getElem? hi) habsent
    · have hnm : n = m := by
        obtain ⟨hn', hi'⟩ := List.getElem?_eq_some_iff.mp hi
        obtain ⟨hm', hi''⟩ := List.getElem?_eq_some_iff.mp hm
        exact (hq.once.getElem_inj_iff).mp (hi'.trans hi''.symm)
      exact hnm ▸ ha
  · -- along the rest of the run the history only grows, and rows change only when it does
    have hmoves := hr.along (R := fun s s' : Database ι => s.history <+: s'.history ∧
      (s'.history = s.history → s'.prekeys = s.prekeys)) ?_ ?_ ?_ hq hsafe'
    · exact hmoves.2 hsame
    · exact fun s => ⟨List.prefix_refl _, fun _ => rfl⟩
    · rintro s s' s'' ⟨hp, hs⟩ ⟨hp', hs'⟩
      refine ⟨hp.trans hp', fun heq => ?_⟩
      have hmid : s'.history = s.history :=
        (hp.eq_of_length_le (heq ▸ hp'.length_le)).symm
      exact (hs' (heq.trans hmid.symm)).trans (hs hmid)
    · exact fun i s s' hg => ⟨hg.history, hg.unchanged trivial⟩

end Runs

def prekey (publicKey : String) : Json := .obj [(js "publicKey", .str (js publicKey))]

def published (preKeys : List Json) : Json :=
  .obj [(js "identityKey", .str (js "idk")), (js "preKeys", .arr preKeys)]

theorem wellFormed_published {preKeys : List Json} (h : Storable (.arr preKeys)) :
    WellFormed (published preKeys) :=
  wellFormed_withPreKeys (b := .obj [(js "identityKey", .str (js "idk"))]) rfl h

/-- A phone with one prekey, and a laptop that was registered before it with two. -/
def devices : Table :=
  ⟨[⟨js "r1", js "bob", js "laptop", published [prekey "b", prekey "c"], none, 0, 0⟩,
    ⟨js "r2", js "bob", js "phone", published [prekey "a"], none, 5, 5⟩], by decide⟩

theorem devices_wellFormed : ∀ r ∈ devices.rows, r.userId = js "bob" → WellFormed r.bundle := by
  intro r hr _
  simp only [devices, List.mem_cons, List.not_mem_nil, or_false] at hr
  rcases hr with rfl | rfl
  · exact wellFormed_published rfl
  · exact wellFormed_published rfl

theorem devices_intact : ∀ r ∈ stocked (js "bob") devices.rows, Intact r := by decide

def calm : Conditions where
  now := 10
  newId := js "r3"
  asText
    | .json (.str s) => some s
    | _ => none
  pick := 0
  failure := none

def failing : Conditions := { calm with failure := some (.failure "connection terminated") }

/-- Three requests: the first is served, the second fails when it saves, the third is served
while the second still holds the query runner. -/
def threeRequests : Pool (Fin 3) Ans JsError Unit (Database (Fin 3)) :=
  reach exec Anything
    (List.replicate 8 (0, calm) ++ List.replicate 4 (1, calm) ++ [(1, failing), (1, calm)] ++
      List.replicate 8 (2, calm) ++ List.replicate 2 (1, calm))
    (start (Fin 3) (js "bob") devices)

theorem threeRequests_conserved :
    threeRequests.shared.history = [0, 2] ∧
      handedOut (threeRequests.shared.answers 0) = [(js "phone", prekey "a")] ∧
      handedOut (threeRequests.shared.answers 1) = [] ∧
      handedOut (threeRequests.shared.answers 2) = [(js "laptop", prekey "b")] ∧
      Conserved (js "bob") devices threeRequests.shared :=
  ⟨by decide, by decide, by decide, by decide,
    (pool_conserved devices_wellFormed devices_intact (steps_reach _ _)).1⟩

/-- The request body of this publication has an own property `__proto__`. -/
def protoBundle : Json :=
  .obj [(js "identityKey", .str (js "idk")), (js "preKeys", .arr [prekey "a"]),
    (js "__proto__", .obj [(js "registrationId", .num (.finite 7))])]

def protoDevice : Table :=
  ⟨[⟨js "r1", js "bob", js "phone", protoBundle, none, 0, 0⟩], by decide⟩

/-- The one request for the bundle of the device, when it has finished. -/
def protoRequest : Pool (Fin 1) Ans JsError Unit (Database (Fin 1)) :=
  reach exec Anything (List.replicate 8 (0, calm)) (start (Fin 1) (js "bob") protoDevice)

/-- The request takes the prekey, and the stored bundle loses its `__proto__` as well. -/
theorem proto_not_conserved :
    (∀ r ∈ protoDevice.rows, r.userId = js "bob" → WellFormed r.bundle) ∧
      Steps exec Anything (start (Fin 1) (js "bob") protoDevice) protoRequest ∧
      handedOut (protoRequest.shared.answers 0) = [(js "phone", prekey "a")] ∧
      ¬ Conserved (js "bob") protoDevice protoRequest.shared := by
  refine ⟨fun r hr _ => ?_, steps_reach _ _, by decide, fun h => ?_⟩
  · obtain rfl := List.mem_singleton.mp hr
    exact ⟨rfl, _, rfl, fun v hv => ⟨[prekey "a"], (Option.some.inj hv).symm⟩⟩
  · have hlost : ∀ r ∈ protoRequest.shared.prekeys.rows,
        lookup (js "__proto__") (spread r.bundle) = none := by decide
    obtain ⟨r, rest, hsame, -, hrows⟩ := List.forall₂_cons_left_iff.mp h.rows
    have hkept := hsame.bundle.fields (js "__proto__") (by decide)
    rw [hlost r (hrows ▸ List.mem_cons_self)] at hkept
    cases hkept

end ChatMicroservices.PrekeyConservation
