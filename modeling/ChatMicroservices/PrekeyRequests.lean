import ChatMicroservices.PrekeyConservation
import ChatMicroservices.PrekeyDevices
import ChatMicroservices.PrekeyValidation
import ChatMicroservices.SequentialPrograms
import Mathlib.Tactic.Linarith
import Mathlib.Tactic.NormNum

/-!
# Prekey requests one after another

Sessions of the four prekey requests, each handled to completion before the next. A request
starts with no transaction and no lock, so the table is all that one request leaves to the
next. For each request one theorem says what it answers and which device it changes.
-/

namespace ChatMicroservices.PrekeyRequests
open JavaScriptValues EffectPrograms SequentialPrograms KeyedTables PrekeyBundles
open PrekeyDatabase PrekeyController PrekeyValidation PrekeyConservation PrekeyDevices

inductive Request where
  | postPrekeys (userId : JsString) (body : Value)
  | getPrekeyBundle (userId : JsString)
  | storeSignalKeys (userId : Option JsString) (body : Value)
  | getSignalKeys (userId : Option JsString) (deviceId : Value)

def Request.handler : Request → Handler Unit
  | .postPrekeys userId body => PrekeyValidation.postPrekeys userId body
  | .getPrekeyBundle userId => PrekeyController.getPrekeyBundle userId
  | .storeSignalKeys userId body => PrekeyController.storeSignalKeys userId body
  | .getSignalKeys userId deviceId => PrekeyController.getSignalKeys userId deviceId

/-- What the outside decides in the course of a session: the clock does not go back, and a
parameter is always compared with a text column as the same text. -/
structure Course where
  conditions : ℕ → Conditions
  asText : Value → Option JsString
  reads : ∀ n, (conditions n).asText = asText
  clock : Monotone fun n => (conditions n).now

def Course.now (c : Course) (n : ℕ) : ℕ := (c.conditions n).now

abbrev alone : Effects Conditions (Database Unit) Ans := exec ()

/-- A request that is handled from moment `n` on, with its answers and the table after it. -/
def serve (e : ℕ → Conditions) (request : Request) (n : ℕ) (t : Table) :
    Option (List Answer × ℕ × Table) :=
  (runFrom alone e request.handler n (untouched Unit t)).map fun out =>
    (out.2.2.answers (), out.2.1, out.2.2.prekeys)

/-- The handler returns, and its answers, the moment and the table are in `Q`. -/
def Serves (e : ℕ → Conditions) (p : Handler Unit) (Q : List Answer → ℕ → Table → Prop)
    (n : ℕ) (t : Table) : Prop :=
  Leads alone e (fun _ m s => Q (s.answers ()) m s.prekeys) p n (untouched Unit t)

theorem serves_iff {e : ℕ → Conditions} {request : Request}
    {Q : List Answer → ℕ → Table → Prop} {n : ℕ} {t : Table} :
    Serves e request.handler Q n t ↔
      ∃ answers m t', serve e request n t = some (answers, m, t') ∧ Q answers m t' := by
  rw [Serves, leads_iff]
  constructor
  · rintro ⟨r, m, s, hrun, hQ⟩
    exact ⟨_, m, _, by rw [serve, hrun]; rfl, hQ⟩
  · rintro ⟨answers, m, t', hserve, hQ⟩
    obtain ⟨⟨r, m, s⟩, hrun, heq⟩ := Option.map_eq_some_iff.mp hserve
    cases heq
    exact ⟨r, m, s, hrun, hQ⟩

/-- What a request that was served has done. -/
theorem Serves.apply {e : ℕ → Conditions} {request : Request}
    {Q : List Answer → ℕ → Table → Prop} {n : ℕ} {t : Table}
    (h : Serves e request.handler Q n t) {answers : List Answer} {m : ℕ} {t' : Table}
    (hserve : serve e request n t = some (answers, m, t')) : Q answers m t' := by
  obtain ⟨answers', m', t'', hserve', hQ⟩ := serves_iff.mp h
  rw [hserve] at hserve'
  cases hserve'
  exact hQ

namespace Answer

open PrekeyDatabase (Answer)

/-- The status of the response; `errorMiddleware` turns an error that is no `APIError` into
a 400. -/
def status : Answer → ℕ
  | .bundle _ _ _ | .keys _ _ => 200
  | .invalid _ => 400
  | .message status _ => status
  | .next (.apiError statusCode _) => statusCode
  | .next (.typeError _) | .next (.syntaxError _) | .next (.failure _) => 400

/-- The handler answers itself, with status 200. -/
def isOk : Answer → Bool
  | .bundle _ _ _ | .keys _ _ => true
  | .message status _ => status = 200
  | .invalid _ | .next _ => false

end Answer

section Effects

variable {e : ℕ → Conditions} {α β : Type} {Q : Except JsError β → ℕ → Database Unit → Prop}
  {n : ℕ} {s : Database Unit}

theorem available (locks : Locks JsString Unit) (id : JsString) : locks.Available () id := by
  cases h : locks id with
  | none => exact .inl h
  | some i => exact .inr h

private theorem leads_outcome {a : α} {f : α → Handler β}
    (hfail : ∀ x, (e n).failure = some x → Q (.error x) (n + 1) s)
    (hok : (e n).failure = none → Leads alone e Q (f a) (n + 1) s) :
    Leads alone e Q ((Program.done ((e n).outcome a)).bind f) (n + 1) s := by
  cases hf : (e n).failure with
  | none => simpa [Conditions.outcome, hf] using hok hf
  | some x => simpa [Conditions.outcome, hf, Leads] using hfail x hf

theorem leads_findOne {userId : JsString} {deviceId : Value} {f : Option Prekey → Handler β}
    (hfail : ∀ x, (e n).failure = some x → Q (.error x) (n + 1) s)
    (hok : (e n).failure = none →
      Leads alone e Q (f ((e n).select userId deviceId s.prekeys.rows)) (n + 1) s) :
    Leads alone e Q ((Program.attempt (perform (.findOne userId deviceId))).bind f) n s :=
  ⟨_, s, rfl, leads_outcome hfail hok⟩

theorem leads_findLatest {userId : JsString} {deviceId : Value} {f : Option Prekey → Handler β}
    (hfail : ∀ x, (e n).failure = some x → Q (.error x) (n + 1) s)
    (hok : (e n).failure = none →
      Leads alone e Q (f ((e n).latest userId deviceId s.prekeys.rows)) (n + 1) s) :
    Leads alone e Q ((Program.attempt (perform (.findLatest userId deviceId))).bind f) n s :=
  ⟨_, s, rfl, leads_outcome hfail hok⟩

theorem leads_reread {m : Manager} {id : JsString} {f : Option Prekey → Handler β}
    (hfail : ∀ x, (e n).failure = some x → Q (.error x) (n + 1) s)
    (hok : (e n).failure = none →
      Leads alone e Q (f ((s.view () m).find id)) (n + 1) s) :
    Leads alone e Q ((Program.attempt (perform (.reread m id))).bind f) n s :=
  ⟨_, s, rfl, leads_outcome hfail hok⟩

theorem leads_update {m : Manager} {id : JsString} {changes : PrekeyChanges}
    {f : Unit → Handler β} (hfail : ∀ x, (e n).failure = some x → Q (.error x) (n + 1) s)
    (hok : (e n).failure = none →
      Leads alone e Q (f ()) (n + 1) (s.write () m (.update id changes (e n).now))) :
    Leads alone e Q ((Program.attempt (perform (.update m id changes))).bind f) n s := by
  cases hf : (e n).failure with
  | none =>
    refine ⟨.ok (), _, ?_, hok hf⟩
    simp [alone, exec, hf, available]
  | some x =>
    refine ⟨.error x, s, ?_, hfail x hf⟩
    simp [alone, exec, hf]

/-- An `INSERT` outside a transaction stores a row with a new key, or it fails. -/
theorem leads_insert {row : NewPrekey} {f : Unit → Handler β}
    (hfail : ∀ x, (e n).failure ≠ none ∨ (∃ y, row.toRow (e n) none = .error y) ∨
      (e n).newId ∈ s.prekeys.rows.map Prekey.id → Q (.error x) (n + 1) s)
    (hok : ∀ r, row.toRow (e n) none = .ok r → r.id ∉ s.prekeys.rows.map Prekey.id →
      Leads alone e Q (f ()) (n + 1) { s with prekeys := (Write.insert r).apply s.prekeys }) :
    Leads alone e Q ((Program.attempt (perform (.insert .dataSource none row))).bind f) n s := by
  cases hf : (e n).failure with
  | some x =>
    refine ⟨.error x, s, ?_, hfail x (.inl (by simp [hf]))⟩
    simp [alone, exec, hf]
  | none =>
    cases hrow : row.toRow (e n) none with
    | error y =>
      refine ⟨.error y, s, ?_, hfail y (.inr (.inl ⟨y, hrow⟩))⟩
      simp [alone, exec, hf, hrow]
    | ok r =>
      by_cases hid : r.id ∈ s.prekeys.rows.map Prekey.id
      · have hnew : r.id = (e n).newId := by
          obtain ⟨d, -, -, rfl⟩ := NewPrekey.toRow_eq_ok hrow
          rfl
        refine ⟨.error (.failure "duplicate key value violates unique constraint"), s, ?_,
          hfail _ (.inr (.inr (hnew ▸ hid)))⟩
        simp only [alone, exec, hf, hrow, Database.view, hid, if_true]
      · refine ⟨.ok (), _, ?_, hok r hrow hid⟩
        simp only [alone, exec, hf, hrow, Database.view, hid, if_false, Database.write]

theorem leads_respond (a : Answer) {Q : Except JsError Unit → ℕ → Database Unit → Prop} :
    Leads alone e Q (perform (.respond a)) n s ↔ Q (.ok ()) (n + 1) (s.respond () a) :=
  leads_perform rfl

end Effects

@[simp] theorem untouched_prekeys (t : Table) : (untouched Unit t).prekeys = t := rfl

@[simp] theorem respond_answers (t : Table) (a : Answer) :
    ((untouched Unit t).respond () a).answers () = [a] := rfl

theorem respond_unanswered {s : Database Unit} (h : s.answers () = []) (a : Answer) :
    (s.respond () a).answers () = [a] := by
  simp [Database.respond, h]

@[simp] theorem respond_prekeys (s : Database Unit) (a : Answer) :
    (s.respond () a).prekeys = s.prekeys := rfl

end ChatMicroservices.PrekeyRequests
