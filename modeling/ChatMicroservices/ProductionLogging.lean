import ChatMicroservices.ObjectTexts
import Mathlib.Data.Fintype.Option

/-!
# Log entries in production

`buildJsonEntry` writes one line of JSON. A single object is spread over the fields that the
logger gives, so it can replace them, and every other argument is written by itself, which
throws for a value that `JSON.stringify` refuses.
-/

namespace ChatMicroservices.ProductionLogging
open JavaScriptValues InsertionMaps RelatedLists ObjectWalks ObjectGraphs ObjectTexts

section

variable {ρ : Type}

/-- The functions of the heap, `structuredClone` if the runtime has it, `util.inspect` to a
depth of 3, and `String(args)`. -/
structure Runtime (ρ : Type) where
  call : Calls (Option ρ)
  hasClone : Bool
  inspect : Val ρ → JsString
  textOf : List (Val ρ) → Except JsError JsString

abbrev Fields (ρ : Type) := InsertionMap JsString (Val ρ)

/-- A value in a heap, which may be a new object with some fields and an inherited `toJSON`. -/
structure Serialized (ρ : Type) where
  heap : Heap ρ
  fields : Fields ρ
  method : Option ρ
  value : Val (Option ρ)

variable [DecidableEq ρ] [Fintype ρ] (rt : Runtime ρ) (h : Heap ρ)

def serializeArg (arg : Val ρ) : Serialized ρ :=
  match arg with
  | .object r =>
    match (h r).kind with
    | .error message stack =>
      ⟨h, (InsertionMap.empty.set (js "message") message).set (js "stack") stack, none,
        .object none⟩
    | .function => ⟨h, InsertionMap.empty, none, .object (some r)⟩
    | _ =>
      if rt.hasClone then
        ⟨(structuredClone h arg).getD h, InsertionMap.empty, none, .object (some r)⟩
      else ⟨h, InsertionMap.empty, none, .data (.str (rt.inspect arg))⟩
  | _ => ⟨h, InsertionMap.empty, none, arg.map some⟩

def Serialized.own (s : Serialized ρ) : List (JsString × Val ρ) :=
  match s.value with
  | .object (some r) => (s.heap r).own
  | .object none => s.fields.rows
  | .data (.str text) => indexed (text.map fun u => .data (.str [u]))
  | _ => []

/-- The properties that `Object.assign` copies. Instead of a `__proto__` it sets the prototype. -/
def Serialized.spread (s : Serialized ρ) : List (JsString × Val ρ) :=
  s.own.filter fun f => f.1 ≠ js "__proto__"

/-- The `toJSON` of the prototype that `Object.assign` sets. -/
def Serialized.inherited (s : Serialized ρ) : Option ρ :=
  match s.own.lookup (js "__proto__") with
  | some (.object r) => s.heap.passedOn r
  | _ => none

def Serialized.stringify (s : Serialized ρ) : Except JsError (Option JsString) :=
  ObjectGraphs.stringify rt.call (extend s.heap s.fields s.method) s.value

/-- `JSON.stringify({ … })` -/
def fieldsText (fields : Fields ρ) : Except JsError (Option JsString) :=
  Serialized.stringify rt ⟨h, fields, none, .object none⟩

def ofText (s : JsString) : Val ρ := .data (.str s)

def base (level ts service caller : JsString) : Fields ρ :=
  InsertionMap.empty.setAll [(js "level", ofText level), (js "ts", ofText ts),
    (js "service", ofText service), (js "caller", ofText caller)]

/-- `args.length === 1 && typeof args[0] === 'object' && …` -/
def singleObject : List (Val ρ) → Option ρ
  | [.object r] =>
    match (h r).kind with
    | .function | .error _ _ => none
    | _ => some r
  | _ => none

/-- `{ ...fields, ...v }`, which is compiled to `Object.assign`. -/
def spreadEntry (fields : Fields ρ) (r : ρ) : Serialized ρ where
  heap := (serializeArg rt h (.object r)).heap
  fields := fields.setAll (serializeArg rt h (.object r)).spread
  method := (serializeArg rt h (.object r)).inherited
  value := .object none

/-- One of the texts that are joined, where `undefined` is empty. -/
def argText : Val ρ → Except JsError JsString
  | .data (.str s) => .ok s
  | arg => ((serializeArg rt h arg).stringify rt).map (·.getD [])

def joined (texts : List JsString) : JsString := List.intercalate (js " ") texts

def messageEntry (fields : Fields ρ) (args : List (Val ρ)) : Except JsError (Option JsString) := do
  let texts ← args.mapM (argText rt h)
  match fieldsText rt h (fields.set (js "msg") (ofText (joined texts))) with
  | .ok line => .ok line
  | .error _ =>
    let msg ← rt.textOf args
    fieldsText rt h (fields.set (js "msg") (ofText msg))

def buildJsonEntry (level ts service caller : JsString) (args : List (Val ρ)) :
    Except JsError (Option JsString) :=
  match singleObject h args with
  | none => messageEntry rt h (base level ts service caller) args
  | some r =>
    match (spreadEntry rt h (base level ts service caller) r).stringify rt with
    | .ok line => .ok line
    | .error _ => messageEntry rt h (base level ts service caller) args

end

section Fields

variable {ρ : Type} {rt : Runtime ρ} {h : Heap ρ} {fields : Fields ρ} {method : Option ρ}

def isCallable (h : Heap ρ) : Val ρ → Bool
  | .object r =>
    match (h r).kind with
    | .function => true
    | _ => false
  | _ => false

/-- A `toJSON` is called, be it of the fields or inherited. -/
def CallsToJson (h : Heap ρ) (fields : Fields ρ) (method : Option ρ) : Prop :=
  (∃ w, fields.get (js "toJSON") = some w ∧ isCallable h w = true) ∨
    (fields.get (js "toJSON") = none ∧ method ≠ none)

/-- A new object without a callable `toJSON` is not converted. -/
theorem converted_uncalled (hfields : ¬ CallsToJson h fields method) :
    converted rt.call (extend h fields method) [] (.object none) = .object none := by
  have hnamed := get_extend h fields method (js "toJSON")
  simp only [converted, hnamed]
  cases htoJSON : fields.get (js "toJSON") with
  | none =>
    have hmethod : method = none := by
      by_contra hne
      exact hfields (.inr ⟨htoJSON, hne⟩)
    rw [hmethod]
    rfl
  | some w =>
    have hw : isCallable h w = false :=
      Bool.eq_false_iff.mpr fun hcallable => hfields (.inl ⟨w, htoJSON, hcallable⟩)
    cases w with
    | undefined | null | symbol | data d => rfl
    | object r =>
      simp only [isCallable] at hw
      simp only [Option.map_some, Val.map, extend, Obj.map]
      cases hkind : (h r).kind with
      | function => simp [hkind] at hw
      | _ => rfl

/-- An entry without a callable `toJSON` has the members that its fields are written as. -/
theorem keeps_iff (hfields : ¬ CallsToJson h fields method)
    {members : List (JsString × JsString)} :
    Keeps rt.call (extend h fields method) members (.object none) ↔ ∀ f ∈ members, ∃ w,
      fields.get f.1 = some w ∧
        WrittenAs rt.call (extend h fields method) f.1 (w.map some) f.2 := by
  have hlook : lookConverted (extend h fields method) (converted rt.call (extend h fields method)
      [] (.object none)) = .node none := by
    rw [converted_uncalled hfields]
    rfl
  constructor
  · rintro ⟨r, hr, -, hmembers⟩ f hf
    obtain rfl : r = none := by simpa [hlook, eq_comm] using hr
    obtain ⟨w, hw, hwritten⟩ := hmembers f hf
    rw [get_extend, Option.map_eq_some_iff] at hw
    obtain ⟨v, hv, rfl⟩ := hw
    exact ⟨v, hv, hwritten⟩
  · refine fun hmembers => ⟨none, hlook, (fun harray => nomatch harray), fun f hf => ?_⟩
    obtain ⟨v, hv, hwritten⟩ := hmembers f hf
    exact ⟨v.map some, by rw [get_extend, hv]; rfl, hwritten⟩

/-- All values are texts. -/
def Textual (fields : Fields ρ) : Prop :=
  ∀ key w, fields.get key = some w → ∃ s, w = ofText s

theorem Textual.set (hfields : Textual fields) (key s : JsString) :
    Textual (fields.set key (ofText s)) := by
  intro key' w hw
  rw [InsertionMap.get_set] at hw
  split at hw
  · exact ⟨s, (Option.some.inj hw).symm⟩
  · exact hfields _ _ hw

theorem Textual.setAll (hfields : Textual fields) (entries : List (JsString × JsString)) :
    Textual (fields.setAll (entries.map fun e => (e.1, ofText e.2))) := by
  induction entries generalizing fields with
  | nil => exact hfields
  | cons e entries ih => exact ih (hfields.set e.1 e.2)

theorem base_textual (level ts service caller : JsString) :
    Textual (base (ρ := ρ) level ts service caller) := by
  have hempty : Textual (InsertionMap.empty : Fields ρ) := fun key w hw => by cases hw
  exact hempty.setAll
    [(js "level", level), (js "ts", ts), (js "service", service), (js "caller", caller)]

theorem Textual.not_callsToJson (hfields : Textual fields) : ¬ CallsToJson h fields none := by
  rintro (⟨w, hw, hcallable⟩ | ⟨-, hmethod⟩)
  · obtain ⟨s, rfl⟩ := hfields _ w hw
    cases hcallable
  · exact hmethod rfl

variable (rt h) in
theorem textual_unfolds (hfields : Textual fields) :
    (jsonGraph rt.call (extend h fields none)).Unfolds ([], .object none) := by
  refine .node (r := none) ?_ fun m hm => ?_
  · change lookConverted _ (converted _ _ _ _) = _
    rw [converted_uncalled hfields.not_callsToJson]
    rfl
  · obtain ⟨key, w⟩ := m
    have hget : (extend h fields none none).named.get key = some w :=
      InsertionMap.get_eq_some.mpr hm
    rw [get_extend, Option.map_eq_some_iff] at hget
    obtain ⟨v, hv, rfl⟩ := hget
    obtain ⟨s, rfl⟩ := hfields key v hv
    exact .leaf (t := some (.str s)) rfl

theorem textual_keeps (hfields : Textual fields) {members : List (JsString × JsString)}
    (hmembers : ∀ f ∈ members, fields.get f.1 = some (ofText f.2)) :
    Keeps rt.call (extend h fields none) members (.object none) :=
  (keeps_iff hfields.not_callsToJson).mpr fun f hf => ⟨ofText f.2, hmembers f hf, rfl⟩

/-- The members that an entry must have. -/
def required (level service caller : JsString) : List (JsString × JsString) :=
  [(js "level", level), (js "service", service), (js "caller", caller)]

theorem required_names (level service caller : JsString) :
    ∀ f ∈ required level service caller, IsName f.1 := by
  have hname : ∀ key : JsString, (key.any fun u => !JSON.isDigit u) = true → IsName key := by
    intro key hkey
    obtain ⟨u, hu, hdigit⟩ := List.any_eq_true.mp hkey
    exact ⟨u, hu, by simpa using hdigit⟩
  intro f hf
  simp only [required, List.mem_cons, List.not_mem_nil, or_false] at hf
  rcases hf with rfl | rfl | rfl
  · exact hname (js "level") (by decide)
  · exact hname (js "service") (by decide)
  · exact hname (js "caller") (by decide)

variable (ρ) in
theorem get_base (level ts service caller : JsString) : ∀ f ∈ required level service caller,
    (base (ρ := ρ) level ts service caller).get f.1 = some (ofText f.2) := by
  intro f hf
  simp only [required, List.mem_cons, List.not_mem_nil, or_false] at hf
  simp only [base, InsertionMap.setAll, List.foldl_cons, List.foldl_nil, InsertionMap.get_set]
  rcases hf with rfl | rfl | rfl
  · simp only [show js "level" ≠ js "caller" by decide, show js "level" ≠ js "service" by decide,
      show js "level" ≠ js "ts" by decide, if_false, if_true]
  · simp only [show js "service" ≠ js "caller" by decide, if_false, if_true]
  · simp only [if_true]

theorem get_message (level ts service caller msg : JsString) :
    ∀ f ∈ required level service caller,
      ((base (ρ := ρ) level ts service caller).set (js "msg") (ofText msg)).get f.1 =
        some (ofText f.2) := by
  intro f hf
  have hmsg : ∀ f ∈ required level service caller, f.1 ≠ js "msg" := by
    simp only [required, List.forall_mem_cons]
    exact ⟨by decide, by decide, by decide, fun _ h => absurd h List.not_mem_nil⟩
  rw [InsertionMap.get_set, if_neg (hmsg f hf)]
  exact get_base ρ level ts service caller f hf

/-- The value of the last property with a name. -/
def valueOf (properties : List (JsString × Val ρ)) (key : JsString) : Option (Val ρ) :=
  (InsertionMap.empty.setAll properties).get key

/-- The properties bring no other values for these members. -/
def Untouched (call : Calls (Option ρ)) (h : Heap (Option ρ))
    (members : List (JsString × JsString)) (properties : List (JsString × Val ρ)) : Prop :=
  ∀ f ∈ members, ∀ w, valueOf properties f.1 = some w → WrittenAs call h f.1 (w.map some) f.2

/-- The fields of the logger stay what they are: the properties bring no other values for them
or, with a `toJSON` that is called, what it returns has them. -/
def LeavesFields (call : Calls (Option ρ)) (h : Heap ρ) (fields : Fields ρ) (method : Option ρ)
    (members : List (JsString × JsString)) (properties : List (JsString × Val ρ)) : Prop :=
  (¬ CallsToJson h fields method ∧
      Untouched call (extend h fields method) members properties) ∨
    (CallsToJson h fields method ∧ Keeps call (extend h fields method) members (.object none))

theorem leavesFields_iff (level ts service caller : JsString)
    (properties : List (JsString × Val ρ)) :
    LeavesFields rt.call h ((base level ts service caller).setAll properties) method
        (required level service caller) properties ↔
      Keeps rt.call (extend h ((base level ts service caller).setAll properties) method)
        (required level service caller) (.object none) := by
  unfold LeavesFields
  by_cases hcalls : CallsToJson h ((base level ts service caller).setAll properties) method
  · simp only [hcalls, not_true_eq_false, false_and, true_and, false_or]
  · simp only [hcalls, not_false_eq_true, true_and, false_and, or_false]
    rw [keeps_iff hcalls]
    refine forall₂_congr fun f hf => ?_
    rw [InsertionMap.get_setAll, get_base ρ level ts service caller f hf, ← valueOf]
    cases valueOf properties f.1 with
    | none => exact iff_of_true (fun w hw => by cases hw) ⟨ofText f.2, rfl, rfl⟩
    | some w => simp

theorem eq_of_singleObject {args : List (Val ρ)} {r : ρ} (hsingle : singleObject h args = some r) :
    args = [.object r] := by
  unfold singleObject at hsingle
  split at hsingle
  next r' =>
    split at hsingle
    · cases hsingle
    · cases hsingle
    · cases hsingle
      rfl
  next => cases hsingle

end Fields

section Entries

variable {ρ : Type} [DecidableEq ρ] [Fintype ρ] {rt : Runtime ρ} {h : Heap ρ}

/-- The value unfolds to a finite tree without a BigInt. -/
def Serialized.Writable (rt : Runtime ρ) (s : Serialized ρ) : Prop :=
  (jsonGraph rt.call (extend s.heap s.fields s.method)).Unfolds ([], s.value)

theorem serialized_ok_iff {s : Serialized ρ} :
    (∃ text, s.stringify rt = .ok text) ↔ s.Writable rt := stringify_ok_iff

theorem argText_ok_iff {arg : Val ρ} :
    (∃ text, argText rt h arg = .ok text) ↔ (serializeArg rt h arg).Writable rt := by
  rw [← serialized_ok_iff]
  unfold argText
  split
  next s =>
    refine iff_of_true ⟨s, rfl⟩ ?_
    exact stringify_ok_iff.mpr (.leaf (t := some (.str s)) rfl)
  next =>
    cases (serializeArg rt h arg).stringify rt with
    | ok text => exact iff_of_true ⟨_, rfl⟩ ⟨text, rfl⟩
    | error e =>
      refine iff_of_false ?_ ?_
      · rintro ⟨text, htext⟩
        cases htext
      · rintro ⟨text, htext⟩
        cases htext

variable (rt h) in
/-- The message of an entry is written when every argument is. -/
theorem messageEntry_wellFormed_iff (level ts service caller : JsString) (args : List (Val ρ)) :
    (∃ line, messageEntry rt h (base level ts service caller) args = .ok (some line) ∧
        WellFormed (required level service caller) line) ↔
      ∀ arg ∈ args, (serializeArg rt h arg).Writable rt := by
  constructor
  · rintro ⟨line, hline, -⟩ arg harg
    obtain ⟨texts, htexts, -⟩ := ok_of_bind hline
    obtain ⟨text, -, htext⟩ := exists_partner (mapM_eq_ok.mp htexts) harg
    exact argText_ok_iff.mp ⟨text, htext⟩
  · intro hargs
    obtain ⟨texts, htexts⟩ := exists_forall₂ fun arg harg =>
      argText_ok_iff.mpr (hargs arg harg)
    have hfields := (base_textual (ρ := ρ) level ts service caller).set (js "msg") (joined texts)
    have hunfolds := textual_unfolds rt h hfields
    obtain ⟨line, hline, hwellFormed⟩ :=
      (stringify_wellFormed_iff (required_names level service caller)).mpr
        ⟨hunfolds, textual_keeps hfields (get_message level ts service caller (joined texts))⟩
    refine ⟨line, ?_, hwellFormed⟩
    rw [messageEntry, mapM_eq_ok.mpr htexts]
    have hentry : fieldsText rt h ((base level ts service caller).set (js "msg")
        (ofText (joined texts))) = .ok (some line) := hline
    simp only [bind, Except.bind, hentry]

variable (rt h) in
/-- The arguments are written well: a single object over the fields of the logger, which it
leaves as they are, or by itself where the entry cannot be written, and otherwise each
argument. -/
def WritesWell (level ts service caller : JsString) (args : List (Val ρ)) : Prop :=
  match singleObject h args with
  | none => ∀ arg ∈ args, (serializeArg rt h arg).Writable rt
  | some r =>
    ((spreadEntry rt h (base level ts service caller) r).Writable rt ∧
      LeavesFields rt.call (spreadEntry rt h (base level ts service caller) r).heap
        (spreadEntry rt h (base level ts service caller) r).fields
        (spreadEntry rt h (base level ts service caller) r).method
        (required level service caller) (serializeArg rt h (.object r)).spread) ∨
    (¬ (spreadEntry rt h (base level ts service caller) r).Writable rt ∧
      (serializeArg rt h (.object r)).Writable rt)

theorem buildJsonEntry_single (level ts service caller : JsString) {args : List (Val ρ)} {r : ρ}
    (hsingle : singleObject h args = some r) :
    buildJsonEntry rt h level ts service caller args =
      match (spreadEntry rt h (base level ts service caller) r).stringify rt with
      | .ok line => .ok line
      | .error _ => messageEntry rt h (base level ts service caller) args := by
  unfold buildJsonEntry
  rw [hsingle]

theorem buildJsonEntry_several (level ts service caller : JsString) {args : List (Val ρ)}
    (hsingle : singleObject h args = none) :
    buildJsonEntry rt h level ts service caller args =
      messageEntry rt h (base level ts service caller) args := by
  unfold buildJsonEntry
  rw [hsingle]

/-- An entry is one line that is an object with the level, the service and the caller of the
logger just when the arguments are written well. -/
theorem buildJsonEntry_wellFormed_iff (rt : Runtime ρ) (h : Heap ρ)
    (level ts service caller : JsString) (args : List (Val ρ)) :
    (∃ line, buildJsonEntry rt h level ts service caller args = .ok (some line) ∧
        WellFormed (required level service caller) line) ↔
      WritesWell rt h level ts service caller args := by
  have hmessage := messageEntry_wellFormed_iff rt h level ts service caller args
  unfold WritesWell
  cases hsingle : singleObject h args with
  | none =>
    rw [buildJsonEntry_several level ts service caller hsingle]
    exact hmessage
  | some r =>
    rw [eq_of_singleObject hsingle, List.forall_mem_singleton, ← eq_of_singleObject hsingle]
      at hmessage
    rw [buildJsonEntry_single level ts service caller hsingle]
    dsimp only
    set entry := spreadEntry rt h (base level ts service caller) r
    have hleaves : LeavesFields rt.call entry.heap entry.fields entry.method
        (required level service caller) (serializeArg rt h (.object r)).spread ↔
          Keeps rt.call (extend entry.heap entry.fields entry.method)
            (required level service caller) (.object none) :=
      leavesFields_iff level ts service caller _
    have hentry : (∃ line, entry.stringify rt = .ok (some line) ∧
        WellFormed (required level service caller) line) ↔ entry.Writable rt ∧
          Keeps rt.call (extend entry.heap entry.fields entry.method)
            (required level service caller) (.object none) :=
      stringify_wellFormed_iff (required_names level service caller)
    cases hresult : entry.stringify rt with
    | ok text =>
      have hw : entry.Writable rt := serialized_ok_iff.mp ⟨text, hresult⟩
      rw [hresult] at hentry
      simp only [hentry, hw, hleaves, true_and, not_true_eq_false, false_and, or_false]
    | error e =>
      have hw : ¬ entry.Writable rt := by
        intro hw
        obtain ⟨text, htext⟩ := serialized_ok_iff.mpr hw
        cases hresult.symm.trans htext
      simp only [hmessage, hw, false_and, not_false_eq_true, true_and, false_or]

end Entries

/-- A runtime whose functions return their receivers. -/
def someRuntime : Runtime Unit where
  call _ receiver _ := receiver
  hasClone := true
  inspect _ := js "[Object]"
  textOf _ := .ok (js "[Object]")

/-- One object with a level. -/
def levelHeap : Heap Unit :=
  fun _ => .literal (InsertionMap.empty.set (js "level") (ofText (js "debug")))

def levelLine : JsString :=
  js "\x7b\"level\":\"debug\",\"ts\":\"now\",\"service\":\"chat-service\",\"caller\":\"a.ts:1\"\x7d"

/-- A BigInt makes the logger throw, and an object replaces the level. -/
theorem entries_not_wellFormed :
    buildJsonEntry someRuntime levelHeap (js "info") (js "now") (js "chat-service") (js "a.ts:1")
        [.data (.bigint 1)] = .error bigintError ∧
      buildJsonEntry someRuntime levelHeap (js "info") (js "now") (js "chat-service")
        (js "a.ts:1") [.object ()] = .ok (some levelLine) ∧
      ¬ WellFormed (required (js "info") (js "chat-service") (js "a.ts:1")) levelLine := by
  refine ⟨by decide +kernel, by decide +kernel, ?_⟩
  rintro ⟨-, fields, hparse, hfields⟩
  have hfound : JSON.parse levelLine = .ok (.obj [(js "level", .str (js "debug")),
      (js "ts", .str (js "now")), (js "service", .str (js "chat-service")),
      (js "caller", .str (js "a.ts:1"))]) := by decide +kernel
  cases hparse.symm.trans hfound
  have hlevel := hfields _ List.mem_cons_self
  revert hlevel
  decide +kernel

end ChatMicroservices.ProductionLogging
