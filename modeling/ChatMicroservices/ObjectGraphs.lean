import ChatMicroservices.InsertionMaps
import ChatMicroservices.JsonSerialisation
import ChatMicroservices.ObjectWalks
import Mathlib.Data.List.Sort

/-!
# Graphs of JavaScript objects

Any values of the language, with objects that refer to one another in any way, and what
`JSON.stringify` and `structuredClone` make of them. Getters and `toJSON` methods return
without effects, so an accessor is a property with the value it returns, and the objects that
such functions create are in the heap from the start. Properties with symbols as keys, which
neither function looks at, are left out.
-/

namespace ChatMicroservices.ObjectGraphs
open JavaScriptValues InsertionMaps ObjectWalks

/-- Primitive values with data; a number is `none` for `NaN`. -/
inductive Data where
  | bool (b : Bool)
  | number (n : Option Number)
  | bigint (n : ℤ)
  | str (s : JsString)
  deriving DecidableEq

inductive Val (ρ : Type) where
  | undefined
  | null
  | symbol
  | data (d : Data)
  | object (r : ρ)
  deriving DecidableEq

/-- What kind of object it is. An error has a message and a stack, a boxed primitive the data
that it is converted to, and a date its text if it is valid. Maps, sets, regular expressions,
buffers, promises and the like are exotic. -/
inductive Kind (ρ : Type) where
  | ordinary
  | array
  | function
  | error (message stack : Val ρ)
  | boxed (d : Data)
  | date (text : Option JsString)
  | exotic

/-- An object: its enumerable index properties, its other enumerable properties, the `toJSON`
method it inherits, and what is cloned with it besides, if it can be cloned at all. -/
structure Obj (ρ : Type) where
  kind : Kind ρ
  elements : List (Val ρ)
  named : InsertionMap JsString (Val ρ)
  method : Option ρ
  contents : Option (List (Val ρ))

abbrev Heap (ρ : Type) := ρ → Obj ρ

def indexKey (n : ℕ) : JsString := js (toString n)

section

variable {ρ σ : Type}

def Val.map (f : ρ → σ) : Val ρ → Val σ
  | .undefined => .undefined
  | .null => .null
  | .symbol => .symbol
  | .data d => .data d
  | .object r => .object (f r)

def Kind.map (f : ρ → σ) : Kind ρ → Kind σ
  | .ordinary => .ordinary
  | .array => .array
  | .function => .function
  | .error message stack => .error (message.map f) (stack.map f)
  | .boxed d => .boxed d
  | .date text => .date text
  | .exotic => .exotic

def mapFields (f : ρ → σ) (fields : InsertionMap JsString (Val ρ)) :
    InsertionMap JsString (Val σ) where
  rows := fields.rows.map fun entry => (entry.1, entry.2.map f)
  keys_nodup := by
    rw [List.map_map]
    exact fields.keys_nodup

theorem get_mapFields (f : ρ → σ) (fields : InsertionMap JsString (Val ρ)) (key : JsString) :
    (mapFields f fields).get key = (fields.get key).map (Val.map f) := by
  refine Option.ext fun w => ?_
  rw [InsertionMap.get_eq_some, Option.map_eq_some_iff, mapFields, List.mem_map]
  constructor
  · rintro ⟨e, he, heq⟩
    obtain ⟨rfl, rfl⟩ := Prod.mk.inj heq
    exact ⟨e.2, InsertionMap.get_eq_some.mpr he, rfl⟩
  · rintro ⟨v, hv, rfl⟩
    exact ⟨_, InsertionMap.get_eq_some.mp hv, rfl⟩

def Obj.map (f : ρ → σ) (o : Obj ρ) : Obj σ where
  kind := o.kind.map f
  elements := o.elements.map (Val.map f)
  named := mapFields f o.named
  method := o.method.map f
  contents := o.contents.map (List.map (Val.map f))

def indexed (elements : List (Val ρ)) : List (JsString × Val ρ) :=
  elements.zipIdx.map fun e => (indexKey e.2, e.1)

/-- The own enumerable properties. -/
def Obj.own (o : Obj ρ) : List (JsString × Val ρ) := indexed o.elements ++ o.named.rows

/-- The key is the text of an array index. -/
def isIndexKey (key : JsString) : Bool :=
  key = indexKey (JSON.decimalValue key) ∧ JSON.decimalValue key < 2 ^ 32 - 1

/-- The order of the properties of an object: array indices first, by their value. -/
def inPropertyOrder (fields : InsertionMap JsString (Val ρ)) : InsertionMap JsString (Val ρ) where
  rows :=
    (fields.rows.filter fun f => isIndexKey f.1).insertionSort
        (fun f f' => JSON.decimalValue f.1 ≤ JSON.decimalValue f'.1) ++
      fields.rows.filter fun f => ¬ isIndexKey f.1
  keys_nodup := by
    have hperm := ((List.perm_insertionSort (fun f f' : JsString × Val ρ =>
        JSON.decimalValue f.1 ≤ JSON.decimalValue f'.1)
      (fields.rows.filter fun f => isIndexKey f.1)).append_right
        (fields.rows.filter fun f => ¬ isIndexKey f.1)).map Prod.fst
    have hsplit := (List.filter_append_perm (fun f => isIndexKey f.1) fields.rows).map Prod.fst
    simp only [Bool.not_eq_true, Bool.decide_eq_false] at hperm ⊢
    exact (hperm.trans hsplit).nodup_iff.mpr fields.keys_nodup

/-- The order changes no property. -/
theorem get_inPropertyOrder (fields : InsertionMap JsString (Val ρ)) (key : JsString) :
    (inPropertyOrder fields).get key = fields.get key := by
  refine Option.ext fun w => ?_
  rw [InsertionMap.get_eq_some, InsertionMap.get_eq_some]
  simp only [inPropertyOrder, List.mem_append, List.mem_insertionSort, List.mem_filter]
  by_cases hindex : isIndexKey key
  · simp [hindex]
  · simp [hindex]

/-- `{ … }` -/
def Obj.literal (fields : InsertionMap JsString (Val ρ)) : Obj ρ where
  kind := .ordinary
  elements := []
  named := inPropertyOrder fields
  method := none
  contents := some []

/-- The heap with one more object, which none of the others refers to. It may inherit a
`toJSON`. -/
def extend (h : Heap ρ) (fields : InsertionMap JsString (Val ρ)) (method : Option ρ) :
    Heap (Option ρ)
  | some r => (h r).map some
  | none => { Obj.literal (mapFields some fields) with method := method.map some }

/-- The properties of a new object. -/
theorem get_extend (h : Heap ρ) (fields : InsertionMap JsString (Val ρ)) (method : Option ρ)
    (key : JsString) :
    (extend h fields method none).named.get key = (fields.get key).map (Val.map some) :=
  (get_inPropertyOrder _ key).trans (get_mapFields some fields key)

/-- The `toJSON` that an object passes on to those that it is the prototype of. That of a date
throws for any other object, so it is left out. -/
def Heap.passedOn (h : Heap ρ) (r : ρ) : Option ρ :=
  match (h r).named.get (js "toJSON") with
  | some (.object f) =>
    match (h f).kind with
    | .function => some f
    | _ => none
  | some _ => none
  | none => (h r).method

end

section Stringify

variable {ρ : Type}

/-- What the functions of a heap return, for a receiver and an argument. -/
abbrev Calls (ρ : Type) := ρ → Val ρ → JsString → Val ρ

/-- The value that is written for a property: a callable `toJSON` is called once. -/
def converted (call : Calls ρ) (h : Heap ρ) (key : JsString) : Val ρ → Val ρ
  | .object r =>
    match (h r).named.get (js "toJSON") with
    | some (.object f) =>
      match (h f).kind with
      | .function => call f (.object r) key
      | _ => .object r
    | some _ => .object r
    | none =>
      match (h r).method, (h r).kind with
      | some f, _ => call f (.object r) key
      | none, .date (some text) => .data (.str text)
      | none, .date none => .null
      | none, _ => .object r
  | v => v

def bigintError : JsError := .typeError "Do not know how to serialize a BigInt"

def circularError : JsError := .typeError "Converting circular structure to JSON"

/-- A value without a text is left out of an object. -/
abbrev Written := Option Json

def lookData : Data → Look ρ Written JsError
  | .bool b => .leaf (some (.bool b))
  | .number none => .leaf (some .null)
  | .number (some n) => .leaf (some (.num n))
  | .bigint _ => .bad bigintError
  | .str s => .leaf (some (.str s))

def lookConverted (h : Heap ρ) : Val ρ → Look ρ Written JsError
  | .undefined | .symbol => .leaf none
  | .null => .leaf (some .null)
  | .data d => lookData d
  | .object r =>
    match (h r).kind with
    | .function => .leaf none
    | .boxed d => lookData d
    | _ => .node r

/-- The properties of an object that are written. -/
def members (o : Obj ρ) : List (JsString × Val ρ) :=
  match o.kind with
  | .array => indexed o.elements
  | _ => o.own

def build (o : Obj ρ) (written : List Written) : Written :=
  match o.kind with
  | .array => some (.arr (written.map (·.getD .null)))
  | _ => some (.obj (((members o).zip written).filterMap fun m => m.2.map (m.1.1, ·)))

/-- The graph that `JSON.stringify` walks through. -/
def jsonGraph (call : Calls ρ) (h : Heap ρ) : Graph (JsString × Val ρ) ρ Written JsError where
  look property := lookConverted h (converted call h property.1 property.2)
  children r := members (h r)
  build r := build (h r)
  cycle := circularError

variable [DecidableEq ρ] [Fintype ρ]

/-- The value that is written, if there is one. -/
def jsonOf (call : Calls ρ) (h : Heap ρ) (v : Val ρ) : Except JsError Written :=
  (jsonGraph call h).walk (Fintype.card ρ + 1) [] ([], v)

/-- `JSON.stringify(v)` -/
def stringify (call : Calls ρ) (h : Heap ρ) (v : Val ρ) : Except JsError (Option JsString) :=
  (jsonOf call h v).map (Option.map JSON.stringify)

variable {call : Calls ρ} {h : Heap ρ} {v : Val ρ}

/-- `JSON.stringify` returns just for the values that unfold. -/
theorem stringify_ok_iff :
    (∃ text, stringify call h v = .ok text) ↔ (jsonGraph call h).Unfolds ([], v) := by
  rw [← Graph.walk_iff, stringify, jsonOf]
  cases (jsonGraph call h).walk (Fintype.card ρ + 1) [] ([], v) with
  | ok w => simp [Except.map]
  | error e => simp [Except.map]

end Stringify

section Clone

variable {ρ : Type}

/-- The properties that a clone has besides index properties. -/
def Obj.kept (o : Obj ρ) : InsertionMap JsString (Val ρ) :=
  match o.kind with
  | .ordinary | .array => o.named
  | _ => InsertionMap.empty

/-- The clone of an object, which has a prototype of the language. -/
def Obj.cloned (o : Obj ρ) : Obj ρ where
  kind := o.kind
  elements := o.elements
  named := o.kept
  method := none
  contents := o.contents

def lookCloned (h : Heap ρ) : Val ρ → Look ρ Unit Unit
  | .symbol => .bad ()
  | .object r =>
    match (h r).kind, (h r).contents with
    | .function, _ | _, none => .bad ()
    | _, some _ => .node r
  | _ => .leaf ()

/-- The graph that is cloned with a value. -/
def cloneGraph (h : Heap ρ) : Graph (Val ρ) ρ Unit Unit where
  look := lookCloned h
  children r := (h r).elements ++ (h r).kept.rows.map Prod.snd ++ (h r).contents.getD []
  build _ _ := ()
  cycle := ()

variable [DecidableEq ρ] [Fintype ρ]

/-- `structuredClone(v)`. The clones take the places of the objects; it throws when something
behind the value cannot be cloned. -/
def structuredClone (h : Heap ρ) (v : Val ρ) : Option (Heap ρ) :=
  if (cloneGraph h).survey (Fintype.card ρ + 1) [] v then some fun r => (h r).cloned else none

/-- A value is cloned just when there is no symbol, function or other object behind it that
cannot be. -/
theorem structuredClone_isSome_iff {h : Heap ρ} {v : Val ρ} :
    (structuredClone h v).isSome ↔
      ∀ w, (cloneGraph h).Path [] v w → lookCloned h w ≠ .bad () := by
  have hsurvey := Graph.survey_iff (g := cloneGraph h) (v := v)
  rw [structuredClone, Option.isSome_ite, hsurvey]
  exact forall₂_congr fun w _ => ⟨fun hw => hw (), fun hw _ => hw⟩

end Clone

end ChatMicroservices.ObjectGraphs
