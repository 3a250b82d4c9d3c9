import ChatMicroservices.JsonSerialisation

/-!
# E-mail templates

A template is a text with placeholders `{{KEY}}`. Its variables are converted to text where
they are inserted, which throws for an object whose own `toString` is not callable.
-/

namespace ChatMicroservices.EmailTemplates
open JavaScriptValues JavaScriptOperators

def numberToString : Number → JsString
  | .infinite negative => js (if negative then "-Infinity" else "Infinity")
  | .finite q => JSON.numberText (.finite q)

mutual

/-- `String(v)`. The text of an array is that of its elements between commas. -/
def toText : Json → Except JsError JsString
  | .null => .ok (js "null")
  | .bool b => .ok (js (if b then "true" else "false"))
  | .num n => .ok (numberToString n)
  | .str s => .ok s
  | .arr xs => join xs
  | .obj fields =>
    if hasText (.obj fields) then .ok (js "[object Object]") else .error conversionError

/-- `xs.join(',')`, in which `null` is an empty text. -/
def join : List Json → Except JsError JsString
  | [] => .ok []
  | [x] => if x = .null then .ok [] else toText x
  | x :: y :: rest => do
    let first ← if x = .null then .ok [] else toText x
    let others ← join (y :: rest)
    .ok (first ++ js "," ++ others)

end

/-- `\w` -/
def isWord (u : UInt16) : Bool :=
  JSON.isDigit u ∨ (0x41 ≤ u ∧ u ≤ 0x5A) ∨ (0x61 ≤ u ∧ u ≤ 0x7A) ∨ u = 0x5F

/-- The key of a placeholder at the start of a text, and the text after it. -/
def placeholder : JsString → Option (JsString × JsString)
  | u :: v :: text =>
    if u = 0x7B ∧ v = 0x7B then
      match text.takeWhile isWord, text.dropWhile isWord with
      | c :: key, x :: y :: rest => if x = 0x7D ∧ y = 0x7D then some (c :: key, rest) else none
      | _, _ => none
    else none
  | _ => none

/-- The variables of a template. -/
abbrev Vars := List (JsString × Json)

/-- The methods an object literal inherits. -/
def inheritedMethods : List JsString :=
  ["__defineGetter__", "__defineSetter__", "hasOwnProperty", "__lookupGetter__",
    "__lookupSetter__", "isPrototypeOf", "propertyIsEnumerable", "toString", "valueOf",
    "toLocaleString"].map js

/-- The text of a property that an object literal inherits. -/
def inheritedText (key : JsString) : Option JsString :=
  if key = js "constructor" then some (js "function Object() \x7b [native code] \x7d")
  else if key = js "__proto__" then some (js "[object Object]")
  else if inheritedMethods.contains key then
    some (js "function " ++ key ++ js "() \x7b [native code] \x7d")
  else none

/-- `vars[key] ?? ''`, as a text. -/
def inserted (vars : Vars) (key : JsString) : Except JsError JsString :=
  match lookup key vars with
  | none => .ok ((inheritedText key).getD [])
  | some .null => .ok []
  | some v => toText v

/-- Replace the placeholders of a text, of which at most `fuel` units are left. -/
def replace (vars : Vars) : ℕ → JsString → Except JsError JsString
  | 0, _ | _, [] => .ok []
  | fuel + 1, u :: text =>
    match placeholder (u :: text) with
    | some (key, rest) => do
      let value ← inserted vars key
      let rendered ← replace vars fuel rest
      .ok (value ++ rendered)
    | none => do
      let rendered ← replace vars fuel text
      .ok (u :: rendered)

def renderTemplate (tpl : JsString) (vars : Vars) : Except JsError JsString :=
  replace vars tpl.length tpl

example : renderTemplate
    (js "\x7b\x7bTITLE\x7d\x7d: \x7b\x7b\x7bYEAR\x7d\x7d\x7d \x7b\x7bX\x7d\x7d!")
    [(js "TITLE", .str (js "Hi")), (js "YEAR", .num (.finite 2024))] =
      .ok (js "Hi: \x7b2024\x7d !") := by decide +kernel

end ChatMicroservices.EmailTemplates
