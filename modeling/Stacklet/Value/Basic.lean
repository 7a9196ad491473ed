/-!
Run-time values. They are never changed: what seems to change an array builds
a new one. Errors that a built-in function reports are values too.
-/

namespace Stacklet

/-- The built-in functions. Each is known by its name alone. -/
inductive Builtin
  | len | first | last | rest | push
  deriving DecidableEq, Inhabited, Repr

/-- The name of a built-in function. -/
def Builtin.name : Builtin → String
  | .len => "len"
  | .first => "first"
  | .last => "last"
  | .rest => "rest"
  | .push => "push"

/-- The built-in function of that name. -/
def Builtin.ofName? (name : String) : Option Builtin :=
  [Builtin.len, .first, .last, .rest, .push].find? fun builtin => builtin.name = name

/-- Run-time values. -/
inductive Value
  | integer (value : Int64)
  | boolean (value : Bool)
  | null
  | string (text : String)
  | array (items : List Value)
  | builtin (function : Builtin)
  | error (message : String)
  deriving Inhabited

/-- The types of values. -/
inductive ValueType
  | integer | boolean | null | string | array | builtin | error
  deriving DecidableEq, Inhabited, Repr

/-- The name of a type. -/
def ValueType.name : ValueType → String
  | .integer => "INTEGER"
  | .boolean => "BOOLEAN"
  | .null => "NULL"
  | .string => "STRING"
  | .array => "ARRAY"
  | .builtin => "BUILTIN"
  | .error => "ERROR"

namespace Value

/-- The type of a value. -/
def type : Value → ValueType
  | .integer _ => .integer
  | .boolean _ => .boolean
  | .null => .null
  | .string _ => .string
  | .array _ => .array
  | .builtin _ => .builtin
  | .error _ => .error

/-- Whether a value counts as true: all do but `false` and `null`. -/
def isTruthy : Value → Bool
  | .boolean false | .null => false
  | _ => true

/-- Whether a value is an error. -/
def isError : Value → Bool
  | .error _ => true
  | _ => false

mutual

/-- Whether two values are the same. -/
def same : Value → Value → Bool
  | .integer m, .integer n => m = n
  | .boolean p, .boolean q => p = q
  | .null, .null => true
  | .string s, .string t => s = t
  | .array xs, .array ys => sameList xs ys
  | .builtin f, .builtin g => f = g
  | .error s, .error t => s = t
  | _, _ => false

/-- Whether two lists of values are the same. -/
def sameList : List Value → List Value → Bool
  | [], [] => true
  | x :: xs, y :: ys => same x y && sameList xs ys
  | _, _ => false

end

mutual

theorem same_iff_eq : (a b : Value) → (same a b = true ↔ a = b)
  | .array xs, b => by
    cases b <;> simp [same]
    exact sameList_iff_eq xs _
  | .integer _, b | .boolean _, b | .string _, b | .builtin _, b | .error _, b | .null, b => by
    cases b <;> simp [same]

theorem sameList_iff_eq : (xs ys : List Value) → (sameList xs ys = true ↔ xs = ys)
  | [], ys => by cases ys <;> simp [sameList]
  | x :: xs, ys => by
    cases ys with
    | nil => simp [sameList]
    | cons y ys => simp [sameList, same_iff_eq x y, sameList_iff_eq xs ys]

end

instance : DecidableEq Value := fun a b => decidable_of_iff (same a b = true) (same_iff_eq a b)

mutual

/-- The text of a value. Strings stand as they are. -/
def render : Value → String
  | .integer value => toString value.toInt
  | .boolean value => if value then "true" else "false"
  | .null => "null"
  | .string text => text
  | .array items => "[" ++ renderList items ++ "]"
  | .builtin function => "builtin function " ++ function.name
  | .error message => "ERROR: " ++ message

/-- The texts of values, separated by commas. -/
def renderList : List Value → String
  | [] => ""
  | item :: items => renderMore items item.render

/-- Further values behind the text of those before them. -/
def renderMore : List Value → String → String
  | [], text => text
  | item :: items, text => renderMore items (text ++ ", " ++ item.render)

end

end Value

end Stacklet
