import AgentResolver.JavaScript.Strings

/-!
# JSON values, objects and errors

The values `JSON.parse` produces, with objects as lists of own properties in insertion order.
An absent property reads as `undefined`, which is `none` here. Numbers are the rational value of
a finite double or an infinity; `JSON.parse` produces no `NaN`.
-/

namespace JavaScript

/-- A thrown `Error`, as far as programs look at it. -/
structure JSError where
  message : JSString
  deriving DecidableEq

/-- Own properties in insertion order. -/
abbrev Properties (α : Type) := List (JSString × α)

variable {α : Type}

/-- `object[key]`, `none` standing for `undefined`. -/
def getProperty : Properties α → JSString → Option α
  | [], _ => none
  | (name, value) :: rest, key => if name = key then some value else getProperty rest key

/-- `object[key] = value`: an existing property keeps its place, a new one goes last. -/
def setProperty : Properties α → JSString → α → Properties α
  | [], key, value => [(key, value)]
  | (name, old) :: rest, key, value =>
      if name = key then (name, value) :: rest else (name, old) :: setProperty rest key value

@[simp] theorem get_property_nil (key : JSString) : getProperty ([] : Properties α) key = none :=
  rfl

/-- The property that was set reads back. -/
@[simp] theorem get_set_same (object : Properties α) (key : JSString) (value : α) :
    getProperty (setProperty object key value) key = some value := by
  fun_induction setProperty object key value with
  | case1 => simp [getProperty]
  | case2 => simp [getProperty]
  | case3 _ _ _ _ _ hne ih => simp [getProperty, hne, ih]

/-- Setting a property leaves the others alone. -/
@[simp] theorem get_set_other (object : Properties α) {key other : JSString} (value : α)
    (h : other ≠ key) :
    getProperty (setProperty object key value) other = getProperty object other := by
  fun_induction setProperty object key value with
  | case1 => simp [getProperty, h.symm]
  | case2 => simp [getProperty, h.symm]
  | case3 name _ _ _ _ _ ih => by_cases hname : name = other <;> simp [getProperty, hname, ih h]

/-- Setting a property, read at any key. -/
theorem get_set (object : Properties α) (key other : JSString) (value : α) :
    getProperty (setProperty object key value) other =
      if other = key then some value else getProperty object other := by
  by_cases h : other = key
  · subst h; simp
  · simp [h]

/-- A property that is not there yet is appended. -/
theorem set_property_fresh {object : Properties α} {key : JSString} {value : α}
    (h : ∀ entry ∈ object, entry.1 ≠ key) :
    setProperty object key value = object ++ [(key, value)] := by
  induction object with
  | nil => rfl
  | cons entry rest ih =>
      obtain ⟨name, old⟩ := entry
      have hne : name ≠ key := h (name, old) (by simp)
      simp [setProperty, hne, ih (fun e he => h e (List.mem_cons_of_mem _ he))]

/-- Properties in two parts: the first part hides the second. -/
theorem get_append (first second : Properties α) (key : JSString) :
    getProperty (first ++ second) key = (getProperty first key).or (getProperty second key) := by
  induction first with
  | nil => rfl
  | cons member rest ih =>
      obtain ⟨name, value⟩ := member
      simp only [List.cons_append, getProperty, ih]
      split
      · rfl
      · rfl

theorem get_map {β : Type} (f : α → β) (object : Properties α) (key : JSString) :
    getProperty (object.map fun member => (member.1, f member.2)) key =
      (getProperty object key).map f := by
  induction object with
  | nil => rfl
  | cons member rest ih =>
      obtain ⟨name, value⟩ := member
      simp only [List.map_cons, getProperty, ih]
      split
      · rfl
      · rfl

/-- A number `JSON.parse` can produce. -/
inductive Number where
  | finite (value : Rat)
  | infinite (negative : Bool)
  deriving DecidableEq

/-- A JSON value. -/
inductive JsonValue where
  | null
  | boolean (value : Bool)
  | number (value : Number)
  | string (value : JSString)
  | array (items : List JsonValue)
  | object (members : List (JSString × JsonValue))

/-- `value ?? undefined`: `null` and `undefined` both count as absent. -/
def present : Option JsonValue → Option JsonValue
  | some .null => none
  | value => value

@[simp] theorem present_none : present none = none := rfl

@[simp] theorem present_string (s : JSString) :
    present (some (.string s)) = some (.string s) := rfl

@[simp] theorem present_array (items : List JsonValue) :
    present (some (.array items)) = some (.array items) := rfl

/-- The language's `JSON` object: the parser with the text of its `SyntaxError`s, and the
printer. -/
structure Json where
  parse : JSString → Except JSError JsonValue
  stringify : JsonValue → JSString

/-- A `JSON` object that accepts no text, for runs that meet none. -/
def Json.rejecting : Json where
  parse _ := .error ⟨text "Unexpected token"⟩
  stringify _ := text "null"

end JavaScript
