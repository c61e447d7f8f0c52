import AgentResolver.Interaction.Machine
import AgentResolver.JavaScript.Numerals
import Mathlib.Data.List.Sort

/-!
# JSON texts

`JSON.stringify` and `JSON.parse` on the values of `Values`. The printer writes the properties of an
object in the order in which the language enumerates them, and an infinity as `null`; strings are
escaped so that no half of a surrogate pair stands alone. The parser is two machines, one that reads
the units of a text into tokens, and one that reads the tokens into a value with the arrays and
objects that are still open on a stack.
-/

namespace JavaScript

open Interaction (runEvents)

/-! ## Properties in the order of enumeration -/

/-- The number that a key is an array index for: it is written without superfluous zeros, and is
less than `2 ^ 32 - 1`. -/
def arrayIndex (key : JSString) : Option Nat :=
  (readDigits key).filter fun index => decimalText index = key && index < 2 ^ 32 - 1

/-- The properties as they are enumerated: array indices first, in ascending order. -/
def enumerate {α : Type} (members : Properties α) : Properties α :=
  (members.filter fun member => (arrayIndex member.1).isSome).insertionSort
      (fun first second => (arrayIndex first.1).getD 0 ≤ (arrayIndex second.1).getD 0) ++
    members.filter fun member => (arrayIndex member.1).isNone

/-! ## Printing -/

def backslash : CodeUnit := 0x5C

/-- The units with an escape of two units, and the second one of it. -/
def shortEscapes : List (CodeUnit × CodeUnit) :=
  [(0x08, unit 'b'), (0x09, unit 't'), (0x0A, unit 'n'), (0x0C, unit 'f'), (0x0D, unit 'r'),
    (unit '"', unit '"'), (backslash, backslash)]

def isHighSurrogate (c : CodeUnit) : Bool := 0xD800 ≤ c && c ≤ 0xDBFF

def isLowSurrogate (c : CodeUnit) : Bool := 0xDC00 ≤ c && c ≤ 0xDFFF

/-- The escape of a unit by its number. -/
def unicodeEscape (c : CodeUnit) : JSString :=
  backslash :: unit 'u' ::
    [12, 8, 4, 0].map fun shift => unit (Nat.digitChar (c.toNat / 2 ^ shift % 16))

/-- A unit that is not in a surrogate pair. -/
def quoteUnit (c : CodeUnit) : JSString :=
  match shortEscapes.lookup c with
  | some letter => [backslash, letter]
  | none =>
      if c < 0x20 || isHighSurrogate c || isLowSurrogate c then unicodeEscape c else [c]

def quoteUnits : JSString → JSString
  | [] => []
  | [c] => quoteUnit c
  | c :: d :: rest =>
      if isHighSurrogate c && isLowSurrogate d then c :: d :: quoteUnits rest
      else quoteUnit c ++ quoteUnits (d :: rest)

/-- The text of a string. -/
def quote (s : JSString) : JSString := unit '"' :: quoteUnits s ++ [unit '"']

/-- A line break with the indentation, where the text has lines. -/
def lineBreak (gap indent : JSString) : JSString :=
  if gap.isEmpty then [] else unit '\n' :: indent

/-- The parts of an array or object between brackets. -/
def bracketText (opening closing : CodeUnit) (gap indent : JSString) (parts : List JSString) :
    JSString :=
  if parts.isEmpty then [opening, closing]
  else
    opening :: (lineBreak gap (indent ++ gap) ++
      join parts (unit ',' :: lineBreak gap (indent ++ gap)) ++ lineBreak gap indent ++ [closing])

/-- A property with the text of its value. -/
def memberText (gap : JSString) (member : JSString × JSString) : JSString :=
  quote member.1 ++ unit ':' :: (if gap.isEmpty then [] else text " ") ++ member.2

mutual

/-- The text of a value whose lines are indented by `indent`. -/
def valueText (gap indent : JSString) : JsonValue → JSString
  | .null => text "null"
  | .boolean true => text "true"
  | .boolean false => text "false"
  | .number (.finite value) => numberText value
  | .number (.infinite _) => text "null"
  | .string value => quote value
  | .array items =>
      bracketText (unit '[') (unit ']') gap indent (itemTexts gap (indent ++ gap) items)
  | .object members =>
      bracketText (unit '\x7b') (unit '\x7d') gap indent
        ((enumerate (memberTexts gap (indent ++ gap) members)).map (memberText gap))

def itemTexts (gap indent : JSString) : List JsonValue → List JSString
  | [] => []
  | item :: rest => valueText gap indent item :: itemTexts gap indent rest

def memberTexts (gap indent : JSString) : List (JSString × JsonValue) → Properties JSString
  | [] => []
  | (key, value) :: rest => (key, valueText gap indent value) :: memberTexts gap indent rest

end

/-- An object written with members that may be `undefined`, which are not printed. -/
def definedMembers (members : Properties (Option JsonValue)) : Properties JsonValue :=
  members.filterMap fun member => member.2.map fun value => (member.1, value)

/-- `JSON.stringify(value, null, gap)`. -/
def stringify (gap : JSString) (value : JsonValue) : JSString := valueText gap [] value

/-! ## Tokens -/

/-- A bracket, comma or colon, a string, or a number or name of a value. -/
inductive Token where
  | mark (c : CodeUnit)
  | string (value : JSString)
  | word (value : JsonValue)

/-- What is being read: nothing, a string, the letter or the digits of an escape in it, or a
word. -/
inductive LexState where
  | between
  | string (read : JSString)
  | escape (read : JSString)
  | unicode (read : JSString) (count value : Nat)
  | word (read : JSString)

/-- The white space of JSON. -/
def isJsonSpace (c : CodeUnit) : Bool := c ∈ [0x20, 0x09, 0x0A, 0x0D]

def isMark (c : CodeUnit) : Bool :=
  c ∈ [unit '[', unit ']', unit '\x7b', unit '\x7d', unit ',', unit ':']

def isWordUnit (c : CodeUnit) : Bool := isNumberUnit c || isAsciiAlpha c

/-- The value that a word stands for. -/
def wordValue (read : JSString) : Option JsonValue :=
  if read = text "null" then some .null
  else if read = text "true" then some (.boolean true)
  else if read = text "false" then some (.boolean false)
  else (jsonNumber read).map .number

/-- The digit of a hexadecimal escape. -/
def hexDigit (c : CodeUnit) : Option Nat :=
  if isAsciiDigit c then some (c.toNat - 0x30)
  else if 0x61 ≤ c && c ≤ 0x66 then some (c.toNat - 0x61 + 10)
  else if 0x41 ≤ c && c ≤ 0x46 then some (c.toNat - 0x41 + 10)
  else none

/-- The unit of an escape of two units; a slash may be escaped. -/
def escapedUnit (letter : CodeUnit) : Option CodeUnit :=
  if letter = unit '/' then some (unit '/')
  else (shortEscapes.map Prod.swap).lookup letter

/-- The tokens that end with a unit, and what is read behind it. -/
def startToken (c : CodeUnit) : Option (List Token × LexState) :=
  if isJsonSpace c then some ([], .between)
  else if isMark c then some ([.mark c], .between)
  else if c = unit '"' then some ([], .string [])
  else if isWordUnit c then some ([], .word [c])
  else none

def lexUnit : LexState → CodeUnit → Option (List Token × LexState)
  | .between, c => startToken c
  | .string read, c =>
      if c = unit '"' then some ([.string read], .between)
      else if c = backslash then some ([], .escape read)
      else if c < 0x20 then none
      else some ([], .string (read ++ [c]))
  | .escape read, c =>
      if c = unit 'u' then some ([], .unicode read 0 0)
      else (escapedUnit c).map fun escaped => ([], .string (read ++ [escaped]))
  | .unicode read count value, c =>
      (hexDigit c).map fun digit =>
        if count = 3 then ([], .string (read ++ [UInt16.ofNat (16 * value + digit)]))
        else ([], .unicode read (count + 1) (16 * value + digit))
  | .word read, c =>
      if isWordUnit c then some ([], .word (read ++ [c]))
      else
        (wordValue read).bind fun value =>
          (startToken c).map fun step => (.word value :: step.1, step.2)

/-- The tokens of a text, read from a state on. -/
def lex : LexState → JSString → Option (List Token)
  | .between, [] => some []
  | .word read, [] => (wordValue read).map fun value => [.word value]
  | _, [] => none
  | state, c :: rest =>
      (lexUnit state c).bind fun step => (lex step.2 rest).map (step.1 ++ ·)

/-! ## Values -/

/-- An array or object that is still open: what it has so far, and the key of the next value. -/
inductive Frame where
  | items (items : List JsonValue)
  | members (members : Properties JsonValue) (key : JSString)

/-- What may come next. -/
inductive ParseState where
  | value (stack : List Frame)
  | firstItem (stack : List Frame)
  | afterItem (items : List JsonValue) (stack : List Frame)
  | firstKey (stack : List Frame)
  | nextKey (members : Properties JsonValue) (stack : List Frame)
  | colon (members : Properties JsonValue) (key : JSString) (stack : List Frame)
  | afterMember (members : Properties JsonValue) (stack : List Frame)
  | done (value : JsonValue)

/-- The state behind a value: it goes into the innermost array or object. A key that is there
already keeps its place. -/
def complete (value : JsonValue) : List Frame → ParseState
  | [] => .done value
  | .items items :: stack => .afterItem (items ++ [value]) stack
  | .members members key :: stack => .afterMember (setProperty members key value) stack

/-- A token where a value must start. -/
def startValue (stack : List Frame) : Token → Option ParseState
  | .mark c =>
      if c = unit '[' then some (.firstItem stack)
      else if c = unit '\x7b' then some (.firstKey stack)
      else none
  | .string value => some (complete (.string value) stack)
  | .word value => some (complete value stack)

def parseToken : ParseState → Token → Option ParseState
  | .value stack, token => startValue stack token
  | .firstItem stack, .mark c =>
      if c = unit ']' then some (complete (.array []) stack)
      else startValue (.items [] :: stack) (.mark c)
  | .firstItem stack, token => startValue (.items [] :: stack) token
  | .afterItem items stack, .mark c =>
      if c = unit ',' then some (.value (.items items :: stack))
      else if c = unit ']' then some (complete (.array items) stack)
      else none
  | .firstKey stack, .mark c =>
      if c = unit '\x7d' then some (complete (.object []) stack) else none
  | .firstKey stack, .string key => some (.colon [] key stack)
  | .nextKey members stack, .string key => some (.colon members key stack)
  | .colon members key stack, .mark c =>
      if c = unit ':' then some (.value (.members members key :: stack)) else none
  | .afterMember members stack, .mark c =>
      if c = unit ',' then some (.nextKey members stack)
      else if c = unit '\x7d' then some (complete (.object members) stack)
      else none
  | _, _ => none

/-- `JSON.parse(s)`, where the text is one of JSON. -/
def parseJson (s : JSString) : Option JsonValue := do
  let tokens ← lex .between s
  match ← runEvents parseToken (.value []) tokens with
  | .done value => some value
  | _ => none

end JavaScript
