import AgentResolver.JavaScript.CaseMapping
import AgentResolver.JavaScript.Values

/-!
# SKILL.md documents

`parseSkillMd` of `src/skill-parse.js`: front matter between `---` lines, or else a heading and
the first line of text.
-/

namespace AgentResolver

open JavaScript

/-- The first position of a text, `none` standing for `-1`. -/
def findText (pattern : JSString) : JSString → Option Nat
  | [] => if pattern.isEmpty then some 0 else none
  | c :: rest =>
      if startsWith (c :: rest) pattern then some 0 else (findText pattern rest).map (· + 1)

/-- `s.indexOf(pattern, start)`. -/
def indexOfFrom (s pattern : JSString) (start : Nat) : Option Nat :=
  (findText pattern (s.drop start)).map (· + start)

/-- `s.split(/\r?\n/)`. -/
def splitLines (s : JSString) : List JSString :=
  let pieces := split s (unit '\n')
  let withoutReturn (line : JSString) : JSString :=
    if line.getLast? = some (unit '\r') then line.dropLast else line
  pieces.dropLast.map withoutReturn ++ pieces.getLast?.toList

def isQuote (c : CodeUnit) : Bool := c == unit '"' || c == 0x27

/-- `s.replace(/^["']|["']$/g, '')`. -/
def stripQuotes (s : JSString) : JSString :=
  let opened := if s.head?.any isQuote then s.drop 1 else s
  if opened.getLast?.any isQuote then opened.dropLast else opened

/-- One iteration of the loop of `parseFrontmatter`. -/
def frontmatterLine (metadata : Properties JSString) (line : JSString) : Properties JSString :=
  let trimmed := trim line
  if trimmed.isEmpty || startsWith trimmed [unit '#'] then metadata
  else
    match indexOf trimmed (unit ':') with
    | none => metadata
    | some index =>
        let key := trim (trimmed.take index)
        let value := stripQuotes (trim (trimmed.drop (index + 1)))
        -- assigning a string to `__proto__` has no effect
        if key.isEmpty || key = text "__proto__" then metadata
        else setProperty metadata key value

/-- `parseFrontmatter`: no front matter, the metadata of a closed one, or an error. -/
def parseFrontmatter (content : JSString) : Except JSError (Option (Properties JSString)) :=
  if !startsWith content (text "---\n") && !startsWith content (text "---\r\n") then .ok none
  else
    let newline := if startsWith content (text "---\r\n") then text "\r\n" else text "\n"
    match indexOfFrom content (newline ++ text "---" ++ newline) 4 with
    | none => .error ⟨text "frontmatter is not closed"⟩
    | some close =>
        let block := trim ((content.take close).drop 4)
        .ok (some ((splitLines block).foldl frontmatterLine []))

/-- `line.replace(/^#\s+/, '')`. -/
def stripHeadingMarker : JSString → JSString
  | c :: rest =>
      if c = unit '#' ∧ rest.head?.any isWhitespace then rest.dropWhile isWhitespace
      else c :: rest
  | [] => []

def parseHeadingMetadata (content : JSString) : Properties JSString :=
  let lines := splitLines content
  let heading := lines.find? fun line => startsWith (trim line) (text "# ")
  let description :=
    (lines.map trim).find? fun line => !line.isEmpty && !startsWith line [unit '#']
  (heading.map fun line => (text "name", trim (stripHeadingMarker line))).toList ++
    (description.map fun line => (text "description", line)).toList

/-- The result of `parseSkillMd`. -/
structure SkillDocument where
  metadata : Properties JSString
  warnings : List JSString

def parseSkillMd (content : JSString) : SkillDocument :=
  match parseFrontmatter content with
  | .ok (some frontmatter) => ⟨frontmatter, []⟩
  | .ok none => ⟨parseHeadingMetadata content, []⟩
  | .error error => ⟨parseHeadingMetadata content, [error.message]⟩

end AgentResolver
