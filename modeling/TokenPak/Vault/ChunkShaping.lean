import Mathlib.Algebra.GroupWithZero.Nat
import TokenPak.Library.Lines
import TokenPak.Library.Regex
import TokenPak.Library.StableSort

/-! The shapes of a chunk (`vault/chunk_shaping.py`). A pattern is matched against one line at a
time, so the heading pattern's underlined form, which needs a line end, never matches. -/

namespace TokenPak.Vault.ChunkShaping
open Library Lines Regex

/-- The classes of characters that the patterns use, and the quotient of two counts as a float. -/
structure Language (F : Type) where
  isWord : Char → Bool
  isDigit : Char → Bool
  quotient : Nat → Nat → F

def strip (text : List Char) : List Char := trim Text.isSpace text

/-- `lines[:bound]`: below zero, the bound counts from the end. -/
def slice (lines : List (List Char)) (bound : Int) : List (List Char) :=
  lines.take (if bound < 0 then (lines.length + bound).toNat else bound.toNat)

section Patterns

/-- A letter of a pattern that ignores case: also the letters beyond ASCII whose case is that letter. -/
def letter (c d : Char) : Bool :=
  d = c || (c.isLower && d = c.toUpper) || (c = 'i' && (d = '\u0131' || d = '\u0130')) ||
    (c = 's' && d = '\u017f') ||
    (c = 'k' && d = '\u212a')

def exactly (c : Char) : Expression Char := .one (· = c)
def plus (accepts : Char → Bool) : Expression Char := .seq (.one accepts) (.many accepts)
def text (word : String) : Expression Char := all (word.toList.map exactly)
def phrase (word : String) : Expression Char := all (word.toList.map fun c => .one (letter c))

def anyOf : List (Expression Char) → Expression Char
  | [] => .empty
  | [pattern] => pattern
  | pattern :: patterns => .alt pattern (anyOf patterns)

def spaces : Expression Char := plus Text.isSpace

def between (first last : Char) (c : Char) : Bool := first ≤ c && c ≤ last

variable {F : Type} (lang : Language F)

/-- `pattern.match(line)` -/
def match? (pattern : Expression Char) (line : List Char) : Bool :=
  ! (ways lang.isWord pattern none line).isEmpty

def funcBoundaryRe : Expression Char :=
  let name := plus lang.isWord
  anyOf
    [all [optional (.seq (text "async") spaces), text "def", spaces, name], all [text "class", spaces, name],
      all [text "func", optional (text "tion"), spaces, name],
        all [optional (.seq (text "pub") spaces), text "fn", spaces, name],
      all [optional (.seq (text "export") spaces), optional (.seq (text "default") spaces),
        optional (.seq (text "async") spaces),
        text "function"]]

def importRe : Expression Char :=
  let solid := plus fun c => ! Text.isSpace c
  anyOf
    [.seq (text "import") spaces, all [text "from", spaces, solid, spaces, text "import"], text "require(",
      all [text "use", spaces, solid, exactly ';']]

def headingRe : Expression Char :=
  all ([exactly '#'] ++ List.replicate 5 (optional (exactly '#')) ++ [spaces, plus (· ≠ '\n')])

/-- Read up to a line end that stands for the end of the line. -/
def decisionRe : Expression Char :=
  all
    [optional (.seq (plus (· = '#')) spaces),
      anyOf
        [phrase "decision", phrase "rationale", phrase "why", phrase "chosen", phrase "rejected",
          phrase "alternative",
          all [phrase "trade", optional (exactly '-'), phrase "off"],
            .seq (phrase "pro") (optional (phrase "s")),
          .seq (phrase "con") (optional (phrase "s")), phrase "resolution"],
      .one fun c => c = ':' || Text.isSpace c]

def narrativeRe : Expression Char :=
  all
    [.boundary,
      anyOf
        [.seq (phrase "in this ") (anyOf [phrase "section", phrase "chapter", phrase "document"]),
          phrase "we will",
          .seq (phrase "let") (anyOf [phrase "'s", phrase " us"]), phrase "as you can see",
            phrase "note that",
          phrase "it is worth noting", phrase "please note"],
      .boundary, .many (· ≠ '.'), exactly '.']

def isImport (line : List Char) : Bool := match? lang importRe line
def isFuncBoundary (line : List Char) : Bool := match? lang (funcBoundaryRe lang) line
def isHeading (line : List Char) : Bool := match? lang headingRe line
def isDecision (line : List Char) : Bool := match? lang decisionRe (line ++ ['\n'])

/-- A word with an identifier or a number in it. -/
def isSignal (word : List Char) : Bool :=
  let capital := fun c => between 'A' 'Z' c || c = '_'
  let small := fun c => between 'a' 'z' c || c = '_'
  search lang.isWord (anyOf
    [all [.one capital, .one capital, plus capital], all [.one small, plus small, .one (between 'A' 'Z')], plus lang.isDigit]) word

end Patterns

section Shapes
variable {F : Type} (lang : Language F) (maxLines : Nat)

def scanImports (imports : List (List Char)) (bodyStart : Nat) :
    Nat → List (List Char) → List (List Char) × Nat
  | _, [] => (imports, bodyStart)
  | i, line :: rest =>
    if isImport lang line then scanImports (imports ++ [line]) (i + 1) (i + 1) rest
    else if imports = [] then scanImports imports bodyStart (i + 1) rest
    else if isBlank line then scanImports imports (i + 1) (i + 1) rest
    else (imports, bodyStart)

def importLines (content : List Char) : List (List Char) := (scanImports lang [] 0 0 (splitlines content)).1

def codeLines (content : List Char) : List (List Char) :=
  let bodyLines := (splitlines content).drop (scanImports lang [] 0 0 (splitlines content)).2
  bodyLines.drop ((bodyLines.findIdx? (isFuncBoundary lang)).getD 0)

def shapeCodeContiguous (content : List Char) : List Char :=
  let selected := (codeLines lang content).take maxLines
  if importLines lang content = [] then join selected else join (importLines lang content) ++
    ['\n', '\n'] ++ join selected

/-- `_NARRATIVE_RE.sub("", content)` -/
def cleaned (content : List Char) : List Char := sub lang.isWord narrativeRe [] content

/-- `_PARAGRAPH_BREAK_RE.split`, behind the beginning of a paragraph or between the line ends of a break. -/
def paragraphsFrom (para : List Char) (skipping : Bool) : List Char → List (List Char)
  | [] => [para]
  | c :: rest =>
    if c = '\n' then
      if skipping then paragraphsFrom para true rest
      else if rest.head? = some '\n' then para :: paragraphsFrom [] true rest
      else paragraphsFrom (para ++ [c]) false rest
    else paragraphsFrom (para ++ [c]) false rest

def paragraphs (content : List Char) : List (List Char) :=
  ((paragraphsFrom [] false (cleaned lang content)).map strip).filter (· ≠ [])

def density (para : List Char) : F :=
  let words := Text.split para
  if words = [] then lang.quotient 0 1 else lang.quotient (words.countP (isSignal lang)) words.length

def ranked [LinearOrder F] (content : List Char) : List (List Char) :=
  StableSort.sortBy (fun para => OrderDual.toDual (density lang para)) (paragraphs lang content)

def factLines (result : List (List Char)) : List (List Char) → List (List Char)
  | [] => result
  | para :: rest =>
    let paraLines := splitlines para
    if result.length + paraLines.length > maxLines then result ++
      slice paraLines ((maxLines : Int) - result.length)
    else factLines (result ++ paraLines ++ [[]]) rest

def shapeFactChunk [LinearOrder F] (content : List Char) : List Char :=
  strip (join (factLines maxLines [] (ranked lang content)))

/-- The sections, up to the next heading, whose heading carries a marker. -/
def decisionLines : List (List Char) → List (List Char)
  | [] => []
  | line :: rest =>
    if isHeading lang line &&
      isDecision lang line then line :: rest.takeWhile (! isHeading lang ·) ++
      [] :: decisionLines rest
    else decisionLines rest

def shapeDecisionSummary (content : List Char) : List Char :=
  let resultLines := decisionLines lang (splitlines content)
  if resultLines = [] then join ((splitlines content).take maxLines)
    else strip (join (resultLines.take maxLines))

/-- A line up to its first full stop that a blank follows, unless it begins there. -/
def firstSentence (topic : List Char) : List Char :=
  match (List.range topic.length).find? fun i => ['.', ' '].isPrefixOf (topic.drop i) with
  | some end_ => if 0 < end_ then topic.take (end_ + 1) else topic
  | none => topic

/-- The loop through the lines, before a heading or, behind one, before its topic. -/
def headerLines (result : List (List Char)) (pending : Bool) : List (List Char) → List (List Char)
  | [] => result
  | line :: rest =>
    if pending then
      if isBlank line then headerLines result true rest
        else headerLines (result ++ [firstSentence line, []]) false rest
    else if result.length < maxLines then
      if isHeading lang line then headerLines (result ++ [line]) true rest else headerLines result false rest
    else result

def shapeSectionHeader (content : List Char) : List Char :=
  let resultLines := headerLines lang maxLines [] false (splitlines content)
  if resultLines = [] then join ((splitlines content).take maxLines) else strip (join resultLines)

def shapeTemplateExample (content : List Char) : List Char := join ((splitlines content).take maxLines)

def shapeProseSection (content : List Char) : List Char := join ((splitlines content).take maxLines)

def applyShape [LinearOrder F] (content : List Char) (shape : String) : List Char :=
  if shape = "code_contiguous" then shapeCodeContiguous lang maxLines content
  else if shape = "fact_chunk" then shapeFactChunk lang maxLines content
  else if shape = "decision_summary" then shapeDecisionSummary lang maxLines content
  else if shape = "section_header" then shapeSectionHeader lang maxLines content
  else if shape = "template_example" then shapeTemplateExample maxLines content
  else shapeProseSection maxLines content

end Shapes
end TokenPak.Vault.ChunkShaping
