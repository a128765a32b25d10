import TokenPak.Library.Bisection
import TokenPak.Library.Floats

/-! Estimates of the tokens of an image or a document. The size comes from the header of the image,
where it can be read; without it the cost is the greatest of the selected model and detail. A page
of a document costs its text and such an image. Quotients and products are floats. -/

namespace TokenPak.SpendGuard.Media
open Library

/-- A size that `image_dimensions` accepts. -/
structure Size where
  width : Nat
  height : Nat
  width_pos : 0 < width
  height_pos : 0 < height
  width_le : width ≤ 1000000
  height_le : height ≤ 1000000

def startsWith (model start : String) : Bool := start.toList.isPrefixOf model.toList

section Claude

/-- A number at the start of a text, and what follows; `digit` tells the values of decimal digits. -/
def number (digit : Char → Option Nat) (text : List Char) : Option (Nat × List Char) :=
  match text.takeWhile fun c => (digit c).isSome with
  | [] => none
  | digits =>
      some ((digits.filterMap digit).foldl (fun value d => 10 * value + d) 0,
        text.dropWhile fun c => (digit c).isSome)

/-- `(\d+)[.-](\d+)` at the start of a text. -/
def versionNumbers (digit : Char → Option Nat) (text : List Char) : Option (Nat × Nat) := do
  let (major, rest) ← number digit text
  match rest with
  | '.' :: rest | '-' :: rest =>
    let (minor, _) ← number digit rest
    return (major, minor)
  | _ => none

def claudeVersion (digit : Char → Option Nat) (model : String) : Option (Nat × Nat) :=
  model.toList.tails.findSome? fun text =>
    ["claude-opus-", "claude-sonnet-", "claude-haiku-", "claude-"].findSome? fun start =>
      if start.toList.isPrefixOf text then versionNumbers digit (text.drop start.length) else none

/-- `_claude_limits`: the longest edge, and the most patches. -/
def claudeLimits (digit : Char → Option Nat) (model : String) : Nat × Nat :=
  match claudeVersion digit model with
  | some (major, minor) => if major < 4 ∨ major = 4 ∧ minor < 7 then (1568, 1568) else (2576, 4784)
  | none => (2576, 4784)

variable (floats : Floats) (edge cap : Nat)

def parts (length part : Nat) : Nat := ⌈floats.round (length / part)⌉₊

def patches (w h : Nat) : Nat := parts floats w 28 * parts floats h 28

def fits (w h : Nat) : Bool :=
  decide (parts floats w 28 * 28 ≤ edge) && decide (parts floats h 28 * 28 ≤ edge) &&
    decide (patches floats w h ≤ cap)

/-- `max(round(mid / aspect), 1)` -/
def scaledSide (aspect : ℚ) (mid : Nat) : Nat :=
  max (nearestEven (floats.round (floats.round mid / aspect))).toNat 1

/-- `_claude_tokens` -/
def claudeTokens (width height : Nat) : Nat :=
  if fits floats edge cap width height then patches floats width height
  else
    let long := max width height
    let aspect := floats.round ((long : ℚ) / (min width height : Nat))
    let lo := bisect (fun mid => fits floats edge cap mid (scaledSide floats aspect mid)) 1 long
    min cap (patches floats lo (scaledSide floats aspect lo))

end Claude

section Openai

inductive Method where
  | tiles | patches | unknown
  deriving DecidableEq

/-- The method, its edge or base, its budget or the cost of a tile, and the multiplier. -/
structure Rules where
  method : Method
  edge : Nat
  budget : Option Nat
  multiplier : ℚ

def astraModels : List String := ["gpt-6-astra", "gpt-5.6-sol", "gpt-5.6-terra", "gpt-5.6-luna"]
def smallModels : List String := ["gpt-5-mini", "gpt-5-nano", "gpt-4.1-nano", "o4-mini"]
def factors : List (String × ℚ) :=
  [("gpt-4.1-mini", 162 / 100), ("gpt-4.1-nano", 246 / 100), ("gpt-5-nano", 15 / 10),
    ("o4-mini", 172 / 100)]

/-- `_openai_rules` -/
def openaiRules (model detail : String) : Rules :=
  let starts := fun names : List String => names.any (startsWith model)
  if starts ["gpt-4o-mini"] then ⟨.tiles, 2833, some 5667, 1⟩
  else if starts ["gpt-4o", "gpt-4.1"] && ! starts ["gpt-4.1-mini", "gpt-4.1-nano"] then ⟨.tiles,
    85, some 170, 1⟩
  else if model = "gpt-5" || starts ["gpt-5.1"] then ⟨.tiles, 70, some 140, 1⟩
  else if starts ["o1", "o3"] then ⟨.tiles, 75, some 150, 1⟩
  else
    let multiplier := ((factors.find? fun factor => startsWith model factor.1).map Prod.snd).getD (12 / 10)
    if starts astraModels then
      if detail = "low" then ⟨.patches, 512, none, multiplier⟩
      else if detail = "high" then ⟨.patches, if starts ["gpt-6-astra"] then 65535
        else 2048, some 2500, multiplier⟩
      else ⟨.patches, 65535, none, multiplier⟩
    else if starts ["gpt-5.5", "gpt-5.4"] then
      if detail = "original" || (detail = "auto" && starts ["gpt-5.5"]) then ⟨.patches, 6000,
        some 10000, multiplier⟩
      else if detail = "low" then ⟨.patches, if starts ["gpt-5.5"] then 512 else 2048, some 6144, multiplier⟩
      else ⟨.patches, 2048, some 2500, multiplier⟩
    else if starts ["gpt-5.2", "gpt-4.1-mini"] then ⟨.patches, 2048, some 6144, multiplier⟩
    else if starts smallModels then ⟨.patches, 2048, some 1536, multiplier⟩
    else ⟨.unknown, 0, none, 1⟩

variable (floats : Floats)

/-- `value * scale` as a float. -/
def scaled (value : Nat) (scale : ℚ) : ℚ := floats.round (floats.round value * scale)

/-- `math.ceil(count * multiplier)`; the multiplier is the float of its literal. -/
def charged (count : Nat) (multiplier : ℚ) : Nat := ⌈scaled floats count (floats.round multiplier)⌉₊

def tileTokens (edge tile : Nat) (w h : Nat) : Nat :=
  let scale := min 1 (min (floats.round (2048 / (max w h : Nat))) (floats.round (768 / (min w h : Nat))))
  let side := fun length => max 1 ⌊scaled floats length scale⌋₊
  edge + parts floats (side w) 512 * parts floats (side h) 512 * tile

/-- The sides of an image that has more patches than the budget, or none when a side becomes less
than a patch. -/
def shrink (budget w h : Nat) : Option (Nat × Nat) :=
  let scale := floats.round (floats.sqrt (floats.round ((1024 * budget : Nat) / (w * h : Nat))))
  let x := floats.round (scaled floats w scale / 32)
  let y := floats.round (scaled floats h scale / 32)
  if min x y < 1 then none
  else
    let scale := floats.round (scale * min (floats.round (⌊x⌋ / x)) (floats.round (⌊y⌋ / y)))
    some (max 1 ⌊scaled floats w scale⌋₊, max 1 ⌊scaled floats h scale⌋₊)

def patchTokens (edge cap : Nat) (budget : Option Nat) (multiplier : ℚ) (width height : Nat) : Nat :=
  let scale := min 1 (floats.round (edge / (max width height : Nat)))
  let side := fun length => max 1 (nearestEven (scaled floats length scale)).toNat
  let count := fun w h => charged floats (min cap (parts floats w 32 * parts floats h 32)) multiplier
  let (w, h) := (side width, side height)
  match budget.filter fun budget => decide (0 < budget) &&
      decide (budget < parts floats w 32 * parts floats h 32) with
  | none => count w h
  | some budget =>
    match shrink floats budget w h with
    | none => charged floats cap multiplier
    | some (w, h) => count w h

end Openai

/-- `image_tokens`, from the size of the image and the detail of the block. -/
def imageTokens (floats : Floats) (digit : Char → Option Nat) (size : Option Size)
    (model detail : String) (anthropic : Bool) : Nat :=
  if anthropic then
    let (edge, cap) := claudeLimits digit model
    match size with
    | some size => claudeTokens floats edge cap size.width size.height
    | none => cap
  else
    let rules := openaiRules model detail
    match rules.method with
    | .unknown => 48169
    | .tiles =>
      if detail = "low" then rules.edge
      else match size with
        | none => rules.edge + 8 * rules.budget.getD 0
        | some size => tileTokens floats rules.edge (rules.budget.getD 0) size.width size.height
    | .patches =>
      let budget := rules.budget.filter (0 < ·)
      let cap := min (min (budget.getD 30000) (parts floats rules.edge 32 ^ 2)) 30000
      match size with
      | none => charged floats cap rules.multiplier
      | some size => patchTokens floats rules.edge cap rules.budget rules.multiplier size.width size.height

def pdfTextTokensPerPage : Nat := 3000

/-- `document_tokens`, from the number of pages -/
def documentTokens (floats : Floats) (digit : Char → Option Nat) (pages : Nat) (model : String)
    (anthropic : Bool) : Nat :=
  pages * (pdfTextTokensPerPage + imageTokens floats digit none model "auto" anthropic)

end TokenPak.SpendGuard.Media
