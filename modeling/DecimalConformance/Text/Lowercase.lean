import DecimalConformance.Text.Lowercase.Table

/-! Full lower-casing of text.
Each character maps by itself, but for a capital sigma, whose shape depends on whether it ends
a word, and the dotted capital I, which becomes two characters. -/
namespace DecimalConformance.Text

/-- Whether a code point lies in one of the ascending closed ranges. -/
def inRanges (ranges : List (Nat × Nat)) (n : Nat) : Bool :=
  match ranges.find? fun range => n ≤ range.2 with
  | some (lo, _) => lo ≤ n
  | none => false

def isCased (c : Char) : Bool := inRanges casedRanges c.toNat

def isCaseIgnorable (c : Char) : Bool := inRanges caseIgnorableRanges c.toNat

/-- The lower case of a character that has one of a single character. -/
def lowerChar (c : Char) : Char :=
  match lowercaseRuns.find? fun run => c.toNat ≤ run.last with
  | some run =>
    if run.first ≤ c.toNat ∧ (c.toNat - run.first) % run.step = 0 then
      Char.ofNat (c.toNat + run.shift).toNat
    else c
  | none => c

/-- Whether the next character that is not case-ignorable is cased. -/
def meetsCased (cs : List Char) : Bool :=
  match cs.dropWhile isCaseIgnorable with
  | [] => false
  | c :: _ => isCased c

/-- The lower case of one character; `before` holds what precedes it, the nearest first. -/
def lowerAt (before : List Char) (c : Char) (behind : List Char) : List Char :=
  if c = 'Σ' then [if meetsCased before && !meetsCased behind then 'ς' else 'σ']
  else if c = 'İ' then ['i', '\u0307']
  else [lowerChar c]

def lowerFrom (before : List Char) : List Char → List Char
  | [] => []
  | c :: behind => lowerAt before c behind ++ lowerFrom (c :: before) behind

/-- The text in lower case. -/
def lowercase (s : String) : String := String.ofList (lowerFrom [] s.toList)

end DecimalConformance.Text
