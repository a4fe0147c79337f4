/-! White space: the 25 characters with the property White_Space, trimming and splitting by them. -/
namespace DecimalConformance.Text

/-- The code points with the property White_Space, as closed ranges. -/
def blankRanges : List (Nat × Nat) :=
  [(0x09, 0x0D), (0x20, 0x20), (0x85, 0x85), (0xA0, 0xA0), (0x1680, 0x1680), (0x2000, 0x200A),
   (0x2028, 0x2029), (0x202F, 0x202F), (0x205F, 0x205F), (0x3000, 0x3000)]

/-- Whether a character is white space. -/
def isBlank (c : Char) : Bool := blankRanges.any fun (lo, hi) => lo ≤ c.toNat && c.toNat ≤ hi

/-- The characters without the white space at both ends. -/
def trimChars (cs : List Char) : List Char :=
  ((cs.dropWhile isBlank).reverse.dropWhile isBlank).reverse

/-- The text without the white space at both ends. -/
def trim (s : String) : String := String.ofList (trimChars s.toList)

/-- The runs of characters between white space, given the run under way. -/
def fieldsFrom (run : List Char) : List Char → List (List Char)
  | [] => if run.isEmpty then [] else [run.reverse]
  | c :: rest =>
    if isBlank c then
      if run.isEmpty then fieldsFrom [] rest else run.reverse :: fieldsFrom [] rest
    else fieldsFrom (c :: run) rest

/-- The fields of a text: its maximal runs without white space. -/
def fields (s : String) : List String := (fieldsFrom [] s.toList).map String.ofList

/-- What follows `head` in `cs`, if `cs` starts with it. -/
def dropHead? : (head cs : List Char) → Option (List Char)
  | [], cs => some cs
  | _ :: _, [] => none
  | h :: head, c :: cs => if h = c then dropHead? head cs else none

/-- Something follows `head` exactly where the characters are `head` and that. -/
theorem dropHead?_eq_some_iff {head cs rest : List Char} :
    dropHead? head cs = some rest ↔ cs = head ++ rest := by
  fun_induction dropHead? head cs with
  | case1 cs => simp [eq_comm]
  | case2 => simp
  | case3 head c cs ih => simp [ih]
  | case4 h head c cs hne => simp [Ne.symm hne]

/-- What follows `head` in `s`, if `s` starts with it. -/
def after? (head s : String) : Option String :=
  (dropHead? head.toList s.toList).map String.ofList

/-- Whether `s` starts with `head`. -/
def startsWith (head s : String) : Bool := (after? head s).isSome

end DecimalConformance.Text
