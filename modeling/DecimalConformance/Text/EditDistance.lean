/-! Edit distance: the fewest insertions, deletions and substitutions of single characters that
turn one text into another, computed row by row over the ends of the second text. -/
namespace DecimalConformance.Text

/-- The distances from `x :: xs` to every end of the target, the whole target first, given
those from `xs`. -/
def distanceRow (x : Char) : (target : List Char) → (below : List Nat) → List Nat
  | [], below => [below.headD 0 + 1]
  | y :: target, below =>
    let row := distanceRow x target below.tail
    let substituted := below.tail.headD 0 + if x = y then 0 else 1
    min (min (below.headD 0 + 1) (row.headD 0 + 1)) substituted :: row

/-- The distances from nothing to every end of the target. -/
def emptyRow : (target : List Char) → List Nat
  | [] => [0]
  | _ :: target => (target.length + 1) :: emptyRow target

/-- The distances from a text to every end of the target. -/
def distances (source target : List Char) : List Nat :=
  source.foldr (fun x below => distanceRow x target below) (emptyRow target)

/-- The edit distance between two texts. -/
def editDistance (a b : String) : Nat := (distances a.toList b.toList).headD 0

/-- The candidate nearest to a text within a distance of three; of two at one distance the
alphabetically first. -/
def nearest? (searched : String) (candidates : List String) : Option String :=
  let scored := (candidates.map fun name => (editDistance searched name, name)).filter (·.1 ≤ 3)
  let closer (a b : Nat × String) : Nat × String :=
    if b.1 < a.1 ∨ (b.1 = a.1 ∧ b.2 < a.2) then b else a
  match scored with
  | [] => none
  | first :: rest => some (rest.foldl closer first).2

end DecimalConformance.Text
