/-! The environment of a process: variables by name, in the order in which they are listed. -/
namespace DecimalConformance

abbrev Environment := List (String × String)

namespace Environment

/-- A variable from its listing, a name, an equals sign and a value.  A name is not empty, so an
equals sign in front belongs to it. -/
def assignment? (listing : String) : Option (String × String) :=
  match listing.toList with
  | [] => none
  | first :: rest =>
    match rest.dropWhile (· ≠ '=') with
    | [] => none
    | _ :: value => some (String.ofList (first :: rest.takeWhile (· ≠ '=')), String.ofList value)

/-- The environment that a system lists, each variable before a null character. -/
def ofListing (listing : String) : Environment := (listing.splitOn "\x00").filterMap assignment?

/-- Sets a variable among others that are in the order of their names. -/
def set (name value : String) : Environment → Environment
  | [] => [(name, value)]
  | (other, old) :: rest =>
    if name < other then (name, value) :: (other, old) :: rest
    else if name = other then (name, value) :: rest
    else (other, old) :: set name value rest

/-- What a process finds that is started with these variables: they are listed in the order of their
names, and the last value of a name counts. -/
def ofAssignments (assignments : List (String × String)) : Environment :=
  let sorted := assignments.foldl (fun earlier (name, value) => set name value earlier) []
  sorted.filterMap fun (name, value) => assignment? (name ++ "=" ++ value)

end Environment
end DecimalConformance
