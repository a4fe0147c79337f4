import DecimalConformance.Yaml.Cursor
import DecimalConformance.Yaml.Scalar

/-! Tags: what kind of thing a YAML node is.
A tag is written in full, or with a handle that stands for its start.  A tag that starts with an
exclamation mark is local: it belongs to the text alone. -/
namespace DecimalConformance.Yaml.Tag

def isLocal (tag : String) : Bool := tag.startsWith "!"

/-- Tags that name a kind of scalar start so. -/
def core (kind : String) : String := "tag:yaml.org,2002:" ++ kind

/-! ## Handles -/

/-- Tag handles, and what they stand for. -/
abbrev Handles := List (String × String)

/-- What handles stand for as long as no directive says otherwise. -/
def usualHandles : Handles := [("!", "!"), ("!!", core "")]

/-- The tag that a handle and a suffix stand for; without a handle the suffix is the tag. -/
def resolve (handles : Handles) (handle suffix : String) : Except String String :=
  if handle.isEmpty then .ok suffix
  else
    match (handles ++ usualHandles).lookup handle with
    | some start => .ok (start ++ suffix)
    | none => .error "found undefined tag handle"

/-! ## Characters -/

/-- A character of a tag; in a tag that is written in full more of them are allowed. -/
def isTagChar (inFull : Bool) (c : Char) : Bool :=
  isWordChar c || ";/?:@&=+$.%!~*'()".contains c || (inFull && ",[]".contains c)

/-- The bytes of a tag: a percent sign stands for the byte with the hexadecimal digits behind it. -/
def bytes? : List Char → Option (List UInt8)
  | [] => some []
  | '%' :: high :: low :: rest => do
    let byte ← unsigned? 16 [high, low]
    return byte.toUInt8 :: (← bytes? rest)
  | '%' :: _ => none
  | c :: rest => return c.toNat.toUInt8 :: (← bytes? rest)

/-- The text of a tag; an empty one is none. -/
def ofChars (cs : List Char) : Except String String :=
  if cs.isEmpty then .error "did not find expected tag URI"
  else
    match (bytes? cs).bind fun bytes => String.fromUTF8? ⟨bytes.toArray⟩ with
    | some text => .ok text
    | none => .error "did not find URI escaped octet"

end DecimalConformance.Yaml.Tag
