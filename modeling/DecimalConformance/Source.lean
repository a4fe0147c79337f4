/-! The lines of a source, given as bytes.
A line ends at a line feed; a carriage return right before it belongs to the end of the line.
A line that is not well-formed UTF-8 cannot be read. -/
namespace DecimalConformance.Source

/-- The lines of a source, given the bytes of the line under way, the last first. -/
def splitFrom (line : List UInt8) : List UInt8 → List (List UInt8)
  | [] => if line.isEmpty then [] else [line.reverse]
  | 10 :: rest =>
    let ended := match line with
      | 13 :: before => before
      | _ => line
    ended.reverse :: splitFrom [] rest
  | byte :: rest => splitFrom (byte :: line) rest

/-- The bytes of each line. -/
def split (bytes : List UInt8) : List (List UInt8) := splitFrom [] bytes

/-- Why bytes are no text. -/
def notText : String := "stream did not contain valid UTF-8"

/-- The text of a line. -/
def decode (line : List UInt8) : Except String String :=
  match String.fromUTF8? ⟨line.toArray⟩ with
  | some text => .ok text
  | none => .error notText

/-- The lines of a source; a line that cannot be read stands as the reason. -/
def lines (bytes : ByteArray) : List (Except String String) :=
  (split bytes.toList).map decode

end DecimalConformance.Source
