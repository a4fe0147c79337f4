import DecimalConformance.Proofs.Text.Fields
import DecimalConformance.Script.Line
import DecimalConformance.Source

/-! Texts written into a source and read back.
The bytes of a line feed and of a carriage return stand for nothing but these two, so that a source
falls into the lines it was put together from, up to white space at their ends. -/
namespace DecimalConformance

/-- What ends a line. -/
inductive LineEnd where
  | lineFeed
  | returnAndLineFeed
  deriving DecidableEq, Repr

def LineEnd.bytes : LineEnd → List UInt8
  | lineFeed => [10]
  | returnAndLineFeed => [13, 10]

namespace Source

/-- The bytes of a text. -/
def encode (text : String) : List UInt8 := text.toUTF8.toList

private theorem toList_loop (bytes : ByteArray) (i : Nat) (taken : List UInt8) :
    ByteArray.toList.loop bytes i taken = taken.reverse ++ bytes.data.toList.drop i := by
  fun_induction ByteArray.toList.loop bytes i taken with
  | case1 i taken inside ih =>
    have bound : i < bytes.data.toList.length := inside
    rw [ih, List.reverse_cons, List.append_assoc, List.drop_eq_getElem_cons bound]
    simp [ByteArray.get!, inside]
  | case2 i taken outside =>
    rw [List.drop_eq_nil_of_le (Nat.le_of_not_lt outside), List.append_nil]

private theorem toList_eq (bytes : ByteArray) : bytes.toList = bytes.data.toList :=
  toList_loop bytes 0 []

theorem encode_eq (text : String) : encode text = text.toList.flatMap String.utf8EncodeChar := by
  rw [encode, toList_eq, String.toUTF8_eq_toByteArray, ← String.utf8Encode_toList, List.utf8Encode,
    List.toList_data_toByteArray]

theorem decode_encode (text : String) : decode (encode text) = .ok text := by
  have same : (⟨(encode text).toArray⟩ : ByteArray) = text.toByteArray := by
    rw [encode, toList_eq, String.toUTF8_eq_toByteArray]
  rw [decode, same]
  simp only [String.fromUTF8?, dif_pos text.isValidUTF8]
  rfl

theorem encode_eq_nil_iff {text : String} : encode text = [] ↔ text = "" := by
  have blank : encode "" = [] := by
    rw [encode_eq]
    rfl
  constructor
  · intro none
    have same := decode_encode text
    rw [none, ← blank, decode_encode] at same
    exact (Except.ok.inj same).symm
  · rintro rfl
    exact blank

/-- A byte of a character is the character itself or outside of ASCII. -/
private theorem toNat_of_mem_utf8EncodeChar {c : Char} {byte : UInt8}
    (mem : byte ∈ String.utf8EncodeChar c) : byte.toNat = c.toNat ∨ 128 ≤ byte.toNat := by
  have value : c.toNat = c.val.toNat := rfl
  simp only [String.utf8EncodeChar] at mem
  split at mem
  · obtain rfl := List.mem_singleton.mp mem
    rw [UInt8.toNat_ofNat']
    omega
  right
  split at mem
  · simp only [List.mem_cons, List.not_mem_nil, or_false] at mem
    rcases mem with rfl | rfl <;> simp <;> omega
  split at mem
  · simp only [List.mem_cons, List.not_mem_nil, or_false] at mem
    rcases mem with rfl | rfl | rfl <;> simp <;> omega
  · simp only [List.mem_cons, List.not_mem_nil, or_false] at mem
    rcases mem with rfl | rfl | rfl | rfl <;> simp <;> omega

private theorem eq_of_mem_utf8EncodeChar {found c : Char} (ascii : c.toNat < 128)
    (mem : UInt8.ofNat c.toNat ∈ String.utf8EncodeChar found) : found = c := by
  have same : found.toNat = c.toNat := by
    have value := toNat_of_mem_utf8EncodeChar mem
    rw [UInt8.toNat_ofNat'] at value
    omega
  rw [← Char.ofNat_toNat found, same, Char.ofNat_toNat]

theorem mem_of_mem_encode {text : String} {c : Char} (ascii : c.toNat < 128)
    (mem : UInt8.ofNat c.toNat ∈ encode text) : c ∈ text.toList := by
  rw [encode_eq, List.mem_flatMap] at mem
  obtain ⟨found, inside, byte⟩ := mem
  obtain rfl := eq_of_mem_utf8EncodeChar ascii byte
  exact inside

theorem getLast?_of_getLast?_encode {text : String} {c : Char} (ascii : c.toNat < 128)
    (last : (encode text).getLast? = some (UInt8.ofNat c.toNat)) :
    text.toList.getLast? = some c := by
  rw [encode_eq] at last
  rcases List.eq_nil_or_concat text.toList with empty | ⟨front, found, whole⟩
  · rw [empty] at last
    cases last
  · have filled : String.utf8EncodeChar found ≠ [] := by
      rw [ne_eq, ← List.length_eq_zero_iff, String.length_utf8EncodeChar]
      exact Nat.ne_of_gt found.utf8Size_pos
    have ending := List.getLast?_eq_some_getLast filled
    rw [whole, List.concat_eq_append, List.flatMap_append, List.flatMap_singleton,
      List.getLast?_append, ending, Option.some_or, ← ending] at last
    rw [whole, List.concat_eq_append, List.getLast?_concat,
      eq_of_mem_utf8EncodeChar ascii (List.mem_of_getLast? last)]

private theorem splitFrom_append {front : List UInt8} (unended : 10 ∉ front)
    (line rest : List UInt8) :
    splitFrom line (front ++ rest) = splitFrom (front.reverse ++ line) rest := by
  induction front generalizing line with
  | nil => rfl
  | cons byte front ih =>
    obtain ⟨other, unended⟩ := List.ne_and_not_mem_of_not_mem_cons unended
    rw [List.cons_append, splitFrom, ih unended, List.reverse_cons, List.append_assoc]
    · rfl
    · intro feed
      exact other feed.symm

theorem split_append_return {front : List UInt8} (unended : 10 ∉ front) (rest : List UInt8) :
    split (front ++ 13 :: 10 :: rest) = front :: split rest := by
  rw [split, splitFrom_append unended, List.append_nil, splitFrom, splitFrom, List.reverse_reverse]
  · rfl
  · decide

theorem split_append_lineFeed {front : List UInt8} (unended : 10 ∉ front)
    (whole : front.getLast? ≠ some 13) (rest : List UInt8) :
    split (front ++ 10 :: rest) = front :: split rest := by
  rw [split, splitFrom_append unended, List.append_nil, splitFrom, List.reverse_reverse]
  · rfl
  · intro before ends
    apply whole
    rw [← List.head?_reverse, ends]
    rfl

theorem split_eq_singleton {front : List UInt8} (unended : 10 ∉ front) (filled : front ≠ []) :
    split front = [front] := by
  have scanned := splitFrom_append unended [] []
  rw [List.append_nil, List.append_nil] at scanned
  rw [split, scanned, splitFrom, if_neg (by simpa using filled), List.reverse_reverse]

/-- A line with its end is read as itself, up to a carriage return that a line feed swallows. -/
theorem exists_split_line {text : String} (isLine : '\n' ∉ text.toList) (ending : LineEnd) :
    ∃ read, Script.normalize read = Script.normalize text ∧
      ∀ rest, split (encode text ++ ending.bytes ++ rest) = encode read :: split rest := by
  have unended : 10 ∉ encode text := fun feed => isLine (mem_of_mem_encode (by decide) feed)
  cases ending with
  | returnAndLineFeed =>
    refine ⟨text, rfl, fun rest => ?_⟩
    rw [List.append_assoc]
    exact split_append_return unended rest
  | lineFeed =>
    by_cases ends : text.toList.getLast? = some '\r'
    · -- The carriage return is the text's own, but it is white space, so that nothing is lost.
      obtain ⟨front, whole⟩ := List.getLast?_eq_some_iff.mp ends
      have bytes : encode text = encode (String.ofList front) ++ [13] := by
        rw [encode_eq, encode_eq, whole, List.flatMap_append, String.toList_ofList]
        rfl
      rw [bytes] at unended ⊢
      refine ⟨String.ofList front, ?_, fun rest => ?_⟩
      · rw [Script.normalize, Script.normalize, Text.trim, Text.trim, whole, String.toList_ofList,
          Text.trimChars_append_blank (by decide)]
      · rw [List.append_assoc, List.append_assoc]
        exact split_append_return (fun feed => unended (List.mem_append_left _ feed)) rest
    · have whole : (encode text).getLast? ≠ some 13 :=
        fun last => ends (getLast?_of_getLast?_encode (by decide) last)
      refine ⟨text, rfl, fun rest => ?_⟩
      rw [List.append_assoc]
      exact split_append_lineFeed unended whole rest

end Source

/-- A source put together from lines with their ends, and a last line without one. -/
structure Written where
  name : String
  ended : List (String × LineEnd)
  last? : Option String
  isLine : ∀ text ∈ ended.map Prod.fst ++ last?.toList, '\n' ∉ text.toList

namespace Written

def lines (written : Written) : List String := written.ended.map Prod.fst ++ written.last?.toList

/-- The bytes of a source. -/
def bytes (written : Written) : List UInt8 :=
  (written.ended.flatMap fun (text, ending) => Source.encode text ++ ending.bytes) ++
    written.last?.toList.flatMap Source.encode

/-- What is read from a source. -/
def content (written : Written) : List (Except String String) :=
  Source.lines written.bytes.toByteArray

private theorem exists_split_bytes (written : Written) :
    ∃ read lost, Source.split written.bytes = read.map Source.encode ∧ (lost = [] ∨ lost = [""]) ∧
      (read ++ lost).map Script.normalize = written.lines.map Script.normalize := by
  obtain ⟨name, ended, last?, isLine⟩ := written
  simp only [bytes, lines]
  induction ended with
  | nil =>
    cases last? with
    | none => exact ⟨[], [], rfl, .inl rfl, rfl⟩
    | some text =>
      rw [Option.toList_some, List.flatMap_nil, List.nil_append, List.flatMap_singleton]
      by_cases empty : text = ""
      · refine ⟨[], [""], ?_, .inr rfl, by rw [empty]; rfl⟩
        rw [Source.encode_eq_nil_iff.mpr empty]
        rfl
      · have unended : 10 ∉ Source.encode text :=
          fun feed => isLine text (by simp) (Source.mem_of_mem_encode (by decide) feed)
        refine ⟨[text], [], ?_, .inl rfl, rfl⟩
        exact Source.split_eq_singleton unended (mt Source.encode_eq_nil_iff.mp empty)
  | cons first rest ih =>
    obtain ⟨text, ending⟩ := first
    obtain ⟨line, same, splits⟩ := Source.exists_split_line (isLine text (by simp)) ending
    obtain ⟨read, lost, split, empty, normal⟩ :=
      ih fun other mem => isLine other (List.mem_cons_of_mem _ mem)
    refine ⟨line :: read, lost, ?_, empty, ?_⟩
    · rw [List.flatMap_cons, List.append_assoc, splits, split, List.map_cons]
    · rw [List.cons_append, List.map_cons, same, normal]
      rfl

/-- The lines of a source are read one by one, save an empty one that nothing ends. -/
theorem exists_content (written : Written) :
    ∃ read lost, written.content = read.map .ok ∧ (lost = [] ∨ lost = [""]) ∧
      (read ++ lost).map Script.normalize = written.lines.map Script.normalize := by
  obtain ⟨read, lost, split, empty, normal⟩ := written.exists_split_bytes
  refine ⟨read, lost, ?_, empty, normal⟩
  rw [content, Source.lines, Source.toList_eq, List.toList_data_toByteArray, split, List.map_map]
  exact List.map_congr_left fun text _ => Source.decode_encode text

end Written
end DecimalConformance
