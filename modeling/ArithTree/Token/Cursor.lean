import ArithTree.Token.Scan

/-!
# Scanning with a cursor

The characters of a text are counted, and so are the bytes that they take in UTF-8. From the first
digit of an operand the cursor looks ahead to the end of the run, and the operand is the slice of
the text between the two offsets. An error names its character by the count of characters, never by
an offset.
-/

namespace ArithTree

namespace Text

/-- The part of a text between two offsets in bytes. There is none if an offset lies beyond the end
or within a character, or if they are not in order. -/
def slice? (text : String) (start stop : Nat) : Option String :=
  if h : (⟨start⟩ : String.Pos.Raw).IsValid text ∧ (⟨stop⟩ : String.Pos.Raw).IsValid text ∧
      start ≤ stop then
    some (text.extract ⟨⟨start⟩, h.1⟩ ⟨⟨stop⟩, h.2.1⟩)
  else none

/-- The slice between the ends of two adjoining parts is the second part. -/
theorem slice?_append (before part after : String) :
    slice? (before ++ part ++ after) before.utf8ByteSize
      (before.utf8ByteSize + part.utf8ByteSize) = some part := by
  have hstart : (⟨before.utf8ByteSize⟩ : String.Pos.Raw).IsValid (before ++ part ++ after) :=
    String.Pos.Raw.isValid_iff_exists_append.2
      ⟨before, part ++ after, String.append_assoc .., rfl⟩
  have hstop : (⟨before.utf8ByteSize + part.utf8ByteSize⟩ : String.Pos.Raw).IsValid
      (before ++ part ++ after) := by
    refine String.Pos.Raw.isValid_iff_exists_append.2 ⟨before ++ part, after, rfl, ?_⟩
    rw [String.Pos.Raw.ext_iff, String.byteIdx_rawEndPos, String.utf8ByteSize_append]
  rw [slice?, dif_pos ⟨hstart, hstop, Nat.le_add_right ..⟩]
  refine congrArg some (String.toByteArray_inj.1 ?_)
  rw [String.toByteArray_extract]
  show (before ++ part ++ after).toByteArray.extract (before.utf8ByteSize + 0)
    (before.utf8ByteSize + part.utf8ByteSize) = part.toByteArray
  rw [String.append_assoc, String.toByteArray_append, String.toByteArray_append,
    ← String.size_toByteArray, ← String.size_toByteArray, ByteArray.extract_append_size_add,
    ByteArray.extract_append_eq_left rfl]

structure Located where
  character : Char
  position : Nat
  start : Nat
  deriving DecidableEq, Repr

def Located.stop (c : Located) : Nat := c.start + c.character.utf8Size

def locate (position start : Nat) : List Char → List Located
  | [] => []
  | c :: rest => ⟨c, position, start⟩ :: locate (position + 1) (start + c.utf8Size) rest

/-- Takes the digits in front, and says where the last of them ends; `stop` is where the digit
before them ends. -/
def digitsAhead (stop : Nat) : List Located → Nat × List Located
  | [] => (stop, [])
  | c :: rest => if c.character.isDigit then digitsAhead c.stop rest else (stop, c :: rest)

theorem length_digitsAhead_le (stop : Nat) (cs : List Located) :
    (digitsAhead stop cs).2.length ≤ cs.length := by
  induction cs generalizing stop with
  | nil => exact Nat.le_refl 0
  | cons c rest ih =>
      rw [digitsAhead]
      split
      · exact Nat.le_succ_of_le (ih c.stop)
      · exact Nat.le_refl _

end Text

/-- Scans the characters under the cursor and those behind it; `made` holds the tokens before, the
last one first. There is no answer if the offsets of an operand cut no slice out of the text. -/
def Token.scanLocated? (source : String) (made : List Token) :
    List Text.Located → Option (Except Cause (List Token))
  | [] => some (.ok made.reverse)
  | c :: rest =>
      if Text.isBlank c.character then scanLocated? source made rest
      else if c.character ∈ symbols then
        match read c.character.toString with
        | .ok symbol => scanLocated? source (symbol :: made) rest
        | .error cause => some (.error cause)
      else if c.character.isDigit then
        match Text.slice? source c.start (Text.digitsAhead c.stop rest).1 with
        | some text => scanLocated? source (.operand text :: made) (Text.digitsAhead c.stop rest).2
        | none => none
      else some (.error (.unexpectedCharacter c.character c.position))
termination_by cs => cs.length
decreasing_by
  · exact Nat.lt_succ_self _
  · exact Nat.lt_succ_self _
  · exact Nat.lt_succ_of_le (Text.length_digitsAhead_le _ _)

def Token.scanWithCursor? (source : String) : Option (Except Cause (List Token)) :=
  scanLocated? source [] (Text.locate 0 0 source.toList)

end ArithTree
