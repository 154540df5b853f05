/-!
# How a number is read

A number text is an optional sign and either a decimal, with digits on at least one side of an
optional point and an optional exponent of ten, or one of the words for infinity and for what is no
number, in any case. The value of a decimal is rounded once, to the nearest binary64 number.
-/

namespace ArithTree.Numeral

def natOfDigits (digits : List Char) : Nat :=
  digits.foldl (fun n d => 10 * n + (d.toNat - '0'.toNat)) 0

structure Literal where
  /-- the digits before and after the point, as one run -/
  digits : List Char
  /-- the power of ten that the last digit counts -/
  scale : Int
  deriving DecidableEq, Repr

/-- The number nearest to a decimal. Decimals from `10 ^ 310` on are infinite and those below
`10 ^ (-330)` are zero, so their powers of ten are never computed. -/
def Literal.value (l : Literal) : Float :=
  let significant := l.digits.dropWhile (· = '0')
  let leading : Int := significant.length + l.scale
  if significant.isEmpty || leading < -330 then 0.0
  else if 310 < leading then 1.0 / 0.0
  else Float.ofScientific (natOfDigits significant) (l.scale < 0) l.scale.natAbs

/-- The value of the digits of an exponent. From 65536 on the exponent is beyond the range of any
decimal of a sensible length, and the digits that follow are passed over. -/
def exponentOfDigits (digits : List Char) : Nat :=
  digits.foldl (fun n d => if n < 0x10000 then 10 * n + (d.toNat - '0'.toNat) else n) 0

/-- The exponent of ten that ends a decimal: nothing, or its mark, an optional sign and digits. -/
def readExponent? : List Char → Option Int
  | [] => some 0
  | mark :: rest =>
      if mark = 'e' || mark = 'E' then
        let (negative, digits) :=
          match rest with
          | '-' :: digits => (true, digits)
          | '+' :: digits => (false, digits)
          | digits => (false, digits)
        if digits.isEmpty || !digits.all Char.isDigit then none
        else if negative then some (-(exponentOfDigits digits : Int))
        else some (exponentOfDigits digits)
      else none

def readLiteral? (text : List Char) : Option Literal :=
  let whole := text.takeWhile Char.isDigit
  let (fraction, tail) :=
    match text.dropWhile Char.isDigit with
    | '.' :: rest => (rest.takeWhile Char.isDigit, rest.dropWhile Char.isDigit)
    | rest => ([], rest)
  if whole.isEmpty && fraction.isEmpty then none
  else (readExponent? tail).map fun exponent => ⟨whole ++ fraction, exponent - fraction.length⟩

def readWord? (text : List Char) : Option Float :=
  let word := String.ofList (text.map Char.toLower)
  if word = "inf" || word = "infinity" then some (1.0 / 0.0)
  else if word = "nan" then some (0.0 / 0.0)
  else none

def readUnsigned? (text : List Char) : Option Float :=
  match readLiteral? text with
  | some l => some l.value
  | none => readWord? text

def read? (text : String) : Option Float :=
  match text.toList with
  | '-' :: rest => (readUnsigned? rest).map fun x => -x
  | '+' :: rest => readUnsigned? rest
  | rest => readUnsigned? rest

private theorem takeWhile_digits {digits : List Char} (hd : ∀ c ∈ digits, c.isDigit = true) :
    digits.takeWhile Char.isDigit = digits ∧ digits.dropWhile Char.isDigit = [] := by
  induction digits with
  | nil => exact ⟨rfl, rfl⟩
  | cons c digits ih =>
      have hc := hd c List.mem_cons_self
      have hrest := ih fun d hmem => hd d (List.mem_cons_of_mem _ hmem)
      simp [hc, hrest.1, hrest.2]

/-- A run of digits is the decimal of these digits. -/
theorem readLiteral?_digits {digits : List Char} (hne : digits ≠ [])
    (hd : ∀ c ∈ digits, c.isDigit = true) : readLiteral? digits = some ⟨digits, 0⟩ := by
  simp [readLiteral?, takeWhile_digits hd, readExponent?, hne]

end ArithTree.Numeral
