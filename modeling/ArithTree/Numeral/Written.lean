import ArithTree.Numeral.Shortest

/-!
# How a number is written

A number is written positionally, however large or small it is: with its shortest digits, zeros up
to the point where they are needed, no point behind a whole number and no exponent.
-/

namespace ArithTree.Numeral

def dropLastZeros (digits : List Char) : List Char :=
  (digits.reverse.dropWhile (· = '0')).reverse

def Decimal.positional (d : Decimal) : List Char :=
  match d.exponent with
  | .ofNat zeros => Nat.toDigits 10 d.digits ++ List.replicate zeros '0'
  | .negSucc n =>
      let digits := List.leftpad (n + 2) '0' (Nat.toDigits 10 d.digits)
      let whole := digits.take (digits.length - (n + 1))
      match dropLastZeros (digits.drop (digits.length - (n + 1))) with
      | [] => whole
      | fraction => whole ++ '.' :: fraction

def writeMagnitude (x : Float) : List Char :=
  if x.isInf then ['i', 'n', 'f']
  else
    let magnitude := Magnitude.ofBits x.toBits
    if magnitude.mantissa = 0 then ['0'] else magnitude.shortest.positional

/-- The text of a number: infinity is `inf`, what is no number is `NaN`, and a number with the sign
bit set, zero too, has a minus sign. -/
def write (x : Float) : String :=
  if x.isNaN then "NaN"
  else if x.toBits >>> 63 = 1 then String.ofList ('-' :: writeMagnitude x)
  else String.ofList (writeMagnitude x)

end ArithTree.Numeral
