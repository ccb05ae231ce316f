import Flashcards.Text.Blank

namespace Flashcards.Text

/-!
# Numerals

A numeral is written in decimal digits, and what it denotes fits in a word of 64 bits.

* `unsigned64?` — the number of a numeral, which may have a plus sign.
* `readWord64?` — the number of a numeral with blank characters around it.
* `isDecimal` — whether a text denotes a number of any size, with a fraction or not.
-/

/-- The number that decimal digits denote, the first digit the most significant. -/
def digitsValue (digits : List Char) : Nat :=
  digits.foldl (fun n c => 10 * n + (c.toNat - '0'.toNat)) 0

/-- The number of values of a word of 64 bits. -/
def wordSize : Nat := 0x10000000000000000

/-- The number of digits of the greatest value of a word. -/
def wordDigits : Nat := 20

/-- The number of some characters: decimal digits, at least one, that denote one of the values of
    a word. -/
def digits64? (cs : List Char) : Option Nat :=
  if cs.isEmpty || !cs.all Char.isDigit then none
  else
    let significant := cs.dropWhile (· = '0')
    if wordDigits < significant.length then none
    else if digitsValue significant < wordSize then some (digitsValue significant)
    else none

/-- The number of a text, after at most one plus sign. -/
def unsigned64? : List Char → Option Nat
  | '+' :: cs => digits64? cs
  | cs => digits64? cs

/-- The number of a text with blank characters around it. -/
def readWord64? (text : String) : Option Nat :=
  unsigned64? (trim text.toList)

/-! ### Numbers of any size -/

/-- A text without the sign at its start. -/
def dropSign : List Char → List Char
  | '+' :: cs => cs
  | '-' :: cs => cs
  | cs => cs

/-- Whether a text is empty or an exponent. -/
def isExponent : List Char → Bool
  | [] => true
  | c :: cs => (c = 'e' || c = 'E') && !(dropSign cs).isEmpty && (dropSign cs).all Char.isDigit

/-- Whether a text is digits with at most one point, and an exponent or none behind them. -/
def isFraction (cs : List Char) : Bool :=
  match cs.dropWhile Char.isDigit with
  | '.' :: rest =>
    (!(cs.takeWhile Char.isDigit).isEmpty || !(rest.takeWhile Char.isDigit).isEmpty) &&
      isExponent (rest.dropWhile Char.isDigit)
  | rest => !(cs.takeWhile Char.isDigit).isEmpty && isExponent rest

/-- The names of what is no finite number. -/
def endlessNames : List String :=
  ["inf", "infinity", "nan"]

/-- Whether a text denotes a number: a sign or none, then digits or, in capital letters or not, the
    name of what is no finite number. -/
def isDecimal (cs : List Char) : Bool :=
  isFraction (dropSign cs) || endlessNames.contains (String.ofList ((dropSign cs).map Char.toLower))

end Flashcards.Text
