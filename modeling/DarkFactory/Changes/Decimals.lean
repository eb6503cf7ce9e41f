import DarkFactory.Changes.Text

namespace DarkFactory

/-- The zeros of the decimal digits of Unicode; nine more digits follow each. -/
def decimalZeros : List Nat :=
  [48, 1632, 1776, 1984, 2406, 2534, 2662, 2790, 2918, 3046, 3174, 3302, 3430, 3558, 3664, 3792, 3872, 4160, 4240,
    6112, 6160, 6470, 6608, 6784, 6800, 6992, 7088, 7232, 7248, 42528, 43216, 43264, 43472, 43504, 43600, 44016,
    65296, 66720, 68912, 69734, 69872, 69942, 70096, 70384, 70736, 70864, 71248, 71360, 71472, 71904, 72016, 72784,
    73040, 73120, 92768, 92864, 93008, 120782, 120792, 120802, 120812, 120822, 123200, 123632, 125264, 130032]

/-- `\d` -/
def decimal (c : Char) : Bool := decimalZeros.any fun first => first ≤ c.toNat && c.toNat ≤ first + 9

def digitValue (c : Char) : Option Nat :=
  (decimalZeros.find? fun first => first ≤ c.toNat && c.toNat ≤ first + 9).map (c.toNat - ·)

/-- How many digits `int` reads; a longer text is a `ValueError` like any other it rejects. -/
def maxIntDigits : Nat := 4300

def splitSign : List Char → Bool × List Char
  | '-' :: rest => (true, rest)
  | '+' :: rest => (false, rest)
  | rest => (false, rest)

/-- `int(text)`: a sign, and digits with single underscores between them. -/
def parseInt (text : String) : Option Int := do
  let (negative, digits) := splitSign (Text.strip text).toList
  let groups := digits.splitOnP (· = '_')
  guard (groups.all (· ≠ []))
  let values ← groups.flatten.mapM digitValue
  guard (values.length ≤ maxIntDigits)
  let magnitude : Nat := values.foldl (fun sum value => 10 * sum + value) 0
  return if negative then -(magnitude : Int) else magnitude

example : ["1000", " -1_000 ", "+٣", "1__0", "", "-", "1.0"].map parseInt =
    [some 1000, some (-1000), some 3, none, none, none, none] := by
  decide

end DarkFactory
