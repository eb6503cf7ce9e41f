import Mathlib.Algebra.Ring.Int.Defs
import Mathlib.Algebra.Ring.Nat
import Mathlib.Data.Nat.Log
import Mathlib.Tactic.Common

namespace DarkFactory

/-- Microseconds since the epoch, UTC. -/
abbrev Timestamp := Int

/-- A finite decimal `unscaled * 10 ^ exponent`; the exponent is kept, as in the printed form. -/
structure Decimal where
  unscaled : Int
  exponent : Int
  deriving DecidableEq, Repr

namespace Decimal

def zero : Decimal := ⟨0, 0⟩

def rescaled (d : Decimal) (exponent : Int) : Int := d.unscaled * 10 ^ (d.exponent - exponent).toNat

/-- The significant digits of the default context. -/
def precision : Nat := 28

/-- How many units, to the nearest; what lies halfway goes to the even number. -/
def halfEven (n unit : Nat) : Nat :=
  let whole := n / unit
  let rest := n % unit
  if unit < 2 * rest ∨ (2 * rest = unit ∧ whole % 2 = 1) then whole + 1 else whole

/-- What the default context leaves of an exact result. -/
def rounded (d : Decimal) : Decimal :=
  let cut := Nat.log 10 d.unscaled.natAbs + 1 - precision
  let kept := halfEven d.unscaled.natAbs (10 ^ cut)
  -- Rounding up can carry into one digit more.
  if kept = 10 ^ precision then ⟨d.unscaled.sign * 10 ^ (precision - 1), d.exponent + cut + 1⟩
  else ⟨d.unscaled.sign * kept, d.exponent + cut⟩

def exactSum (a b : Decimal) : Decimal :=
  let exponent := min a.exponent b.exponent
  ⟨a.rescaled exponent + b.rescaled exponent, exponent⟩

def add (a b : Decimal) : Decimal := (a.exactSum b).rounded

def le (a b : Decimal) : Bool :=
  let exponent := min a.exponent b.exponent
  decide (a.rescaled exponent ≤ b.rescaled exponent)

def text (d : Decimal) : String :=
  let digits := (toString d.unscaled.natAbs).toList
  let left := d.exponent + digits.length
  -- Plain notation down to a millionth; else one digit stands before the point, and an exponent follows.
  let point := if d.exponent ≤ 0 ∧ -6 < left then left else 1
  let whole := if point ≤ 0 then ['0'] else digits.take point.toNat ++ List.replicate (point.toNat - digits.length) '0'
  let part := List.replicate (-point).toNat '0' ++ digits.drop point.toNat
  let power := left - point
  (if d.unscaled < 0 then "-" else "") ++ String.ofList whole ++
    (if part = [] then "" else "." ++ String.ofList part) ++
    (if power = 0 then "" else "E" ++ (if power < 0 then "-" else "+") ++ toString power.natAbs)

end Decimal

namespace Text

/-- The characters `str.strip` removes: the white space and separator code points. -/
def isSpace (c : Char) : Bool :=
  let n := c.toNat
  (9 ≤ n && n ≤ 13) || (28 ≤ n && n ≤ 32) || n == 0x85 || n == 0xA0 || n == 0x1680 ||
    (0x2000 ≤ n && n ≤ 0x200A) || n == 0x2028 || n == 0x2029 || n == 0x202F || n == 0x205F ||
    n == 0x3000

def strip (s : String) : String :=
  String.ofList ((s.toList.dropWhile isSpace).reverse.dropWhile isSpace).reverse

def removePrefix (s head : String) : String :=
  if head.toList.isPrefixOf s.toList then String.ofList (s.toList.drop head.toList.length) else s

def startsWith (s head : String) : Bool := head.toList.isPrefixOf s.toList

def hexDigits (width n : Nat) : String :=
  let digits := String.ofList (Nat.toDigits 16 n)
  String.ofList (List.replicate (width - digits.length) '0') ++ digits

def apostrophe : Char := Char.ofNat 39
def quotation : Char := Char.ofNat 34
def backslash : Char := Char.ofNat 92

/-- One character inside the quotes of `repr`; code points above ASCII count as printable. -/
def reprChar (quote c : Char) : String :=
  if c = quote ∨ c = backslash then backslash.toString ++ c.toString
  else if c = '\n' then "\\n"
  else if c = '\r' then "\\r"
  else if c = '\t' then "\\t"
  else if c.toNat < 32 ∨ c.toNat = 127 then "\\x" ++ hexDigits 2 c.toNat
  else c.toString

def repr (s : String) : String :=
  let quote := if s.toList.contains apostrophe && !s.toList.contains quotation then quotation else apostrophe
  quote.toString ++ String.join (s.toList.map (reprChar quote)) ++ quote.toString

/-- `text.split()`: the runs of characters that are no white space. -/
def words (text : String) : List String := ((text.toList.splitOnP isSpace).filter (· ≠ [])).map String.ofList

def shown (text : Option String) : String := text.getD "None"

def join (separator : String) (parts : List String) : String := String.intercalate separator parts

def digits (width : Nat) (n : Nat) : String :=
  let shown := toString n
  String.ofList (List.replicate (width - shown.length) '0') ++ shown

/-- `datetime.isoformat` of a UTC instant, on the proleptic Gregorian calendar. -/
def isoformat (t : Timestamp) : String :=
  let seconds := t / 1000000
  let micros := (t % 1000000).toNat
  let days := seconds / 86400
  let clock := (seconds % 86400).toNat
  let shifted := days + 719468
  let era := shifted / 146097
  let dayOfEra := (shifted % 146097).toNat
  let yearOfEra := (dayOfEra - dayOfEra / 1460 + dayOfEra / 36524 - dayOfEra / 146096) / 365
  let dayOfYear := dayOfEra - (365 * yearOfEra + yearOfEra / 4 - yearOfEra / 100)
  let shiftedMonth := (5 * dayOfYear + 2) / 153
  let day := dayOfYear - (153 * shiftedMonth + 2) / 5 + 1
  let month := if shiftedMonth < 10 then shiftedMonth + 3 else shiftedMonth - 9
  let year := (yearOfEra + era * 400 + if month ≤ 2 then 1 else 0).toNat
  digits 4 year ++ "-" ++ digits 2 month ++ "-" ++ digits 2 day ++ "T" ++
    digits 2 (clock / 3600) ++ ":" ++ digits 2 (clock % 3600 / 60) ++ ":" ++ digits 2 (clock % 60) ++
    (if micros = 0 then "" else "." ++ digits 6 micros) ++ "+00:00"

end Text

example : Text.isoformat 1789344000000000 = "2026-09-14T00:00:00+00:00" := by decide +kernel
example : [⟨-105, -2⟩, ⟨1, 3⟩, ⟨25, -7⟩, ⟨12, -8⟩, ⟨0, 0⟩].map Decimal.text =
    ["-1.05", "1E+3", "0.0000025", "1.2E-7", "0"] := by decide +kernel
example : Decimal.zero.add ⟨1000000000000000055511151231257827, -34⟩ = ⟨1000000000000000055511151231, -28⟩ := by
  decide +kernel
example : (⟨9999999999999999999999999999, 0⟩ : Decimal).add ⟨5, -1⟩ = ⟨1000000000000000000000000000, 1⟩ := by
  decide +kernel

end DarkFactory
