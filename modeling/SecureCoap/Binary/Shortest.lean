import SecureCoap.Binary.Interchange

/-!
# Decimal text of a double

The fewest decimal digits that read back as the same double, and of those the nearest to it; an
exact tie goes to the larger one. The digits are written out in full, without an exponent.
-/

namespace SecureCoap

namespace Shortest

/-- A positive fraction `num / den`. -/
structure Ratio where
  num : Nat
  den : Nat

def Ratio.scaled (n b : Nat) (e : Int) : Ratio :=
  if 0 ≤ e then ⟨n * Nat.pow b e.toNat, 1⟩ else ⟨n, Nat.pow b (-e).toNat⟩

def Ratio.le (x y : Ratio) : Bool := x.num * y.den ≤ y.num * x.den

def Ratio.lt (x y : Ratio) : Bool := x.num * y.den < y.num * x.den

/-- A positive double: its value, and the numbers that are read as it lie from `low` to `high`,
ends included if `closed`. -/
structure Target where
  value : Ratio
  low : Ratio
  high : Ratio
  closed : Bool

/-- The target for a finite double that is not zero. Just above a power of two, the numbers that
are read as the double reach only half as far down as up. -/
def Target.ofFields (x : Binary.Fields) : Target :=
  let significand :=
    if x.exponent = 0 then x.fraction else 1 <<< Binary.double.fractionBits + x.fraction
  let exponent : Int := max x.exponent 1 - Binary.double.bias - Binary.double.fractionBits
  let below := if x.fraction = 0 ∧ 1 < x.exponent then 1 else 2
  { value := .scaled (4 * significand) 2 (exponent - 2)
    low := .scaled (4 * significand - below) 2 (exponent - 2)
    high := .scaled (4 * significand + 2) 2 (exponent - 2)
    closed := significand % 2 = 0 }

/-- Whether a number is read as the double. -/
def Target.contains (t : Target) (x : Ratio) : Bool :=
  if t.closed then t.low.le x && x.le t.high else t.low.lt x && x.lt t.high

/-- The least `k ≥ start` with `x < 10 ^ k`, if it is within `n` steps. -/
def magnitudeFrom (x : Ratio) : (n : Nat) → (start : Int) → Int
  | 0, k => k
  | n + 1, k => if x.lt (.scaled 1 10 k) then k else magnitudeFrom x n (k + 1)

/-- The position of the leading digit of a value between the smallest and the largest double. -/
def magnitude (x : Ratio) : Int := magnitudeFrom x 640 (-324)

/-- The point of the grid `10 ^ e` next to the value that is read as the double, if there is one:
the nearer of the two next to it, and the upper one on a tie. -/
def onGrid? (t : Target) (e : Int) : Option Nat :=
  let unit := Ratio.scaled 1 10 e
  let lower := t.value.num * unit.den / (t.value.den * unit.num)
  let upper := lower + 1
  match t.contains (.scaled lower 10 e), t.contains (.scaled upper 10 e) with
  | true, false => some lower
  | false, true => some upper
  | false, false => none
  | true, true =>
    let middle := Ratio.scaled (2 * lower + 1) 10 e
    if Ratio.lt ⟨2 * t.value.num, t.value.den⟩ middle then some lower else some upper

/-- Tries grids of growing fineness, from the one of the leading digit on. -/
def search (t : Target) : (n : Nat) → (e : Int) → Nat × Int
  | 0, e => (t.value.num / t.value.den, e)
  | n + 1, e =>
    match onGrid? t e with
    | some digits => (digits, e)
    | none => search t n (e - 1)

def digits (x : Binary.Fields) : Nat × Int :=
  let t := Target.ofFields x
  search t 20 (magnitude t.value - 1)

/-- A number times a power of ten in positional notation, with at least one place. -/
def positional (n : Nat) (e : Int) : String :=
  if 0 ≤ e then toString n ++ String.ofList (List.replicate e.toNat '0') ++ ".0"
  else
    let places := (-e).toNat
    let ds := Nat.toDigits 10 n
    let padded := List.replicate (places + 1 - ds.length) '0' ++ ds
    let whole := padded.take (padded.length - places)
    let part := (padded.drop (padded.length - places)).reverse.dropWhile (· = '0') |>.reverse
    String.ofList whole ++ "." ++ (if part.isEmpty then "0" else String.ofList part)

end Shortest

def Binary.render (bits : UInt64) : String :=
  let x := Binary.double.fields bits.toNat
  let sign := if x.negative then "-" else ""
  if x.isNaN then "NaN"
  else if x.isInfinite then sign ++ "inf"
  else if x.exponent = 0 ∧ x.fraction = 0 then sign ++ "0.0"
  else
    let (n, e) := Shortest.digits x
    sign ++ Shortest.positional n e

end SecureCoap
