/-!
# Binary interchange formats

Floating point numbers of half, single and double precision as bit patterns: a sign, a biased
exponent and a fraction. Every half or single is a double; the other way, a double is narrowed
only if nothing is lost.
-/

namespace SecureCoap

namespace Binary

/-- The widths of the exponent and fraction fields of a format. -/
structure Format where
  exponentBits : Nat
  fractionBits : Nat
deriving DecidableEq, Repr

def half : Format := ⟨5, 10⟩

def single : Format := ⟨8, 23⟩

def double : Format := ⟨11, 52⟩

/-- The exponent field that infinities and NaN have. -/
def Format.top (f : Format) : Nat := 1 <<< f.exponentBits - 1

/-- What is subtracted from the exponent field of an ordinary number. -/
def Format.bias (f : Format) : Nat := 1 <<< (f.exponentBits - 1) - 1

/-- The three fields of a number. -/
structure Fields where
  negative : Bool
  exponent : Nat
  fraction : Nat
deriving DecidableEq, Repr

def Format.fields (f : Format) (bits : Nat) : Fields where
  negative := bits.testBit (f.exponentBits + f.fractionBits)
  exponent := (bits >>> f.fractionBits) % (1 <<< f.exponentBits)
  fraction := bits % (1 <<< f.fractionBits)

def Format.pack (f : Format) (x : Fields) : Nat :=
  ((if x.negative then 1 <<< f.exponentBits else 0) + x.exponent) <<< f.fractionBits + x.fraction

def Fields.isNaN (x : Fields) : Bool := x.exponent = double.top && x.fraction ≠ 0

def Fields.isInfinite (x : Fields) : Bool := x.exponent = double.top && x.fraction = 0

/-! ### Widening -/

/-- The fields of the double with the value of a half or single. -/
def Format.widenFields (f : Format) (x : Fields) : Fields :=
  if x.exponent = f.top then
    ⟨x.negative, double.top, x.fraction <<< (double.fractionBits - f.fractionBits)⟩
  else if x.exponent ≠ 0 then
    ⟨x.negative, x.exponent + double.bias - f.bias,
      x.fraction <<< (double.fractionBits - f.fractionBits)⟩
  else if x.fraction = 0 then ⟨x.negative, 0, 0⟩
  else
    let k := x.fraction.log2
    ⟨x.negative, k + 1 + double.bias - f.bias - f.fractionBits,
      (x.fraction - 1 <<< k) <<< (double.fractionBits - k)⟩

def Format.widen (f : Format) (bits : Nat) : UInt64 :=
  UInt64.ofNat (double.pack (f.widenFields (f.fields bits)))

/-! ### Narrowing -/

/-- The fields in format `f` of a finite double, if `f` has its value. -/
def Format.narrowFields? (f : Format) (x : Fields) : Option Fields :=
  if x.exponent = 0 then
    if x.fraction = 0 then some ⟨x.negative, 0, 0⟩ else none
  else
    let spare := double.fractionBits - f.fractionBits
    if double.bias - f.bias < x.exponent then
      let exponent := x.exponent - (double.bias - f.bias)
      if exponent < f.top ∧ x.fraction % (1 <<< spare) = 0 then
        some ⟨x.negative, exponent, x.fraction >>> spare⟩
      else none
    else
      let shift := spare + 1 + (double.bias - f.bias - x.exponent)
      let significand := 1 <<< double.fractionBits + x.fraction
      if significand % (1 <<< shift) = 0 then some ⟨x.negative, 0, significand >>> shift⟩
      else none

def Format.narrow? (f : Format) (bits : UInt64) : Option Nat :=
  (f.narrowFields? (double.fields bits.toNat)).map f.pack

end Binary

end SecureCoap
