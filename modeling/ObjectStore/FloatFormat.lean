/-!
# Binary floating-point formats

A number in a binary format is a sign bit, an exponent field and a fraction field.  `widen` turns a
word of a narrower format into the 64-bit word of the same number; a signalling NaN becomes the
quiet one with its payload.  `narrow?` goes back where nothing is lost.

Main statement: `widen_of_narrow?`, a narrowed word reads back to the same 64 bits.
-/

namespace ObjectStore

-- Powers are those of the core library, also where others are in sight.
attribute [local instance (high)] instPowNat

/-- The widths of the two fields below the sign bit. -/
structure FloatFormat where
  /-- Bits of the exponent field. -/
  exponentBits : Nat
  /-- Bits of the fraction field. -/
  fractionBits : Nat
  deriving DecidableEq, Repr

namespace FloatFormat

/-- Sixteen bits. -/
def half : FloatFormat := ⟨5, 10⟩

/-- Thirty-two bits. -/
def single : FloatFormat := ⟨8, 23⟩

/-- Sixty-four bits. -/
def double : FloatFormat := ⟨11, 52⟩

/-- The three fields of a word. -/
structure Fields where
  sign : Nat
  exponent : Nat
  fraction : Nat
  deriving DecidableEq, Repr

/-- Cuts a word into its fields. -/
def split (f : FloatFormat) (bits : Nat) : Fields where
  sign := bits / 2 ^ (f.exponentBits + f.fractionBits)
  exponent := bits / 2 ^ f.fractionBits % 2 ^ f.exponentBits
  fraction := bits % 2 ^ f.fractionBits

/-- Puts a word together. -/
def join (f : FloatFormat) (p : Fields) : Nat :=
  p.sign * 2 ^ (f.exponentBits + f.fractionBits) + p.exponent * 2 ^ f.fractionBits + p.fraction

/-- The exponent field of one. -/
def bias (f : FloatFormat) : Nat := 2 ^ (f.exponentBits - 1) - 1

/-- The exponent field of infinities and NaNs. -/
def top (f : FloatFormat) : Nat := 2 ^ f.exponentBits - 1

/-- The fraction bits that 64-bit words have beyond those of `f`. -/
def gap (f : FloatFormat) : Nat := double.fractionBits - f.fractionBits

/-- Sets the first bit of a NaN's fraction, which marks it as quiet. -/
def quiet (fraction : Nat) : Nat :=
  if fraction < 0x8000000000000 then fraction + 0x8000000000000 else fraction

/-- The 64-bit fields of the number with the given narrower ones. -/
def widenFields (f : FloatFormat) (p : Fields) : Fields :=
  if p.exponent = f.top then
    ⟨p.sign, double.top, if p.fraction = 0 then 0 else quiet (p.fraction * 2 ^ f.gap)⟩
  else if p.exponent ≠ 0 then
    ⟨p.sign, p.exponent + double.bias - f.bias, p.fraction * 2 ^ f.gap⟩
  else if p.fraction = 0 then ⟨p.sign, 0, 0⟩
  else
    -- the leading one of a subnormal fraction becomes the hidden bit
    let k := p.fraction.log2
    ⟨p.sign, double.bias + 1 + k - f.bias - f.fractionBits, (p.fraction - 2 ^ k) * 2 ^ (52 - k)⟩

/-- The 64-bit word of the number that `bits` stands for. -/
def widen (f : FloatFormat) (bits : Nat) : Nat := double.join (f.widenFields (f.split bits))

/-- The narrower fields with the given 64-bit ones, the fraction cut off where it does not fit. -/
def narrowFields (f : FloatFormat) (p : Fields) : Fields :=
  if p.exponent = double.top then ⟨p.sign, f.top, p.fraction / 2 ^ f.gap⟩
  else if double.bias < p.exponent + f.bias then
    ⟨p.sign, p.exponent + f.bias - double.bias, p.fraction / 2 ^ f.gap⟩
  else if p.exponent = 0 then ⟨p.sign, 0, 0⟩
  else
    let k := p.exponent + f.bias + f.fractionBits - double.bias - 1
    ⟨p.sign, 0, 2 ^ k + p.fraction / 2 ^ (52 - k)⟩

/-- The word of format `f` that widens to `bits`, if there is one. -/
def narrow? (f : FloatFormat) (bits : Nat) : Option Nat :=
  let narrowed := f.join (f.narrowFields (double.split bits))
  if f.widen narrowed = bits then some narrowed else none

/-- A narrowed word reads back to the same 64 bits. -/
theorem widen_of_narrow? {f : FloatFormat} {bits narrowed : Nat}
    (h : f.narrow? bits = some narrowed) : f.widen narrowed = bits := by
  simp only [narrow?] at h
  split at h
  · rename_i hw
    exact Option.some.inj h ▸ hw
  · cases h

/-! ## Comparison of 64-bit words -/

/-- Whether a 64-bit word is a NaN. -/
def isNaN (bits : Nat) : Bool :=
  (double.split bits).exponent == double.top && (double.split bits).fraction != 0

/-- Whether a 64-bit word is one of the two zeros. -/
def isZero (bits : Nat) : Bool := bits % 0x8000000000000000 == 0

/-- Numeric equality of 64-bit words: a NaN equals nothing, and the two zeros are equal. -/
def numEq (a b : Nat) : Bool :=
  !isNaN a && !isNaN b && (a == b || isZero a && isZero b)

end FloatFormat

end ObjectStore
