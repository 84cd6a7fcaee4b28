namespace AssetPack.Settings

/-! Decimal numbers, of which only those in the range of double precision are read. -/

/-- A power of ten, times a significand of at most 64 bits. -/
structure Decimal where
  significand : Nat
  exponent : Int
  deriving DecidableEq, Repr

namespace Decimal

def digit (c : Char) : Nat := c.toNat - '0'.toNat

def natOf (digits : List Char) : Nat := digits.foldl (fun n c => n * 10 + digit c) 0

def significandEnd : Nat := UInt64.size

/-- Puts digits behind the significand as long as it has room. Gives the number of those put
there, too. -/
def append (significand : Nat) : List Char → Nat × Nat
  | [] => (significand, 0)
  | c :: rest =>
    let longer := significand * 10 + digit c
    if longer < significandEnd then
      let (last, count) := append longer rest
      (last, count + 1)
    else (significand, 0)

/-- The number with the digits before and behind the point, times a power of ten. The digits
without room count as zeros. -/
def ofDigits (whole fraction : List Char) (power : Int) : Decimal :=
  let (significand, kept) := append 0 whole
  let (significand, places) := append significand fraction
  ⟨significand, power + (whole.length - kept : Nat) - places⟩

/-- The nearest number of 53 significant bits, and the even one of two. -/
def nearest (n : Nat) : Nat :=
  let unit := Nat.pow 2 (n.log2 - 52)
  let quotient := n / unit
  let remainder := n % unit
  if unit < 2 * remainder ∨ (unit = 2 * remainder ∧ quotient % 2 = 1) then (quotient + 1) * unit
  else quotient * unit

/-- Products from here on round to infinity. -/
def productEnd : Nat := Nat.pow 2 1024 - Nat.pow 2 970

/-- The largest power of ten in double precision. -/
def exponentLimit : Nat := 308

/-- Whether the product of the significand and the power of ten, both in double precision, is
infinite. -/
def isOutOfRange (number : Decimal) : Bool :=
  match number with
  | ⟨0, _⟩ | ⟨_, .negSucc _⟩ => false
  | ⟨significand, .ofNat exponent⟩ =>
    exponentLimit < exponent || productEnd ≤ nearest significand * nearest (Nat.pow 10 exponent)

end Decimal

end AssetPack.Settings
