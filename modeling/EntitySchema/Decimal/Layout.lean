import EntitySchema.Decimal.Shortest

/-!
# Writing decimals

* `Layout` — the choices of a number format.
* `Layout.write` — a float in such a format, by its shortest digits.
-/

namespace EntitySchema.Decimal

/-- How the digits of a number are laid out. -/
structure Layout where
  /-- The least exponent of the leading digit that is written without an exponent. -/
  leastPositional : Int
  /-- The greatest exponent of the leading digit that is written without an exponent. -/
  greatestPositional : Int
  deriving Repr

/-- The digits of a decimal without the zeros at the end, and the exponent of the first digit. -/
def leading (d : Decimal) : List Char × Int :=
  let all := Nat.toDigits 10 d.digits
  ((all.reverse.dropWhile (· == '0')).reverse, d.exponent + (all.length - 1))

namespace Layout

/-- Digits with a point; at least one digit stands on either side of it. -/
def positional (ds : List Char) (p : Int) : List Char :=
  if p < 0 then
    '0' :: '.' :: (List.replicate (-p - 1).toNat '0' ++ ds)
  else
    let whole := p.toNat + 1
    let fraction := ds.drop whole
    (ds.take whole ++ List.replicate (whole - ds.length) '0') ++
      '.' :: (if fraction.isEmpty then ['0'] else fraction)

/-- Digits with an exponent, whose sign is always written. -/
def scientific (ds : List Char) (p : Int) : List Char :=
  let fraction := ds.drop 1
  ds.take 1 ++ (if fraction.isEmpty then [] else '.' :: fraction) ++
    ['e', if p < 0 then '-' else '+'] ++ Nat.toDigits 10 p.natAbs

/-- The text of the float `x`; the sign is kept for zero too. -/
def write (l : Layout) (x : Float) : String :=
  let bits := x.toBits.toNat
  let magnitude :=
    if bits % Nat.pow 2 63 = 0 then "0.0".toList
    else
      let (ds, p) := (Binary.ofBits bits).shortest.leading
      if l.leastPositional ≤ p ∧ p ≤ l.greatestPositional then positional ds p
      else scientific ds p
  String.ofList (if bits / Nat.pow 2 63 = 0 then magnitude else '-' :: magnitude)

end Layout

end EntitySchema.Decimal
