/-!
# The shortest decimal of a binary number

A binary number `m · 2 ^ q` stands for the real numbers nearer to it than to its neighbours. The
decimal written for it has as few digits as any decimal among these, and is the nearest of those.

* `Binary` — a positive binary number, read off the bits of a `Float` by `Binary.ofBits`.
* `Binary.window` — those real numbers, measured in a power of ten.
* `Binary.shortest` — the shortest decimal.
-/

namespace EntitySchema

/-- The number `digits · 10 ^ exponent`. -/
structure Decimal where
  digits : Nat
  exponent : Int
  deriving DecidableEq, Repr

namespace Decimal

/-- The number `mantissa · 2 ^ exponent` among the numbers of one binary format. -/
structure Binary where
  mantissa : Nat
  exponent : Int
  /-- Whether the gap to the next smaller number is half the gap to the next larger one. -/
  narrowBelow : Bool
  deriving DecidableEq, Repr

/-- The magnitude of the double whose bits are `bits`, the sign left aside. -/
def Binary.ofBits (bits : Nat) : Binary :=
  let fraction : Nat := bits % Nat.pow 2 52
  let biased : Nat := bits / Nat.pow 2 52 % Nat.pow 2 11
  if biased = 0 then ⟨fraction, -1074, false⟩
  else ⟨Nat.pow 2 52 + fraction, (biased : Int) - 1075, fraction = 0 && 1 < biased⟩

/-- A value between two bounds, as numerators over one denominator. -/
structure Window where
  low : Nat
  value : Nat
  high : Nat
  denominator : Nat
  /-- Whether the bounds themselves belong to the window. -/
  closed : Bool
  deriving Repr

namespace Window

/-- Whether the whole number `d` lies in the window. -/
def admits (w : Window) (d : Nat) : Bool :=
  let n := d * w.denominator
  if w.closed then w.low ≤ n && n ≤ w.high else w.low < n && n < w.high

/-- The whole number in the window that is nearest to its value, the even one of two. -/
def nearest? (w : Window) : Option Nat :=
  let below := w.value / w.denominator
  let above := below + 1
  if w.admits below then
    if w.admits above then
      let toBelow := w.value - below * w.denominator
      let toAbove := above * w.denominator - w.value
      if toBelow < toAbove || toBelow == toAbove && below % 2 == 0 then some below else some above
    else some below
  else if w.admits above then some above
  else none

end Window

namespace Binary

/-- The real numbers that stand for `b`, measured in units of `10 ^ e`. -/
def window (b : Binary) (e : Int) : Window :=
  let up := Nat.pow 2 (b.exponent - 2).toNat * Nat.pow 10 (-e).toNat
  let m := 4 * b.mantissa
  { low := (m - if b.narrowBelow then 1 else 2) * up
    value := m * up
    high := (m + 2) * up
    denominator := Nat.pow 2 (2 - b.exponent).toNat * Nat.pow 10 e.toNat
    closed := b.mantissa % 2 == 0 }

/-- The exponent of ten of the leading digit of `b`, among those that doubles have. -/
def magnitude (b : Binary) : Int :=
  let reaches (i : Nat) : Bool :=
    let w := b.window (308 - i)
    w.denominator ≤ w.value
  match (List.range 633).find? reaches with
  | some i => 308 - i
  | none => 0

/-- The shortest decimal among the numbers that stand for `b`; 17 digits are always enough. -/
def shortest (b : Binary) : Decimal :=
  let k := b.magnitude
  let grid (i : Nat) : Option Decimal :=
    (b.window (k - i)).nearest?.map (⟨·, k - i⟩)
  ((List.range 17).findSome? grid).getD ⟨0, 0⟩

end Binary

end Decimal

end EntitySchema
