import EntitySchema.Decimal.Layout

/-!
# Numbers of JSON documents

A number is an integer if it is written as one and fits into 64 bits; any other is a float.

* `Number` — a number.
* `Number.Literal` — the digits that write a number.
* `Number.ofLiteral` — the number that a literal denotes.
* `Number.text` — the text of a number.
-/

namespace EntitySchema.Json

/-- A number of a JSON document. -/
inductive Number where
  | integer (n : Int)
  | float (x : Float)
  deriving Repr

namespace Number

/-- The digits of a number as they are written. -/
structure Literal where
  negative : Bool
  whole : List Nat
  fraction : Option (List Nat)
  exponent : Option Int
  deriving Repr

/-- Takes digits into the significand `s` as long as it stays below `2 ^ 64`; gives the
significand and the digits left over. -/
def absorb (s : Nat) : List Nat → Nat × List Nat
  | [] => (s, [])
  | d :: ds => if s * 10 + d < Nat.pow 2 64 then absorb (s * 10 + d) ds else (s, d :: ds)

/-- The float nearest to `10 ^ n`. -/
def powerOfTen (n : Nat) : Float := Float.ofScientific 1 false n

/-- Divides `x` by `10 ^ n`, by way of `10 ^ 308` if no float can hold the divisor; a significand
is zero after two such steps. -/
def divideByPower (x : Float) (n : Nat) : Float :=
  if n ≤ 308 then x / powerOfTen n else x / powerOfTen 308 / powerOfTen (min (n - 308) 308)

/-- The float `s · 10 ^ e`, rounded once for `s` and once for each multiplication or division. -/
def scale (s : Nat) (e : Int) : Float :=
  if s = 0 then 0
  else if 0 ≤ e then Float.ofNat s * powerOfTen (min e.toNat 309)
  else divideByPower (Float.ofNat s) (-e).toNat

/-- The number that a literal denotes. Digits beyond the 64 bits of the significand count only for
the exponent. -/
def ofLiteral (l : Literal) : Number :=
  let (s, dropped) := absorb 0 l.whole
  let signed (x : Float) : Number := .float (if l.negative then -x else x)
  if dropped.isEmpty && l.fraction.isNone && l.exponent.isNone then
    if !l.negative then .integer s
    else if 0 < s ∧ s ≤ Nat.pow 2 63 then .integer (-s)
    else signed (Float.ofNat s)
  else
    let fraction := l.fraction.getD []
    let (s, left) := absorb s fraction
    let exponent : Int := dropped.length - (fraction.length - left.length : Nat) + l.exponent.getD 0
    signed (scale s exponent)

/-- Floats are written with a point unless they are below `10 ^ -5` or reach `10 ^ 16`. -/
def floatLayout : Decimal.Layout := ⟨-5, 15⟩

/-- The text of a number. -/
def text : Number → String
  | integer n => toString n
  | float x => floatLayout.write x

end Number

end EntitySchema.Json
