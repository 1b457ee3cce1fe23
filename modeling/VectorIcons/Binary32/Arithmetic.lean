import VectorIcons.Binary32.Rounding

/-!
# Binary32 arithmetic

Each operation is the exact operation on counts of units followed by one
rounding.  Infinities and signed zeros follow the rules of the interchange
format: the sum of opposite infinities, zero times an infinity, and the quotients
of two zeros or two infinities are not numbers; a product or quotient is negative
when exactly one operand is; an exact sum of zero is negative only when both
operands are.
-/

namespace VectorIcons
namespace Binary32

/-! ## Sign -/

def neg (x : Binary32) : Binary32 := ofMagnitude (!x.isNegative) x.magnitude

def abs (x : Binary32) : Binary32 := ofMagnitude false x.magnitude

/-! ## The four operations -/

/-- The sum, rounded once. -/
def add (x y : Binary32) : Binary32 :=
  match x.value, y.value with
  | .notANumber, _ => nan
  | _, .notANumber => nan
  | .infinite sign, .infinite otherSign => if sign = otherSign then infinity sign else nan
  | .infinite sign, .finite _ _ => infinity sign
  | .finite _ _, .infinite sign => infinity sign
  | .finite sign amount, .finite otherSign otherAmount =>
      ofUnits (sign && otherSign) (signed sign amount + signed otherSign otherAmount)

/-- The difference, rounded once. -/
def sub (x y : Binary32) : Binary32 := add x y.neg

/-- The product, rounded once. -/
def mul (x y : Binary32) : Binary32 :=
  match x.value, y.value with
  | .notANumber, _ => nan
  | _, .notANumber => nan
  | .infinite sign, .infinite otherSign => infinity (sign != otherSign)
  | .infinite sign, .finite otherSign amount =>
      if amount = 0 then nan else infinity (sign != otherSign)
  | .finite sign amount, .infinite otherSign =>
      if amount = 0 then nan else infinity (sign != otherSign)
  | .finite sign amount, .finite otherSign otherAmount =>
      rounded (sign != otherSign) (amount * otherAmount) unitsPerOne

/-- The quotient, rounded once. -/
def div (x y : Binary32) : Binary32 :=
  match x.value, y.value with
  | .notANumber, _ => nan
  | _, .notANumber => nan
  | .infinite _, .infinite _ => nan
  | .infinite sign, .finite otherSign _ => infinity (sign != otherSign)
  | .finite sign _, .infinite otherSign => zero (sign != otherSign)
  | .finite sign amount, .finite otherSign otherAmount =>
      if otherAmount = 0 then
        if amount = 0 then nan else infinity (sign != otherSign)
      else rounded (sign != otherSign) (amount * unitsPerOne) otherAmount

instance : Neg Binary32 := ⟨neg⟩
instance : Add Binary32 := ⟨add⟩
instance : Sub Binary32 := ⟨sub⟩
instance : Mul Binary32 := ⟨mul⟩
instance : Div Binary32 := ⟨div⟩

/-! ## Whole numbers -/

/-- The nearest whole number, a half going away from zero.  The sign stays, also
on a result of zero; infinities and not-a-numbers stay as they are. -/
def round (x : Binary32) : Binary32 :=
  match x.value with
  | .finite sign amount =>
      rounded sign ((2 * amount + unitsPerOne) / (2 * unitsPerOne) * unitsPerOne) 1
  | _ => x

/-- The whole part of a finite number; zero for any other. -/
def truncate (x : Binary32) : Int :=
  match x.value with
  | .finite sign amount => signed sign (amount / unitsPerOne)
  | _ => 0

end Binary32
end VectorIcons
