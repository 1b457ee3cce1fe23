import VectorIcons.Binary32.Rounding

/-!
# Binary32 numbers with a fixed number of decimals

The text of a number is its exact value rounded to so many decimals, a tie going
to the even last digit.  The sign shows also on a result of zero.
-/

namespace VectorIcons

/-- The decimal digits of `n` after zeros that fill up `width` places. -/
def zeroFilled (width n : Nat) : String :=
  let digits := Nat.repr n
  String.ofList (List.replicate (width - digits.length) '0') ++ digits

namespace Binary32

/-- The text of `x` with `places` decimals. -/
def fixedPlaces (places : Nat) (x : Binary32) : String :=
  match x.value with
  | .notANumber => "NaN"
  | .infinite negative => (if negative then "-" else "") ++ "inf"
  | .finite negative amount =>
      let scale := Nat.pow 10 places
      let scaled := roundHalfEven (amount * scale) unitsPerOne
      (if negative then "-" else "") ++ Nat.repr (scaled / scale) ++ "." ++
        zeroFilled places (scaled % scale)

end Binary32
end VectorIcons
