import VectorIcons.Pack.Basic
import VectorIcons.Program.Listing

/-!
# Listing a pack

The listing of a pack begins with the number of its icons.  Each variant of each icon
follows with a line of its own and the listing of its program.
-/

namespace VectorIcons

/-- The line above the program of a variant. -/
def variantHeading (name : String) (variant : Variant) : String :=
  "ICON " ++ Text.quoted name ++ " " ++ Nat.repr variant.width.toNat ++ "×" ++
    Nat.repr variant.height.toNat ++ "\n"

/-- The listing of a program that may not be there. -/
def listingOrNote : Option Bytes → String
  | some program => listing program
  | none => "# program out of range\n"

/-- The listing of a variant of an icon. -/
def Icon.variantListing (icon : Icon) (variant : Variant) : String :=
  variantHeading icon.name variant ++ listingOrNote (icon.program? variant)

/-- The listing of all variants of an icon. -/
def Icon.listing (icon : Icon) : String :=
  String.join (icon.variants.map icon.variantListing)

/-- The listing of a pack. -/
def Pack.listing (pack : Pack) : String :=
  "# " ++ Nat.repr pack.size ++ " icons\n" ++ String.join (pack.icons.map Icon.listing)

end VectorIcons
