/-!
# Text in columns

A text fills a column of a given width with blanks, after it or before it.  A text
that is wider than the column is not cut.
-/

namespace VectorIcons
namespace Text

def blanks (count : Nat) : String := String.ofList (List.replicate count ' ')

def leftAligned (width : Nat) (text : String) : String := text ++ blanks (width - text.length)

def rightAligned (width : Nat) (text : String) : String := blanks (width - text.length) ++ text

end Text
end VectorIcons
