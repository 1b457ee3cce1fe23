import VectorIcons.Pack.Listing
import VectorIcons.Proofs.Program.ListedBytes
import VectorIcons.Proofs.Text.Quoting

/-!
# What the listing of a pack tells

The listing of a pack has no lengths and no closing marks, only lines one after another.  All the
same it tells the number of icons and, variant by variant, the name, the size and the program, or
that there is no program: `listing_eq_iff`.  Nothing in a name or a program can pass for a heading.

## Strategy

The listing is taken apart in three steps, and each loses nothing.

* **Text into lines.**  No line has a line break in it; in a name it is escaped (`lines_listing`).
* **Lines into variants.**  A heading begins with `I`.  The lines below it begin with a digit, a
  blank or `#`, or are empty, so each heading begins a new variant (`flatMap_lines_injective`).
* **One variant.**  A heading tells the name and the size, since a quoted name is read back whatever
  follows it (`heading_inj`).  The lines below are the note or a listing, which tells the program
  (`body_inj`).
-/

namespace VectorIcons

/-! ## Lines -/

/-- What a listing shows of a variant.  There may be no program. -/
@[ext] structure ShownVariant where
  name : String
  width : UInt16
  height : UInt16
  program : Option Bytes
deriving DecidableEq, Repr

/-- A variant of an icon, as it is shown. -/
def Icon.shown (icon : Icon) (variant : Variant) : ShownVariant :=
  ⟨icon.name, variant.width, variant.height, icon.program? variant⟩

/-- All variants of a pack in the order of its icons. -/
def Pack.shownVariants (pack : Pack) : List ShownVariant :=
  pack.icons.flatMap fun icon => icon.variants.map icon.shown

namespace ShownVariant

/-- The line above the program. -/
def heading (shown : ShownVariant) : String :=
  "ICON " ++ Text.quoted shown.name ++ " " ++ Nat.repr shown.width.toNat ++ "×" ++
    Nat.repr shown.height.toNat

/-- What stands below the heading if there is no program. -/
def note : String := "# program out of range"

/-- The lines of the program, or the note that there is none. -/
def body (shown : ShownVariant) : List String :=
  match shown.program with
  | some program => (listingLines program).map ListingLine.text
  | none => [note]

def lines (shown : ShownVariant) : List String := shown.heading :: shown.body

/-- What holds of all lines of listings and of the note holds of all lines of a body. -/
theorem forall_mem_body {Holds : String → Prop}
    (hlines : ∀ program, ∀ listed : ListingLine program, Holds listed.text) (hnote : Holds note)
    (shown : ShownVariant) : ∀ line ∈ shown.body, Holds line := by
  unfold body
  cases shown.program with
  | some program => exact List.forall_mem_map.mpr fun listed _ => hlines program listed
  | none => exact List.forall_mem_singleton.mpr hnote

end ShownVariant

/-- The line above all variants. -/
def countLine (count : Nat) : String := "# " ++ Nat.repr count ++ " icons"

/-! ## Text into lines -/

section Lines

open Text

theorem join_flatMap {α : Type} (parts : α → List String) (elements : List α) :
    String.join (elements.flatMap parts) =
      String.join (elements.map fun element => String.join (parts element)) := by
  induction elements with
  | nil => rfl
  | cons element elements ih =>
      rw [List.flatMap_cons, String.join_append, ih, List.map_cons, String.join_cons]

theorem join_body (shown : ShownVariant) :
    String.join (shown.body.map (· ++ "\n")) = listingOrNote shown.program := by
  unfold ShownVariant.body listingOrNote
  cases shown.program with
  | some program => exact congrArg String.join List.map_map
  | none => rfl

theorem variantListing_eq (icon : Icon) (variant : Variant) :
    icon.variantListing variant = String.join ((icon.shown variant).lines.map (· ++ "\n")) := by
  rw [ShownVariant.lines, List.map_cons, String.join_cons, join_body]
  rfl

theorem icon_listing_eq (icon : Icon) :
    icon.listing = String.join (((icon.variants.map icon.shown).flatMap ShownVariant.lines).map
      (· ++ "\n")) := by
  rw [List.map_flatMap, join_flatMap, List.map_map, Icon.listing]
  exact congrArg String.join (List.map_congr_left fun variant _ => variantListing_eq icon variant)

theorem pack_listing_eq (pack : Pack) :
    pack.listing =
      String.join ((countLine pack.size :: pack.shownVariants.flatMap ShownVariant.lines).map
        (· ++ "\n")) := by
  rw [List.map_cons, String.join_cons, Pack.shownVariants, List.flatMap_assoc, List.map_flatMap,
    join_flatMap, Pack.listing]
  have hcount : countLine pack.size ++ "\n" = "# " ++ Nat.repr pack.size ++ " icons\n" :=
    String.append_assoc ..
  rw [hcount]
  exact congrArg (_ ++ String.join ·) (List.map_congr_left fun icon _ => icon_listing_eq icon)

theorem oneLine_countLine (count : Nat) : OneLine (countLine count) := by
  have hmark : OneLine "# " := by decide
  exact (hmark.append (oneLine_repr count)).append (by decide)

theorem oneLine_heading (shown : ShownVariant) : OneLine shown.heading := by
  have hmark : OneLine "ICON " := by decide
  have hblank : OneLine " " := by decide
  have htimes : OneLine "×" := by decide
  have hname := (hmark.append (oneLine_quoted shown.name)).append hblank
  exact ((hname.append (oneLine_repr _)).append htimes).append (oneLine_repr _)

theorem oneLine_body (shown : ShownVariant) : ∀ line ∈ shown.body, OneLine line :=
  shown.forall_mem_body (fun _ => oneLine_text) (by decide)

/-- The lines of the text are those of the variants, below the number of icons. -/
theorem lines_pack_listing (pack : Pack) :
    Text.lines pack.listing =
      countLine pack.size :: pack.shownVariants.flatMap ShownVariant.lines := by
  rw [pack_listing_eq, lines_join]
  intro line hline
  rcases List.mem_cons.mp hline with rfl | hline
  · exact oneLine_countLine _
  · obtain ⟨shown, -, hmem⟩ := List.mem_flatMap.mp hline
    rcases List.mem_cons.mp hmem with rfl | hmem
    · exact oneLine_heading shown
    · exact oneLine_body shown line hmem

end Lines

/-! ## Lines into variants -/

/-- Whether a line is the heading of a variant. -/
def isHeading (line : String) : Bool := line.toList.head? = some 'I'

theorem isHeading_heading (shown : ShownVariant) : isHeading shown.heading = true := by
  simp [isHeading, ShownVariant.heading]

/-- Neither the digits of a row nor the blanks that fill its column begin with an `I`. -/
theorem isHeading_hexRow_append (bytes : Bytes) {rest : String} (hrest : isHeading rest = false) :
    isHeading (Text.hexRow " " bytes ++ rest) = false := by
  have hdigits : ∀ digit : Fin 16, Text.hexDigit digit.val ≠ 'I' := by decide
  cases bytes with
  | nil => exact hrest
  | cons byte bytes =>
      have hbyte := byte.toNat_lt
      have hhigh : Text.hexDigit (byte.toNat / 16) ≠ 'I' := hdigits ⟨byte.toNat / 16, by omega⟩
      simp [isHeading, Text.toList_hexRow_cons, hhigh]

theorem isHeading_blanks_append (count : Nat) {rest : String} (hrest : isHeading rest = false) :
    isHeading (Text.blanks count ++ rest) = false := by
  cases count with
  | zero => exact hrest
  | succ count => simp [isHeading, Text.blanks, List.replicate_succ]

theorem isHeading_bytesColumn_append (bytes : Bytes) {rest : String}
    (hrest : isHeading rest = false) : isHeading (bytesColumn bytes ++ rest) = false := by
  unfold bytesColumn Text.leftAligned
  rw [String.append_assoc]
  exact isHeading_hexRow_append bytes (isHeading_blanks_append _ hrest)

theorem isHeading_text {program : Bytes} (line : ListingLine program) :
    isHeading line.text = false := by
  cases line with
  | viewBoxHeading => exact (by decide : isHeading "# viewbox:" = false)
  | point slice shown =>
      simp only [ListingLine.text, String.append_assoc]
      exact isHeading_bytesColumn_append slice.bytes (by simp [isHeading])
  | opcode slice mnemonic =>
      simp only [ListingLine.text, String.append_assoc]
      exact isHeading_bytesColumn_append slice.bytes (by simp [isHeading])
  | raw slice =>
      have hrow := isHeading_hexRow_append slice.bytes (show isHeading "" = false by decide)
      rwa [String.append_empty] at hrow

theorem isHeading_body (shown : ShownVariant) : ∀ line ∈ shown.body, isHeading line = false :=
  shown.forall_mem_body (fun _ => isHeading_text) (by decide)

theorem isHeading_head?_flatMap_lines (variants : List ShownVariant) :
    ∀ line ∈ (variants.flatMap ShownVariant.lines).head?, isHeading line = true := by
  intro line hline
  cases variants with
  | nil => cases hline
  | cons shown variants =>
      obtain rfl := Option.some.inj hline
      exact isHeading_heading shown

/-! ## One variant -/

section Variant

open Text

theorem toList_heading (shown : ShownVariant) :
    shown.heading.toList = "ICON ".toList ++ ((quoted shown.name).toList ++
      ' ' :: (Nat.toDigits 10 shown.width.toNat ++ '×' :: Nat.toDigits 10 shown.height.toNat)) := by
  simp [ShownVariant.heading, Nat.repr]

/-- A heading tells the name and the size. -/
theorem heading_inj {first second : ShownVariant} (hsame : first.heading = second.heading) :
    first.name = second.name ∧ first.width = second.width ∧ first.height = second.height := by
  have hcharacters := congrArg String.toList hsame
  rw [toList_heading, toList_heading] at hcharacters
  obtain ⟨hname, hsize⟩ := quoted_append_inj (List.append_cancel_left hcharacters)
  -- The width ends before `×`, which is no digit, and the height with the line.
  obtain ⟨hwidth, hheight⟩ :=
    toDigits_append_inj (by decide) (by decide) (by decide) (List.cons.inj hsize).2
  refine ⟨hname, UInt16.toNat_inj.mp hwidth, UInt16.toNat_inj.mp ?_⟩
  exact toDigits_injective (by decide) (by decide) hheight

/-- The lines of a listing tell the program, since its columns show every byte. -/
theorem text_listingLines_inj {program other : Bytes}
    (hsame : (listingLines program).map ListingLine.text =
      (listingLines other).map ListingLine.text) : program = other := by
  obtain ⟨lines, hlines, hprogram⟩ := (showsEveryByte program).columns
  obtain ⟨otherLines, hotherLines, hother⟩ := (showsEveryByte other).columns
  rw [lines_listing, hsame, ← lines_listing, hotherLines] at hlines
  rw [← hprogram, ← hother, (List.cons.inj hlines).2]

theorem listing_ne_note (program : Bytes) :
    (listingLines program).map ListingLine.text ≠ [ShownVariant.note] := by
  intro hsame
  -- Both are marked by `#`, but the first line of a listing is the heading of the view box.
  have hheading : "# viewbox:" = ShownVariant.note := (List.cons.inj hsame).1
  exact absurd hheading (by decide)

/-- The lines below a heading tell the program, or that there is none. -/
theorem body_inj {first second : ShownVariant} (hsame : first.body = second.body) :
    first.program = second.program := by
  unfold ShownVariant.body at hsame
  cases hfirst : first.program with
  | none =>
      cases hsecond : second.program with
      | none => rfl
      | some other =>
          rw [hfirst, hsecond] at hsame
          exact absurd hsame.symm (listing_ne_note other)
  | some program =>
      cases hsecond : second.program with
      | none =>
          rw [hfirst, hsecond] at hsame
          exact absurd hsame (listing_ne_note program)
      | some other =>
          rw [hfirst, hsecond] at hsame
          rw [text_listingLines_inj hsame]

theorem ShownVariant.eq_of_heading_of_body {first second : ShownVariant}
    (hheading : first.heading = second.heading) (hbody : first.body = second.body) :
    first = second := by
  obtain ⟨hname, hwidth, hheight⟩ := heading_inj hheading
  exact ShownVariant.ext hname hwidth hheight (body_inj hbody)

end Variant

/-! ## All variants -/

/-- Each heading begins a variant, so the lines tell all of them. -/
theorem flatMap_lines_injective : Function.Injective (List.flatMap ShownVariant.lines) := by
  intro first
  induction first with
  | nil =>
      intro second hsame
      cases second with
      | nil => rfl
      | cons shown second => cases hsame
  | cons shown first ih =>
      intro second hsame
      cases second with
      | nil => cases hsame
      | cons other second =>
          obtain ⟨hheading, hbehind⟩ := List.cons.inj hsame
          -- Bodies have no lengths, so it is the next heading that ends them, or the end.
          obtain ⟨hbody, hothers⟩ := Text.append_inj_of_marks isHeading
            (isHeading_body shown) (isHeading_body other)
            (isHeading_head?_flatMap_lines first) (isHeading_head?_flatMap_lines second) hbehind
          rw [ShownVariant.eq_of_heading_of_body hheading hbody, ih hothers]

theorem countLine_injective : Function.Injective countLine := by
  intro first second hsame
  have hcharacters := congrArg String.toList hsame
  simp only [countLine, String.toList_append, Nat.repr, String.toList_ofList,
    List.append_assoc] at hcharacters
  exact (Text.toDigits_append_inj (by decide) (by decide) (by decide)
    (List.append_cancel_left hcharacters)).1

/-- **The listing of a pack tells its variants.**  Packs have the same listing exactly if they have
as many icons and show the same variants in the same order. -/
theorem Pack.listing_eq_iff (first second : Pack) :
    first.listing = second.listing ↔
      first.size = second.size ∧ first.shownVariants = second.shownVariants := by
  constructor
  · intro hsame
    have hlines := congrArg Text.lines hsame
    rw [lines_pack_listing, lines_pack_listing] at hlines
    obtain ⟨hcount, hvariants⟩ := List.cons.inj hlines
    exact ⟨countLine_injective hcount, flatMap_lines_injective hvariants⟩
  · rintro ⟨hsize, hshown⟩
    rw [pack_listing_eq, pack_listing_eq, hsize, hshown]

end VectorIcons
