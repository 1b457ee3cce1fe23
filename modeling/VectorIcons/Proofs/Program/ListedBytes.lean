import VectorIcons.Proofs.Program.HexColumn
import VectorIcons.Proofs.Text.Lines

/-!
# The bytes of a listing

A listing shows every byte of a program once: the hexadecimal columns of its lines, read one after
another behind the heading, are the program.  So the text of a listing tells the program, and no two
programs have the same one: `listing_showsEveryByte`.

## Strategy

`Shows` says of some lines that their slices lie one behind another, from one position of the
program up to another, and that each fits in its column.  It holds of one point, of many
(`shows_points`), of a step, and by induction of all steps (`shows_lines`), which end where the
program does.
-/

namespace VectorIcons

variable {program : Bytes}

/-! ## Slices one behind another -/

/-- Each slice begins where the one before it ends, from the position `first` up to `behind`. -/
def Tiles : Nat → List (Slice program) → Nat → Prop
  | first, [], behind => first = behind
  | first, slice :: slices, behind => slice.first = first ∧ Tiles slice.behind slices behind

/-- Such slices have all bytes on the way, each of them once. -/
theorem Tiles.take_append_flatMap_bytes {first behind : Nat} {slices : List (Slice program)}
    (htiles : Tiles first slices behind) :
    program.take first ++ slices.flatMap Slice.bytes = program.take behind := by
  induction slices generalizing first with
  | nil => rw [List.flatMap_nil, List.append_nil, htiles]
  | cons slice slices ih =>
      obtain ⟨rfl, hothers⟩ := htiles
      have hslice : program.take slice.first ++ slice.bytes = program.take slice.behind := by
        rw [Slice.bytes, ← List.take_add, Nat.add_sub_cancel' slice.first_le]
      rw [List.flatMap_cons, ← List.append_assoc, hslice, ih hothers]

/-! ## Lines that show slices -/

/-- The lines show slices one behind another, and each slice fits in the column of its line. -/
inductive Shows : Nat → List (ListingLine program) → Nat → Prop
  | done (position : Nat) : Shows position [] position
  | line {slice : Slice program} {line : ListingLine program} {lines : List (ListingLine program)}
      {behind : Nat} (hslice : line.slice? = some slice) (hwidth : slice.behind ≤ slice.first + 8)
      (hothers : Shows slice.behind lines behind) : Shows slice.first (line :: lines) behind

namespace Shows

variable {first between behind : Nat} {lines others : List (ListingLine program)}

theorem append (hshows : Shows first lines between) (hothers : Shows between others behind) :
    Shows first (lines ++ others) behind := by
  induction hshows with
  | done => exact hothers
  | line hslice hwidth _ ih => exact line hslice hwidth (ih hothers)

theorem tiles (hshows : Shows first lines behind) :
    Tiles first (lines.filterMap ListingLine.slice?) behind := by
  induction hshows with
  | done => rfl
  | line hslice _ _ ih =>
      rw [List.filterMap_cons_some hslice]
      exact ⟨rfl, ih⟩

/-- The columns of the lines show the slices. -/
theorem map_hexColumn (hshows : Shows first lines behind) :
    (lines.map ListingLine.text).map hexColumn =
      (lines.filterMap ListingLine.slice?).map Slice.bytes := by
  induction hshows with
  | done => rfl
  | @line slice line lines _ hslice hwidth _ ih =>
      have hlength : slice.bytes.length ≤ 8 := by
        rw [slice.length_bytes]
        omega
      rw [List.filterMap_cons_some hslice, List.map_cons, List.map_cons, List.map_cons, ih,
        hexColumn_text hslice hlength]

end Shows

/-! ## The lines of a listing -/

namespace Lister

/-- A line with what is read up to a later place, and the lines from there on. -/
theorem shows_upTo {lister : Lister program} {later : Cursor}
    (hlater : lister.place.Reaches later) {line : ListingLine program}
    (hslice : line.slice? = some (lister.upTo hlater).1)
    (hwidth : later.position ≤ lister.place.position + 8) {lines : List (ListingLine program)}
    {behind : Nat} (hothers : Shows later.position lines behind) :
    Shows lister.place.position (line :: lines) behind := by
  have hshows := Shows.line hslice hwidth hothers
  exact hshows

theorem shows_points (count : Nat) (lister : Lister program) :
    Shows lister.place.position (lister.points count).1 (lister.points count).2.place.position := by
  induction count generalizing lister with
  | zero => exact .done _
  | succ count ih =>
      exact shows_upTo (Cursor.reaches_point _) rfl lister.place.position_point_le
        (ih lister.point.2)

theorem shows_instruction (lister : Lister program) :
    Shows lister.place.position lister.instruction.1 lister.instruction.2.place.position := by
  have hwidth := Nat.le_trans lister.place.position_mnemonic_le
    (Nat.add_le_add_left (by decide : 5 ≤ 8) _)
  exact shows_upTo (Cursor.reaches_mnemonic _) rfl hwidth
    (shows_points _ (lister.upTo (Cursor.reaches_mnemonic lister.place)).2)

theorem shows_row (lister : Lister program) :
    Shows lister.place.position lister.row.1 lister.row.2.place.position :=
  shows_upTo (Cursor.reaches_skip _ _) rfl (lister.place.position_skip_le rowLength) (.done _)

theorem shows_step (lister : Lister program) :
    Shows lister.place.position lister.step.1 lister.step.2.place.position := by
  unfold step
  split
  · exact shows_row lister
  · exact shows_instruction lister

/-- The lines of all steps end where the program does. -/
theorem shows_lines (lister : Lister program) :
    Shows lister.place.position lister.lines program.length := by
  -- A step takes a byte at least, so the induction is on the bytes that are left.
  induction hlength : lister.place.rest.length using Nat.strongRecOn generalizing lister with
  | ind length ih =>
      rw [lines_eq]
      by_cases hend : lister.place.rest = []
      · have hposition : lister.place.position = program.length := by
          have hlengths := lister.reached.position_add_length_rest
          rw [hend] at hlengths
          simpa [Cursor.start] using hlengths
        rw [if_pos hend, hposition]
        exact .done _
      · have hothers := ih _ (hlength ▸ length_step_lt hend) lister.step.2 rfl
        rw [if_neg hend]
        exact (shows_step lister).append hothers

end Lister

/-- The lines behind the heading show the whole program. -/
theorem shows_listing (program : Bytes) :
    ∃ lines, listingLines program = .viewBoxHeading :: lines ∧ Shows 0 lines program.length :=
  ⟨((Lister.start program).points 2).1 ++ ((Lister.start program).points 2).2.lines, rfl,
    ((Lister.start program).shows_points 2).append (Lister.shows_lines _)⟩

/-! ## Text -/

section Text

open Text

theorem oneLine_listedColor (color : Rgba) : OneLine (listedColor color) := by
  unfold listedColor
  split
  · have hmark : OneLine "#" := by decide
    exact ((hmark.append (oneLine_hexByte _)).append (oneLine_hexByte _)).append (oneLine_hexByte _)
  · have hparts : ∀ part ∈ color.bytes.map listedPart, OneLine part :=
      List.forall_mem_map.mpr fun byte _ => oneLine_fixedPlaces 4 _
    have hopening : OneLine "rgba(" := by decide
    have hclosing : OneLine ")" := by decide
    exact (hopening.append (oneLine_intercalate (by decide) hparts)).append hclosing

theorem oneLine_mnemonic (mnemonic : Mnemonic) : OneLine mnemonic.text := by
  cases mnemonic with
  | stop => decide
  | solidFill color =>
      have hname : OneLine "SOLIDFILL " := by decide
      exact hname.append (oneLine_listedColor color)
  | paletteFill index =>
      have hname : OneLine "PALFILL " := by decide
      exact hname.append (oneLine_repr _)
  | moveTo continues => cases continues <;> decide
  | segments kind count =>
      have hkind : OneLine (kind.letter ++ " ") := by cases kind <;> decide
      exact hkind.append (oneLine_repr count)
  | invalid => decide

theorem oneLine_text (line : ListingLine program) : OneLine line.text := by
  have hbytes (bytes : Bytes) : OneLine (bytesColumn bytes) :=
    (oneLine_hexRow (by decide) bytes).leftAligned 24
  have hnumber (x : Binary32) : OneLine (coordinateColumn x) :=
    (oneLine_fixedPlaces 4 x).rightAligned 8
  have hgap : OneLine "  " := by decide
  cases line with
  | viewBoxHeading => exact (by decide : OneLine "# viewbox:")
  | point slice shown =>
      have hwide : OneLine "   " := by decide
      have hx := ((hbytes slice.bytes).append hwide).append (hnumber shown.x)
      exact (hx.append hgap).append (hnumber shown.y)
  | opcode slice mnemonic =>
      exact ((hbytes slice.bytes).append hgap).append (oneLine_mnemonic mnemonic)
  | raw slice => exact oneLine_hexRow (by decide) slice.bytes

/-- The lines of the text are the lines of the listing. -/
theorem lines_listing (program : Bytes) :
    Text.lines (listing program) = (listingLines program).map ListingLine.text := by
  have hjoin := @lines_join ((listingLines program).map ListingLine.text)
    (List.forall_mem_map.mpr fun line _ => oneLine_text line)
  rwa [List.map_map] at hjoin

end Text

/-! ## Every byte -/

/-- The slices of a program that the lines of its listing show. -/
def listingSlices (program : Bytes) : List (Slice program) :=
  (listingLines program).filterMap ListingLine.slice?

/-- Behind the heading, the lines show the bytes of the program from the first to the last.  Each
shows a slice that lies within the program. -/
structure ShowsEveryByte (program : Bytes) : Prop where
  columns : ∃ others, Text.lines (listing program) = "# viewbox:" :: others ∧
    others.flatMap hexColumn = program
  slices : (Text.lines (listing program)).tail.map hexColumn =
    (listingSlices program).map fun slice =>
      (program.drop slice.first).take (slice.behind - slice.first)
  within : ∀ slice ∈ listingSlices program,
    slice.first ≤ slice.behind ∧ slice.behind ≤ program.length
  tiles : Tiles 0 (listingSlices program) program.length

theorem showsEveryByte (program : Bytes) : ShowsEveryByte program := by
  obtain ⟨lines, hlines, hshows⟩ := shows_listing program
  have htext : Text.lines (listing program) = "# viewbox:" :: lines.map ListingLine.text := by
    rw [lines_listing, hlines]
    rfl
  have hslices : listingSlices program = lines.filterMap ListingLine.slice? := by
    rw [listingSlices, hlines]
    rfl
  have hbytes := hshows.tiles.take_append_flatMap_bytes
  rw [List.take_zero, List.nil_append, List.take_length, List.flatMap_def,
    ← hshows.map_hexColumn, ← List.flatMap_def] at hbytes
  refine ⟨⟨_, htext, hbytes⟩, ?_, fun slice _ => ⟨slice.first_le, slice.behind_le⟩, ?_⟩
  · rw [htext, hslices]
    exact hshows.map_hexColumn
  · rw [hslices]
    exact hshows.tiles

/-- **A listing shows every byte of a program once, in order**, whatever the bytes are, so it tells
the program. -/
theorem listing_showsEveryByte :
    (∀ program, ShowsEveryByte program) ∧ Function.Injective listing := by
  refine ⟨showsEveryByte, ?_⟩
  intro program other hsame
  obtain ⟨lines, hlines, hprogram⟩ := (showsEveryByte program).columns
  obtain ⟨otherLines, hotherLines, hother⟩ := (showsEveryByte other).columns
  rw [hsame, hotherLines] at hlines
  obtain ⟨-, hothers⟩ := List.cons.inj hlines
  rw [← hprogram, ← hother, hothers]

end VectorIcons
