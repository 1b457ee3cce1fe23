import Mathlib.Data.List.TakeWhile
import VectorIcons.Program.ViewBox
import VectorIcons.Proofs.Program.ListedBytes
import VectorIcons.Proofs.Program.ReadingAlike

/-!
# The opcodes of a listing

A listing is a text, and its opcodes are found in the text again, line by line: `listedOpcodes`.  An
opcode has a line of its own, which a word tells, and its points have the lines that follow, which
three blanks tell.  Its offset is the number of bytes that the hexadecimal columns of the lines
before show.

The listing and the drawing have a table of opcodes each.  `mnemonic_eq` compares the two,
opcode by opcode, so a listing that is not lost moves in step with `Cursor.instruction`,
and its opcodes are the instructions that are drawn: `listedOpcodes_lines_listing`.
-/

namespace VectorIcons

/-! ## Words -/

/-- What the word of an opcode tells. -/
inductive OpcodeKind where
  | stop
  | solidFill
  | paletteFill
  | moveTo (continues : Bool)
  | segments (kind : SegmentKind)
  | invalid
deriving DecidableEq, Repr

namespace OpcodeKind

def word : OpcodeKind → String
  | .stop => "STOP"
  | .solidFill => "SOLIDFILL"
  | .paletteFill => "PALFILL"
  | .moveTo false => "M-begin"
  | .moveTo true => "M-cont"
  | .segments .line => "L"
  | .segments .cubic => "C"
  | .segments .quadratic => "Q"
  | .invalid => "INVALID"

/-- The kind that has a word. -/
def ofWord? (word : String) : Option OpcodeKind :=
  [.stop, .solidFill, .paletteFill, .moveTo false, .moveTo true, .segments .line, .segments .cubic,
    .segments .quadratic, .invalid].find? fun kind => kind.word = word

theorem ofWord?_word (kind : OpcodeKind) : ofWord? kind.word = some kind := by
  cases kind with
  | moveTo continues => cases continues <;> decide
  | segments kind => cases kind <;> decide
  | stop | solidFill | paletteFill | invalid => decide

theorem blank_notMem_word (kind : OpcodeKind) : ' ' ∉ kind.word.toList := by
  cases kind with
  | moveTo continues => cases continues <;> decide
  | segments kind => cases kind <;> decide
  | stop | solidFill | paletteFill | invalid => decide

end OpcodeKind

/-- The text up to the first blank. -/
def firstWord (text : String) : String := String.ofList (text.toList.takeWhile (· ≠ ' '))

theorem firstWord_intercalate {word : String} (hword : ' ' ∉ word.toList) (others : List String) :
    firstWord (" ".intercalate (word :: others)) = word := by
  have hblank : " ".toList = [' '] := rfl
  have hcharacters : ∀ character ∈ word.toList, decide (character ≠ ' ') = true :=
    fun character hmem => decide_eq_true fun heq => hword (heq ▸ hmem)
  unfold firstWord
  cases others with
  | nil =>
      rw [String.intercalate_singleton, List.takeWhile_eq_self_iff.mpr hcharacters,
        String.ofList_toList]
  | cons other others =>
      rw [String.intercalate_cons_cons, String.toList_append, String.toList_append, hblank,
        List.append_assoc, List.takeWhile_append_of_pos hcharacters, List.singleton_append,
        List.takeWhile_cons_of_neg (by decide), List.append_nil, String.ofList_toList]

/-! ## Lines of text -/

/-- What stands behind the column of bytes. -/
def behindBytes (line : String) : List Char := line.toList.drop 24

/-- What a line says of its bytes, behind two blanks. -/
def meaning (line : String) : String := String.ofList ((behindBytes line).drop 2)

/-- The kind of the opcode that a line shows, if it shows one. -/
def opcodeKind? (line : String) : Option OpcodeKind :=
  OpcodeKind.ofWord? (firstWord (meaning line))

/-- Whether a line shows a point. -/
def isPointLine (line : String) : Bool := (behindBytes line).take 3 = [' ', ' ', ' ']

/-! ## Opcodes -/

/-- An opcode as a listing shows it. -/
structure ListedOpcode where
  /-- How many bytes the lines before show. -/
  offset : Nat
  /-- The bytes in the column of its own line. -/
  bytes : Bytes
  kind : OpcodeKind
  /-- The words behind the bytes. -/
  words : String
  /-- The lines of points that follow. -/
  pointLines : List String
deriving DecidableEq, Repr

/-- The opcodes in lines that have lines of `offset` bytes before them. -/
def listedOpcodes (offset : Nat) : List String → List ListedOpcode
  | [] => []
  | line :: lines =>
      let later := listedOpcodes (offset + (hexColumn line).length) lines
      match opcodeKind? line with
      | some kind =>
          ⟨offset, hexColumn line, kind, meaning line, lines.takeWhile isPointLine⟩ :: later
      | none => later

/-! ## Instructions in a listing -/

def Operation.kind : Operation → OpcodeKind
  | .stop => .stop
  | .solidFill _ => .solidFill
  | .paletteFill _ => .paletteFill
  | .moveTo continues => .moveTo continues
  | .segments kind _ => .segments kind
  | .unknown _ => .invalid

/-- What stands behind the word of an operation. -/
def Operation.operands : Operation → List String
  | .solidFill color => [listedColor color]
  | .paletteFill index => [Nat.repr index.toNat]
  | .segments _ count => [Nat.repr count]
  | .stop | .moveTo _ | .unknown _ => []

def Operation.words (operation : Operation) : String :=
  " ".intercalate (operation.kind.word :: operation.operands)

/-- A number with four decimals, eight columns wide. -/
def numberColumn (x : Binary32) : String := Text.rightAligned 8 (x.fixedPlaces 4)

/-- The line of an operation: its bytes in twenty-four columns, two blanks and the words. -/
def operationLine (shown : Spelled Operation) : String :=
  Text.leftAligned 24 (Text.hexRow " " shown.bytes) ++ ("  " ++ shown.value.words)

/-- The line of a point: its bytes in twenty-four columns, three blanks and two numbers. -/
def pointLine (shown : Spelled Point) : String :=
  Text.leftAligned 24 (Text.hexRow " " shown.bytes) ++
    ("   " ++ numberColumn shown.value.x ++ "  " ++ numberColumn shown.value.y)

/-- An instruction as a listing shows it. -/
def Instruction.listed (instruction : Instruction) : ListedOpcode :=
  ⟨instruction.offset, instruction.operation.bytes, instruction.operation.value.kind,
    instruction.operation.value.words, instruction.points.map pointLine⟩

/-- The lines of an instruction: its operation, then each point. -/
def Instruction.lines (instruction : Instruction) : List String :=
  operationLine instruction.operation :: instruction.points.map pointLine

/-! ## What a line shows -/

theorem length_toList_bytesColumn {bytes : Bytes} (hlength : bytes.length ≤ 8) :
    (Text.leftAligned 24 (Text.hexRow " " bytes)).toList.length = 24 := by
  have hrow := Text.length_hexRow_le bytes
  rw [Text.leftAligned, Text.blanks, String.toList_append, String.toList_ofList, List.length_append,
    List.length_replicate, ← String.length_toList]
  omega

theorem behindBytes_leftAligned {bytes : Bytes} (hlength : bytes.length ≤ 8) (text : String) :
    behindBytes (Text.leftAligned 24 (Text.hexRow " " bytes) ++ text) = text.toList := by
  rw [behindBytes, String.toList_append, List.drop_left' (length_toList_bytesColumn hlength)]

theorem behindBytes_hexRow {bytes : Bytes} (hlength : bytes.length ≤ 8) :
    behindBytes (Text.hexRow " " bytes) = [] := by
  have hrow := Text.length_hexRow_le bytes
  exact List.drop_eq_nil_of_le (by omega)

/-- The words of an operation begin with that of its kind. -/
theorem ofWord?_firstWord_words (operation : Operation) :
    OpcodeKind.ofWord? (firstWord operation.words) = some operation.kind := by
  rw [Operation.words, firstWord_intercalate operation.kind.blank_notMem_word,
    OpcodeKind.ofWord?_word]

theorem opcodeKind?_operationLine {shown : Spelled Operation} (hlength : shown.bytes.length ≤ 8) :
    meaning (operationLine shown) = shown.value.words ∧
      opcodeKind? (operationLine shown) = some shown.value.kind := by
  have hblanks : "  ".toList = [' ', ' '] := rfl
  have hmeaning : meaning (operationLine shown) = shown.value.words := by
    rw [meaning, operationLine, behindBytes_leftAligned hlength, String.toList_append, hblanks]
    exact String.ofList_toList
  refine ⟨hmeaning, ?_⟩
  rw [opcodeKind?, hmeaning, ofWord?_firstWord_words]

/-- The third blank stands where the word of an opcode would begin. -/
theorem opcodeKind?_of_isPointLine {line : String} (hpoint : isPointLine line = true) :
    opcodeKind? line = none := by
  have hblanks : (behindBytes line).take 3 = [' ', ' ', ' '] := of_decide_eq_true hpoint
  have hword : firstWord (meaning line) = "" := by
    rw [firstWord, meaning, ← List.take_append_drop 3 (behindBytes line), hblanks,
      String.toList_ofList]
    rfl
  rw [opcodeKind?, hword]
  decide

theorem isPointLine_operationLine {shown : Spelled Operation} (hlength : shown.bytes.length ≤ 8) :
    isPointLine (operationLine shown) = false := by
  obtain ⟨-, hkind⟩ := opcodeKind?_operationLine hlength
  refine Bool.eq_false_iff.mpr fun hpoint => ?_
  rw [opcodeKind?_of_isPointLine hpoint] at hkind
  cases hkind

theorem isPointLine_pointLine {shown : Spelled Point} (hlength : shown.bytes.length ≤ 8) :
    isPointLine (pointLine shown) = true := by
  have hblanks : "   ".toList = [' ', ' ', ' '] := rfl
  rw [isPointLine, pointLine, behindBytes_leftAligned hlength, String.append_assoc,
    String.append_assoc, String.toList_append, hblanks]
  rfl

theorem opcodeKind?_hexRow {bytes : Bytes} (hlength : bytes.length ≤ 8) :
    isPointLine (Text.hexRow " " bytes) = false ∧ opcodeKind? (Text.hexRow " " bytes) = none := by
  rw [isPointLine, opcodeKind?, meaning, behindBytes_hexRow hlength]
  exact ⟨rfl, rfl⟩

theorem hexColumn_operationLine {shown : Spelled Operation} (hlength : shown.bytes.length ≤ 8) :
    hexColumn (operationLine shown) = shown.bytes :=
  hexColumn_bytesColumn hlength _

theorem hexColumn_pointLine {shown : Spelled Point} (hlength : shown.bytes.length ≤ 8) :
    hexColumn (pointLine shown) = shown.bytes :=
  hexColumn_bytesColumn hlength _

/-! ## The two tables of opcodes -/

/-- What a listing says about an operation. -/
def Operation.mnemonic : Operation → Mnemonic
  | .stop => .stop
  | .solidFill color => .solidFill color
  | .paletteFill index => .paletteFill index
  | .moveTo continues => .moveTo continues
  | .segments kind count => .segments kind count
  | .unknown _ => .invalid

theorem ofSegmentOpcode_of_line {opcode : Nat} (hhigh : opcode ≤ 0x9f) :
    Operation.ofSegmentOpcode opcode = .segments .line (opcode - 0x80 + 1) :=
  if_pos (Nat.lt_succ_of_le hhigh)

theorem ofSegmentOpcode_of_cubic {opcode : Nat} (hlow : 0xa0 ≤ opcode) (hhigh : opcode ≤ 0xaf) :
    Operation.ofSegmentOpcode opcode = .segments .cubic (opcode - 0xa0 + 1) := by
  have hline : ¬opcode < SegmentKind.cubic.firstOpcode := Nat.not_lt.mpr hlow
  have hcubic : opcode < SegmentKind.quadratic.firstOpcode := Nat.lt_succ_of_le hhigh
  unfold Operation.ofSegmentOpcode
  rw [if_neg hline, if_pos hcubic]
  rfl

theorem ofSegmentOpcode_of_quadratic {opcode : Nat} (hlow : 0xb0 ≤ opcode) :
    Operation.ofSegmentOpcode opcode = .segments .quadratic (opcode - 0xb0 + 1) := by
  have hcubic : ¬opcode < SegmentKind.quadratic.firstOpcode := Nat.not_lt.mpr hlow
  have hline : ¬opcode < SegmentKind.cubic.firstOpcode :=
    Nat.not_lt.mpr (Nat.le_trans (by decide) hlow)
  unfold Operation.ofSegmentOpcode
  rw [if_neg hline, if_neg hcubic]
  rfl

/-- **The two tables of opcodes agree**, on the operands, the number of points and the place
where they end. -/
theorem mnemonic_eq (cursor : Cursor) :
    cursor.mnemonic =
      ((cursor.operation.1.mnemonic, cursor.operation.1.pointCount), cursor.operation.2) := by
  unfold Cursor.mnemonic Cursor.operation
  generalize cursor.byte = next
  obtain ⟨opcode, afterOpcode⟩ := next
  dsimp only
  by_cases hstop : opcode = 0x00
  · simp only [if_pos hstop]
    rfl
  by_cases hsolid : opcode = 0x01
  · simp only [if_neg hstop, if_pos hsolid]
    rfl
  by_cases hpalette : opcode = 0x02
  · simp only [if_neg hstop, if_neg hsolid, if_pos hpalette]
    rfl
  by_cases hbegin : opcode = 0x70
  · simp only [if_neg hstop, if_neg hsolid, if_neg hpalette, if_pos hbegin]
    rfl
  by_cases hgoOn : opcode = 0x71
  · simp only [if_neg hstop, if_neg hsolid, if_neg hpalette, if_neg hbegin, if_pos hgoOn]
    rfl
  simp only [if_neg hstop, if_neg hsolid, if_neg hpalette, if_neg hbegin, if_neg hgoOn]
  -- The drawing tells the three kinds apart only after it knows that there are segments.
  by_cases hline : 0x80 ≤ opcode.toNat ∧ opcode.toNat ≤ 0x9f
  · rw [if_pos hline, if_pos (by omega), ofSegmentOpcode_of_line hline.2]
    simp only [Operation.mnemonic, Operation.pointCount, SegmentKind.arity, Nat.mul_one]
  by_cases hcubic : 0xa0 ≤ opcode.toNat ∧ opcode.toNat ≤ 0xaf
  · rw [if_neg hline, if_pos hcubic, if_pos (by omega),
      ofSegmentOpcode_of_cubic hcubic.1 hcubic.2]
    rfl
  by_cases hquadratic : 0xb0 ≤ opcode.toNat ∧ opcode.toNat ≤ 0xbf
  · rw [if_neg hline, if_neg hcubic, if_pos hquadratic, if_pos (by omega),
      ofSegmentOpcode_of_quadratic hquadratic.1]
    rfl
  rw [if_neg hline, if_neg hcubic, if_neg hquadratic, if_neg (by omega)]
  rfl

theorem text_mnemonic (operation : Operation) : operation.mnemonic.text = operation.words := by
  cases operation with
  | stop | unknown => rfl
  | solidFill color => rfl
  | paletteFill index => rfl
  | moveTo continues => cases continues <;> rfl
  | segments kind count => cases kind <;> rfl

theorem mnemonic_eq_invalid_iff (operation : Operation) :
    operation.mnemonic = .invalid ↔ operation.isUnknown = true := by
  cases operation <;> simp [Operation.mnemonic, Operation.isUnknown]

/-! ## Where an instruction ends -/

namespace Cursor

/-- A place in a byte string has the bytes behind its position. -/
theorem Reaches.drop_position {bytes : Bytes} {cursor : Cursor}
    (hreaches : (start bytes).Reaches cursor) : bytes.drop cursor.position = cursor.rest := by
  obtain ⟨taken, hbytes, hposition⟩ := hreaches
  dsimp only [start] at hbytes hposition
  rw [hposition, hbytes, Nat.zero_add, List.drop_left]

theorem Reaches.position_add_length {cursor later : Cursor} (hreaches : Reaches cursor later) :
    cursor.position + (cursor.bytesUntil later).length = later.position := by
  obtain ⟨taken, hrest, hposition⟩ := hreaches
  rw [bytesUntil, hposition, Nat.add_sub_cancel_left, hrest, List.take_left]

theorem later_spelled {α : Type} (read : Cursor → α × Cursor) (cursor : Cursor) :
    (cursor.spelled read).2 = (read cursor).2 := rfl

/-- How many bytes spelled values have together. -/
def totalLength {α : Type} (values : List (Spelled α)) : Nat :=
  (values.flatMap Spelled.bytes).length

theorem totalLength_cons {α : Type} (value : Spelled α) (values : List (Spelled α)) :
    totalLength (value :: values) = value.bytes.length + totalLength values := by
  unfold totalLength
  rw [List.flatMap_cons, List.length_append]

theorem position_repeated {α : Type} {read : Cursor → α × Cursor}
    (hread : ∀ cursor, Reaches cursor (read cursor).2) (count : Nat) (cursor : Cursor) :
    cursor.position + totalLength (repeated (spelled read) count cursor).1 =
      (repeated (spelled read) count cursor).2.position := by
  induction count generalizing cursor with
  | zero => rfl
  | succ count ih =>
      rw [repeated_succ, ← ih, totalLength_cons, ← Nat.add_assoc]
      congr 1
      exact (hread cursor).position_add_length

theorem reaches_operation (cursor : Cursor) : Reaches cursor cursor.operation.2 := by
  have hopcode := reaches_mnemonic_of_byte cursor
  rw [mnemonic_eq] at hopcode
  exact (reaches_byte cursor).trans hopcode

/-- An instruction ends behind the bytes of its operation and of its points. -/
theorem position_instruction (cursor : Cursor) :
    cursor.position + cursor.instruction.1.operation.bytes.length +
      totalLength cursor.instruction.1.points = cursor.instruction.2.position := by
  have hoperation := (reaches_operation cursor).position_add_length
  have hpoints := position_repeated reaches_point cursor.operation.1.pointCount cursor.operation.2
  rw [← hoperation] at hpoints
  exact hpoints

theorem length_spelled_point_le (cursor : Cursor) : (cursor.spelled point).1.bytes.length ≤ 8 := by
  have hlength := (reaches_point cursor).position_add_length
  have hwidth := cursor.position_point_le
  change (cursor.bytesUntil cursor.point.2).length ≤ 8
  omega

theorem length_spelled_operation_le (cursor : Cursor) :
    (cursor.spelled operation).1.bytes.length ≤ 8 := by
  have hlength := (reaches_operation cursor).position_add_length
  have hwidth := cursor.position_mnemonic_le
  rw [mnemonic_eq] at hwidth
  change (cursor.bytesUntil cursor.operation.2).length ≤ 8
  dsimp only at hwidth
  omega

theorem forall_mem_repeated {α : Type} {read : Cursor → α × Cursor} {property : α → Prop}
    (hproperty : ∀ cursor, property (read cursor).1) (count : Nat) (cursor : Cursor) :
    ∀ value ∈ (repeated read count cursor).1, property value := by
  induction count generalizing cursor with
  | zero => exact fun _ hmem => nomatch hmem
  | succ count ih =>
      rw [repeated_succ]
      exact List.forall_mem_cons.mpr ⟨hproperty cursor, ih _⟩

theorem length_of_mem_points (count : Nat) (cursor : Cursor) :
    ∀ shown ∈ (cursor.repeated (fun place => place.spelled point) count).1,
      shown.bytes.length ≤ 8 :=
  forall_mem_repeated length_spelled_point_le count cursor

end Cursor

/-! ## One step -/

variable {program : Bytes}

namespace Lister

/-- The slice up to a later place has the bytes on the way. -/
theorem bytes_upTo (lister : Lister program) {later : Cursor}
    (hlater : lister.place.Reaches later) :
    (lister.upTo hlater).1.bytes = lister.place.bytesUntil later := by
  change (program.drop lister.place.position).take _ = _
  rw [lister.reached.drop_position]
  rfl

theorem text_point (lister : Lister program) :
    lister.point.1.text = pointLine (lister.place.spelled Cursor.point).1 := by
  have hbytes := lister.bytes_upTo (Cursor.reaches_point lister.place)
  simp only [point, ListingLine.text, hbytes, pointLine, String.append_assoc]
  rfl

/-- The lines of points are those of the points that are read. -/
theorem texts_points (count : Nat) (lister : Lister program) :
    (lister.points count).1.map ListingLine.text =
        (lister.place.repeated (fun place => place.spelled Cursor.point) count).1.map pointLine ∧
      (lister.points count).2.place =
        (lister.place.repeated (fun place => place.spelled Cursor.point) count).2 := by
  induction count generalizing lister with
  | zero => exact ⟨rfl, rfl⟩
  | succ count ih =>
      obtain ⟨hlines, hplace⟩ := ih lister.point.2
      rw [Cursor.repeated_succ]
      refine ⟨?_, hplace⟩
      rw [points, List.map_cons, List.map_cons, text_point, hlines]
      rfl

theorem text_opcode (lister : Lister program) {later : Cursor}
    (hlater : lister.place.Reaches later) (mnemonic : Mnemonic) :
    (ListingLine.opcode (lister.upTo hlater).1 mnemonic).text =
      Text.leftAligned 24 (Text.hexRow " " (lister.place.bytesUntil later)) ++
        ("  " ++ mnemonic.text) := by
  rw [ListingLine.text, bytes_upTo, String.append_assoc]
  rfl

/-- An instruction is listed as it is read. -/
theorem texts_instruction (lister : Lister program) :
    lister.instruction.1.map ListingLine.text = lister.place.instruction.1.lines ∧
      lister.instruction.2.place = lister.place.instruction.2 ∧
      lister.instruction.2.lost = lister.place.instruction.1.operation.value.isUnknown := by
  have hreaches := Cursor.reaches_mnemonic lister.place
  obtain ⟨hpoints, hplace⟩ := texts_points lister.place.mnemonic.1.2 (lister.upTo hreaches).2
  change _ = (lister.place.mnemonic.2.repeated _ _).1.map pointLine at hpoints
  change _ = (lister.place.mnemonic.2.repeated _ _).2 at hplace
  refine ⟨?_, hplace.trans ?_, ?_⟩
  · change (ListingLine.opcode (lister.upTo hreaches).1 lister.place.mnemonic.1.1).text ::
      ((lister.upTo hreaches).2.points lister.place.mnemonic.1.2).1.map ListingLine.text = _
    rw [text_opcode, hpoints, mnemonic_eq, text_mnemonic]
    rfl
  · rw [mnemonic_eq]
    rfl
  · change decide (lister.place.mnemonic.1.1 = .invalid) = _
    rw [mnemonic_eq, Bool.eq_iff_iff, decide_eq_true_iff]
    exact mnemonic_eq_invalid_iff _

/-- A row of bytes shows neither an opcode nor a point. -/
theorem texts_row (lister : Lister program) :
    ∃ line, lister.row.1.map ListingLine.text = [line] ∧ isPointLine line = false ∧
      opcodeKind? line = none := by
  have hlength : (lister.upTo (Cursor.reaches_skip lister.place rowLength)).1.bytes.length ≤ 8 := by
    rw [Slice.length_bytes]
    exact Nat.sub_le_iff_le_add'.mpr (lister.place.position_skip_le rowLength)
  exact ⟨_, rfl, opcodeKind?_hexRow hlength⟩

/-- No step begins with a point. -/
theorem takeWhile_isPointLine_step (lister : Lister program) (lines : List String) :
    (lister.step.1.map ListingLine.text ++ lines).takeWhile isPointLine = [] := by
  unfold step
  split
  · obtain ⟨line, hrow, hpoint, -⟩ := lister.texts_row
    rw [hrow, List.singleton_append, List.takeWhile_cons, hpoint]
    rfl
  · have hoperation : isPointLine (operationLine lister.place.instruction.1.operation) = false :=
      isPointLine_operationLine lister.place.length_spelled_operation_le
    rw [lister.texts_instruction.1, Instruction.lines, List.cons_append, List.takeWhile_cons,
      hoperation]
    rfl

end Lister

/-! ## The lines of one instruction -/

theorem listedOpcodes_cons_of_none {line : String} (hkind : opcodeKind? line = none) (offset : Nat)
    (lines : List String) :
    listedOpcodes offset (line :: lines) =
      listedOpcodes (offset + (hexColumn line).length) lines := by
  conv => lhs; unfold listedOpcodes
  rw [hkind]

theorem listedOpcodes_cons_of_some {line : String} {kind : OpcodeKind}
    (hkind : opcodeKind? line = some kind) (offset : Nat) (lines : List String) :
    listedOpcodes offset (line :: lines) =
      ⟨offset, hexColumn line, kind, meaning line, lines.takeWhile isPointLine⟩ ::
        listedOpcodes (offset + (hexColumn line).length) lines := by
  conv => lhs; unfold listedOpcodes
  rw [hkind]

/-- Lines of points have no opcode, but they move the ones behind. -/
theorem listedOpcodes_append {points : List (Spelled Point)}
    (hlength : ∀ point ∈ points, point.bytes.length ≤ 8) (offset : Nat) (lines : List String) :
    listedOpcodes offset (points.map pointLine ++ lines) =
      listedOpcodes (offset + Cursor.totalLength points) lines := by
  induction points generalizing offset with
  | nil => rfl
  | cons point points ih =>
      obtain ⟨hpoint, hpoints⟩ := List.forall_mem_cons.mp hlength
      rw [List.map_cons, List.cons_append, listedOpcodes_cons_of_none
        (opcodeKind?_of_isPointLine (isPointLine_pointLine hpoint)), hexColumn_pointLine hpoint,
        ih hpoints, Cursor.totalLength_cons, Nat.add_assoc]

theorem takeWhile_isPointLine_lines (lister : Lister program) :
    (lister.lines.map ListingLine.text).takeWhile isPointLine = [] := by
  rw [Lister.lines_eq]
  split
  · rfl
  · rw [List.map_append, Lister.takeWhile_isPointLine_step]

/-- The lines of an instruction have one opcode, the instruction. -/
theorem listedOpcodes_instruction (cursor : Cursor) {lines : List String}
    (hlines : lines.takeWhile isPointLine = []) :
    listedOpcodes cursor.position (cursor.instruction.1.lines ++ lines) =
      cursor.instruction.1.listed :: listedOpcodes cursor.instruction.2.position lines := by
  have hlength : cursor.instruction.1.operation.bytes.length ≤ 8 :=
    cursor.length_spelled_operation_le
  have hpoints : ∀ point ∈ cursor.instruction.1.points, point.bytes.length ≤ 8 :=
    Cursor.length_of_mem_points _ _
  have hpointLines : ∀ line ∈ cursor.instruction.1.points.map pointLine, isPointLine line = true :=
    List.forall_mem_map.mpr fun point hmem => isPointLine_pointLine (hpoints point hmem)
  obtain ⟨hmeaning, hkind⟩ := opcodeKind?_operationLine hlength
  rw [Instruction.lines, List.cons_append, listedOpcodes_cons_of_some hkind,
    hexColumn_operationLine hlength, hmeaning, List.takeWhile_append_of_pos hpointLines, hlines,
    List.append_nil, listedOpcodes_append hpoints, Cursor.position_instruction]
  rfl

/-! ## All lines -/

/-- Behind an invalid opcode no other is listed. -/
theorem listedOpcodes_of_lost {lister : Lister program} (hlost : lister.lost = true)
    (offset : Nat) : listedOpcodes offset (lister.lines.map ListingLine.text) = [] := by
  induction hlength : lister.place.rest.length using Nat.strongRecOn generalizing lister offset with
  | ind length ih =>
      rw [Lister.lines_eq]
      split
      · rfl
      · rename_i hnonempty
        have hlt := Lister.length_step_lt hnonempty
        obtain ⟨line, hrow, -, hkind⟩ := lister.texts_row
        rw [Lister.step, hlost, if_pos rfl] at hlt ⊢
        rw [List.map_append, hrow, List.singleton_append, listedOpcodes_cons_of_none hkind]
        have hlostRow : lister.row.2.lost = true := hlost
        exact ih _ (hlength ▸ hlt) hlostRow _ rfl

/-- **The opcodes of a listing are the instructions that are read for a drawing.** -/
theorem listedOpcodes_lines {lister : Lister program} (hfound : lister.lost = false) :
    listedOpcodes lister.place.position (lister.lines.map ListingLine.text) =
      lister.place.instructions.1.map Instruction.listed := by
  induction hlength : lister.place.rest.length using Nat.strongRecOn generalizing lister with
  | ind length ih =>
      rw [Lister.lines_eq, Cursor.instructions_eq]
      by_cases hend : lister.place.rest = []
      · rw [if_pos hend, if_pos hend]
        rfl
      obtain ⟨htexts, hplace, hlost⟩ := lister.texts_instruction
      have hlt := Lister.length_step_lt hend
      rw [Lister.step, hfound, if_neg Bool.false_ne_true] at hlt ⊢
      rw [if_neg hend, if_neg hend, List.map_append, htexts,
        listedOpcodes_instruction _ (takeWhile_isPointLine_lines _), ← hplace]
      cases hunknown : lister.place.instruction.1.operation.value.isUnknown with
      | true =>
          rw [listedOpcodes_of_lost (hlost.trans hunknown)]
          rfl
      | false =>
          rw [ih _ (hlength ▸ hlt) (hlost.trans hunknown) rfl]
          rfl

/-! ## Whole programs -/

theorem coordinate_of_coordinate? {cursor : Cursor} {next : Binary32 × Cursor}
    (hnext : cursor.coordinate? = some next) : cursor.coordinate = next := by
  unfold Cursor.coordinate? at hnext
  split at hnext
  · exact Option.some.inj hnext
  · cases hnext

theorem place_of_viewBox? {cursor place : Cursor} {box : ViewBox}
    (hbox : cursor.viewBox? = some (box, place)) : cursor.point.2.point.2 = place := by
  obtain ⟨_, _, _, hxMin, hyMin, hxMax, hyMax⟩ := Cursor.viewBox?_eq_some_iff.mp hbox
  simp only [Cursor.point, coordinate_of_coordinate? hxMin, coordinate_of_coordinate? hyMin,
    coordinate_of_coordinate? hxMax, coordinate_of_coordinate? hyMax]

/-- Where the view box is there in full, the opcodes in the text of a listing are the instructions
behind it. -/
theorem listedOpcodes_lines_listing {box : ViewBox} {place : Cursor}
    (hbox : (Cursor.start program).viewBox? = some (box, place)) :
    listedOpcodes 0 (Text.lines (listing program)) =
      place.instructions.1.map Instruction.listed := by
  obtain ⟨hcorners, hbehind⟩ := (Lister.start program).texts_points 2
  have hplace : ((Lister.start program).points 2).2.place = place := by
    simp only [hbehind, Cursor.repeated_succ, Cursor.repeated_zero, Cursor.later_spelled]
    exact place_of_viewBox? hbox
  have hposition : 0 + Cursor.totalLength ((Cursor.start program).repeated
      (fun place => place.spelled Cursor.point) 2).1 = place.position :=
    (Cursor.position_repeated Cursor.reaches_point 2 (Cursor.start program)).trans
      (congrArg Cursor.position (hbehind.symm.trans hplace))
  have hheading : opcodeKind? "# viewbox:" = none := by decide
  have htexts : (listingLines program).map ListingLine.text =
      "# viewbox:" :: (((Cursor.start program).repeated
        (fun place => place.spelled Cursor.point) 2).1.map pointLine ++
          (((Lister.start program).points 2).2.lines.map ListingLine.text)) := by
    rw [listingLines, List.map_cons, List.map_append, hcorners]
    rfl
  calc listedOpcodes 0 (Text.lines (listing program))
      = listedOpcodes place.position
          (((Lister.start program).points 2).2.lines.map ListingLine.text) := by
        rw [lines_listing, htexts, listedOpcodes_cons_of_none hheading,
          listedOpcodes_append (Cursor.length_of_mem_points 2 _), ← hposition]
        rfl
    _ = place.instructions.1.map Instruction.listed := by
        rw [← hplace]
        exact listedOpcodes_lines rfl

end VectorIcons
