import VectorIcons.Binary32.Basic
import VectorIcons.Binary32.Rounding
import VectorIcons.Binary32.Arithmetic
import VectorIcons.Binary32.FixedPlaces
import VectorIcons.Bytes
import VectorIcons.Cursor
import VectorIcons.Coordinate
import VectorIcons.Point
import VectorIcons.Color
import VectorIcons.Palette
import VectorIcons.Log
import VectorIcons.Text.Hex
import VectorIcons.Text.Utf8
import VectorIcons.Text.CharRange
import VectorIcons.Text.Unprintable
import VectorIcons.Text.GraphemeExtend
import VectorIcons.Text.Quoted
import VectorIcons.Program.Instruction
import VectorIcons.Program.ViewBox
import VectorIcons.Program.Drawing
import VectorIcons.Runs
import VectorIcons.Text.Columns
import VectorIcons.Program.Listing
import VectorIcons.Program.Writer
import VectorIcons.Icon
import VectorIcons.ByteStream
import VectorIcons.Pack.Section
import VectorIcons.Pack.Basic
import VectorIcons.Pack.LoadReport
import VectorIcons.Pack.Loader
import VectorIcons.Pack.Load
import VectorIcons.Pack.Listing
import VectorIcons.Pack.Builder
import VectorIcons.Proofs.Pack.Parsing
import VectorIcons.Proofs.Pack.SectionParsing
import VectorIcons.Proofs.Pack.Contents
import VectorIcons.Proofs.Pack.Grammar
import VectorIcons.Proofs.Pack.RoundTrip
import VectorIcons.Proofs.Program.Instructions
import VectorIcons.Proofs.Program.CallShape
import VectorIcons.Proofs.Program.ReadBack
import VectorIcons.Proofs.Program.Sketch
import VectorIcons.Proofs.Binary32.Representable
import VectorIcons.Proofs.Binary32.Exactness
import VectorIcons.Proofs.Program.CoordinateStream
import VectorIcons.Proofs.Program.HexColumn
import VectorIcons.Proofs.Program.ListedOpcodes
import VectorIcons.Proofs.Program.ListingDrawing
import VectorIcons.Proofs.Pack.Frames
import VectorIcons.Proofs.Pack.Building
import VectorIcons.Proofs.Pack.Rebuilding
import VectorIcons.Proofs.Program.IssuedCalls
import VectorIcons.Proofs.Program.Recoloring
import VectorIcons.Proofs.Pack.SharedPalettes
import VectorIcons.Proofs.Pack.Laws
import VectorIcons.Proofs.Pack.Steadiness
import VectorIcons.Proofs.Pack.Positions
import VectorIcons.Proofs.Pack.Reporting
import VectorIcons.Proofs.Pack.PassedOver
import VectorIcons.Proofs.Pack.Shortage
import VectorIcons.Proofs.Pack.Truncation
import VectorIcons.Proofs.Pack.ProgramRanges
import VectorIcons.Proofs.Program.ShortestForm
import VectorIcons.Proofs.Program.ReadingAlike
import VectorIcons.Proofs.Program.Passage
import VectorIcons.Proofs.Program.CleanCuts
import VectorIcons.Proofs.Program.TrailingBytes
import VectorIcons.Proofs.Pack.Faults
import VectorIcons.Proofs.Pack.Finality
import VectorIcons.Proofs.Pack.BoundedWriting
import VectorIcons.Proofs.Program.CompleteCoordinates
import VectorIcons.Proofs.Program.Reencoding
import VectorIcons.Proofs.Text.Lines
import VectorIcons.Proofs.Program.ListedBytes
import VectorIcons.Proofs.Icon.Selection
import VectorIcons.Proofs.Pack.NameLookup
import VectorIcons.Proofs.Program.ZerosBehind
import VectorIcons.Proofs.Pack.ListedVariants
