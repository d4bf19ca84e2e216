import ParseView.CommandLine.Run
import ParseView.Main
import ParseView.Proofs.Lines
import ParseView.Sink
import ParseView.Tree.Builder
import ParseView.Tree.Render
import ParseView.Token.Render
import ParseView.Proofs.Captions
import ParseView.Proofs.Blocks
import ParseView.Proofs.Composition
import ParseView.Proofs.Legibility
import ParseView.Proofs.Leaves
import ParseView.Proofs.Margins
import ParseView.Proofs.Alignment
import ParseView.Proofs.FrameEdges
import ParseView.Proofs.ColumnWidths
import ParseView.Proofs.Escaping
import ParseView.Proofs.Unescaping
import ParseView.Proofs.EscapeFixedPoints
import ParseView.Proofs.EscapedCharacters
import ParseView.Proofs.TableLines
import ParseView.Proofs.TableGeometry
import ParseView.Proofs.GlyphPlaces
import ParseView.Proofs.TextCells
import ParseView.Proofs.AsciiDrawings
import ParseView.Proofs.ControlCharacters
import ParseView.Proofs.ColumnMaxima
import ParseView.Proofs.BuilderRuns
import ParseView.Proofs.BuilderMisuse
import ParseView.Proofs.Overlay
import ParseView.Proofs.JsonTokens
import ParseView.Proofs.JsonValues
import ParseView.Proofs.JsonNesting
import ParseView.Proofs.TreeDumps
import ParseView.Proofs.JsonReading
import ParseView.Proofs.JsonRecords
import ParseView.Proofs.LineCount
import ParseView.Proofs.PolicyAgreement
import ParseView.Proofs.VocabularyLines
import ParseView.Proofs.VocabularyFaults
import ParseView.Proofs.VocabularyLookups
import ParseView.Proofs.VocabularyTables
import ParseView.Proofs.SinkPrefix
import ParseView.Proofs.TokenDumps
import ParseView.Proofs.ChannelRouting
import ParseView.Proofs.CommandRuns
import ParseView.Proofs.TreeDecoding
import ParseView.Proofs.DumpReloading
import ParseView.Proofs.LeafRounds
import ParseView.Proofs.FirstLeaf
