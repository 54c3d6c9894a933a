import UtilityClass.Candidate.Json
import UtilityClass.Candidate.Reading
import UtilityClass.Vocabulary.DepthSetting
import UtilityClass.Vocabulary.Stock
import UtilityClass.Proofs.Text.Pieces
import UtilityClass.Proofs.Text.Decomposition
import UtilityClass.Proofs.Text.Balance
import UtilityClass.Proofs.Text.Encoding
import UtilityClass.Proofs.Text.Root
import UtilityClass.Proofs.Variant.Layer
import UtilityClass.Proofs.Variant.Levels
import UtilityClass.Proofs.Variant.Printing
import UtilityClass.Proofs.WellFormed
import UtilityClass.Proofs.Variant.Spelling
import UtilityClass.Proofs.Candidate.Value
import UtilityClass.Proofs.Candidate.Functional
import UtilityClass.Proofs.Candidate.Composition
import UtilityClass.Proofs.Candidate.Encoding
import UtilityClass.Proofs.Vocabulary.Table
import UtilityClass.Proofs.Vocabulary.Editing
import UtilityClass.Proofs.Vocabulary.Loading
import UtilityClass.Proofs.Vocabulary.Reloading
import UtilityClass.Proofs.Json.Lexer
import UtilityClass.Proofs.Json.Value
import UtilityClass.Proofs.Snapshot.Json
import UtilityClass.Proofs.Text.Parts
import UtilityClass.Proofs.Candidate.Agreement
import UtilityClass.Proofs.Vocabulary.Restriction
import UtilityClass.Proofs.Candidate.Rejections
import UtilityClass.Proofs.Vocabulary.Export
import UtilityClass.Proofs.Vocabulary.LoadNotes
import UtilityClass.Proofs.Vocabulary.DepthSetting
import UtilityClass.Proofs.Vocabulary.Registration
import UtilityClass.Proofs.Candidate.Importance
import UtilityClass.Proofs.Candidate.Markers
import UtilityClass.Proofs.Candidate.Property
import UtilityClass.Proofs.Variant.Modifiers
import UtilityClass.Proofs.Candidate.Coherence
import UtilityClass.Proofs.Text.RootSearch
import UtilityClass.Proofs.Variant.Nodes
import UtilityClass.Proofs.Candidate.EmptyValues
import UtilityClass.Proofs.Text.Decoding
import UtilityClass.Proofs.Candidate.OwnReadings
import UtilityClass.Proofs.Json.Node
import UtilityClass.Proofs.Json.Record
import UtilityClass.Proofs.Snapshot.Layout
import UtilityClass.Proofs.Json.Alike
import UtilityClass.Proofs.Candidate.Json
