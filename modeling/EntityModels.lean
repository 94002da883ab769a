import EntityModels.Grammar.Block
import EntityModels.Grammar.Document
import EntityModels.Grammar.Production
import EntityModels.Text.Source
import EntityModels.Tree.Visit
import EntityModels.Proofs.Parsing.Place
import EntityModels.Proofs.Tree.Respan
import EntityModels.Proofs.Parsing.Agreement
import EntityModels.Proofs.Grammar.Locality
import EntityModels.Proofs.Reading.Flat
import EntityModels.Proofs.Reading.Loop
import EntityModels.Proofs.Parsing.Triple
import EntityModels.Proofs.Parsing.FailsWith
import EntityModels.Proofs.Grammar.Causes
import EntityModels.Proofs.Grammar.Mildness
import EntityModels.Proofs.Unicode.Classes
import EntityModels.Proofs.Grammar.Trivia
import EntityModels.Proofs.Reading.Alone
import EntityModels.Proofs.Reading.Refinement
import EntityModels.Proofs.Reading.Boundaries
import EntityModels.Proofs.Reading.Documents
import EntityModels.Proofs.Reading.Blocks
import EntityModels.Proofs.Reading.Coverage
import EntityModels.Proofs.Parsing.Reads
import EntityModels.Proofs.Tree.Render
import EntityModels.Proofs.Grammar.Words
import EntityModels.Proofs.Grammar.Modifiers
import EntityModels.Proofs.Grammar.Written
import EntityModels.Proofs.Grammar.Alternatives
import EntityModels.Proofs.Reading.RoundTrip
import EntityModels.Proofs.Parsing.Failures
import EntityModels.Proofs.Grammar.Failures
import EntityModels.Proofs.Reading.Refusal
import EntityModels.Proofs.Reading.ErrorLine
import EntityModels.Proofs.Reading.Concatenation
import EntityModels.Proofs.Grammar.Disjointness
import EntityModels.Proofs.Grammar.Reordering
import EntityModels.Proofs.Grammar.Commitment
import EntityModels.Proofs.Grammar.TypeSyntax
import EntityModels.Proofs.Grammar.ModifierRuns
import EntityModels.Proofs.Grammar.BadFields
import EntityModels.Proofs.Grammar.Lengths
import EntityModels.Proofs.Grammar.ModifierGroups
import EntityModels.Proofs.Grammar.SettingOrder
import EntityModels.Proofs.Reading.FatalFields
import EntityModels.Proofs.Parsing.Lookahead
import EntityModels.Proofs.Grammar.Lookahead
import EntityModels.Proofs.Parsing.Returns
import EntityModels.Proofs.Tree.Produced
import EntityModels.Proofs.Grammar.Results
import EntityModels.Proofs.Reading.Produced
import EntityModels.Proofs.Text.Extent
import EntityModels.Proofs.Tree.Nesting
import EntityModels.Proofs.Parsing.Placed
import EntityModels.Proofs.Grammar.Spans
import EntityModels.Proofs.Reading.Spans
import EntityModels.Proofs.Text.Spacing
import EntityModels.Proofs.Tree.Plain
import EntityModels.Proofs.Parsing.Spacing
import EntityModels.Proofs.Grammar.Spacing
import EntityModels.Proofs.Parsing.Abreast
import EntityModels.Proofs.Grammar.Remarks
import EntityModels.Proofs.Reading.Spacing
import EntityModels.Proofs.Reading.Remarks
import EntityModels.Proofs.Reading.BlankEnd
import EntityModels.Proofs.Reading.TriviaText
import EntityModels.Proofs.Reading.MissingMarker
import EntityModels.Proofs.Reading.Unterminated
import EntityModels.Proofs.Reading.Failures
import EntityModels.Proofs.Tree.Growth
import EntityModels.Proofs.Grammar.MarkedNames
import EntityModels.Proofs.Grammar.NameLists
import EntityModels.Proofs.Reading.MarkedNames
import EntityModels.Proofs.Reading.MarkedBlocks
import EntityModels.Proofs.Parsing.Selection
import EntityModels.Proofs.Parsing.Account
import EntityModels.Proofs.Grammar.Calls
import EntityModels.Proofs.Grammar.Names
import EntityModels.Proofs.Text.Places
import EntityModels.Proofs.Parsing.Counters
import EntityModels.Proofs.Reading.Walks
