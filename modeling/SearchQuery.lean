import SearchQuery.Main
import SearchQuery.Proofs.Condition.Alternatives
import SearchQuery.Proofs.Condition.Canonical
import SearchQuery.Proofs.Condition.Leaves
import SearchQuery.Proofs.Condition.Meaning
import SearchQuery.Proofs.Condition.Places
import SearchQuery.Proofs.Condition.Renaming
import SearchQuery.Proofs.Condition.Signs
import SearchQuery.Proofs.Text.Numeral
import SearchQuery.Proofs.Text.Pieces
import SearchQuery.Proofs.Text.Words
import SearchQuery.Proofs.Phrase.Atom
import SearchQuery.Proofs.Phrase.Extraction
import SearchQuery.Proofs.Phrase.Restoration
import SearchQuery.Proofs.Phrase.Legend
import SearchQuery.Proofs.Phrase.Typed
import SearchQuery.Proofs.Phrase.Protected
import SearchQuery.Proofs.Phrase.Margins
import SearchQuery.Proofs.Segment.Split
import SearchQuery.Proofs.Segment.Ends
import SearchQuery.Proofs.Segment.Words
import SearchQuery.Proofs.Segment.Grammar
import SearchQuery.Proofs.Segment.Renaming
import SearchQuery.Proofs.Segment.ByWords
import SearchQuery.Proofs.Skeleton.Cut
import SearchQuery.Proofs.Skeleton.Substitution
import SearchQuery.Proofs.Skeleton.Level
import SearchQuery.Proofs.Skeleton.Direct
import SearchQuery.Proofs.Skeleton.Joint
import SearchQuery.Proofs.Bracket.Nest
import SearchQuery.Proofs.Bracket.Shows
import SearchQuery.Proofs.Bracket.Matched
import SearchQuery.Proofs.Layer.Nodes
import SearchQuery.Proofs.Bracket.Table
import SearchQuery.Proofs.Layer.Ends
import SearchQuery.Proofs.Layer.Pairing
import SearchQuery.Proofs.Layer.Expansion
import SearchQuery.Proofs.Layer.Phrases
import SearchQuery.Proofs.Layer.Filling
import SearchQuery.Proofs.Layer.Forest
import SearchQuery.Proofs.Layer.Shape
import SearchQuery.Proofs.Query.Total
import SearchQuery.Proofs.Query.Operands
import SearchQuery.Proofs.Query.Terms
import SearchQuery.Proofs.Query.Bracketed
import SearchQuery.Proofs.Query.Joint
import SearchQuery.Proofs.Query.RoundTrip
import SearchQuery.Proofs.Query.FullWidth
import SearchQuery.Proofs.Query.Printed
import SearchQuery.Proofs.Query.Reprint
import SearchQuery.Proofs.Query.Margins
import SearchQuery.Proofs.Query.Interchange
import SearchQuery.Proofs.Query.Variants
import SearchQuery.Proofs.Query.BlankPairs
import SearchQuery.Proofs.CommandLine.Run
import SearchQuery.Proofs.Condition.Json
import SearchQuery.Proofs.Condition.Rewriting
import SearchQuery.Proofs.Text.Quoted
import SearchQuery.Proofs.Condition.Outline
import SearchQuery.Proofs.Condition.Foreign
import SearchQuery.Proofs.Skeleton.Refusal
import SearchQuery.Proofs.CommandLine.Settings
