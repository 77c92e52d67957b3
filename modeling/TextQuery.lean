import TextQuery.Main
import TextQuery.Predicate.Trace
import TextQuery.Proofs.Derivation
import TextQuery.Proofs.Reading
import TextQuery.Proofs.Splitting
import TextQuery.Proofs.Scanning
import TextQuery.Proofs.Acceptance
import TextQuery.Proofs.Meaning
import TextQuery.Proofs.Ordering
import TextQuery.Proofs.WellFormed
import TextQuery.Proofs.RoundTrip
import TextQuery.Proofs.Spelling
import TextQuery.Proofs.CompiledTrees
import TextQuery.Proofs.Unambiguity
import TextQuery.Proofs.Mirroring
import TextQuery.Proofs.Conservation
import TextQuery.Proofs.Paging
import TextQuery.Proofs.Operators
import TextQuery.Proofs.Ascii
import TextQuery.Proofs.Occurrence
import TextQuery.Proofs.Patterns
import TextQuery.Proofs.Rounding
import TextQuery.Proofs.ShortestDigits
import TextQuery.Proofs.Numerals
import TextQuery.Proofs.NumberText
import TextQuery.Proofs.NumberOrder
import TextQuery.Proofs.ValueOrder
import TextQuery.Proofs.WhiteSpace
import TextQuery.Proofs.Subcollections
import TextQuery.Proofs.Depth
import TextQuery.Proofs.Directives
import TextQuery.Proofs.Openings
import TextQuery.Proofs.Failures
import TextQuery.Proofs.Faults
import TextQuery.Proofs.FieldNames
import TextQuery.Proofs.Quoting
import TextQuery.Proofs.PlainWords
import TextQuery.Proofs.NumberMatching
import TextQuery.Proofs.Surroundings
import TextQuery.Proofs.Documents
import TextQuery.Proofs.Phrases
import TextQuery.Proofs.IgnoringCase
import TextQuery.Proofs.Paths
import TextQuery.Proofs.DirectiveFaults
import TextQuery.Proofs.UniqueDerivations
import TextQuery.Proofs.GroupedExclusions
import TextQuery.Proofs.DoubleExclusions
import TextQuery.Proofs.ControlCharacters
import TextQuery.Proofs.RepeatedKeys
import TextQuery.Proofs.WrittenFilters
import TextQuery.Proofs.JsonNesting
import TextQuery.Proofs.NestedPredicates
import TextQuery.Proofs.PageAfterPage
import TextQuery.Proofs.Stepping
