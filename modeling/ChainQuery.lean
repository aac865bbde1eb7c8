import ChainQuery.Main
import ChainQuery.Proofs.Text.Items
import ChainQuery.Proofs.Token.Cutting
import ChainQuery.Proofs.Token.Marking
import ChainQuery.Proofs.Token.Extents
import ChainQuery.Proofs.Query.Clauses
import ChainQuery.Proofs.Query.Filters
import ChainQuery.Proofs.Query.Reading
import ChainQuery.Proofs.Query.Grammar
import ChainQuery.Proofs.Query.Vocabulary
import ChainQuery.Proofs.Query.Inference
import ChainQuery.Proofs.Query.Judgement
import ChainQuery.Proofs.Text.Joined
import ChainQuery.Proofs.Suggestion.Offers
import ChainQuery.Proofs.Typing.Canonical
import ChainQuery.Proofs.Typing.Soundness
import ChainQuery.Proofs.Typing.Reading
import ChainQuery.Proofs.Typing.Slots
import ChainQuery.Proofs.Typing.Prefixes
import ChainQuery.Proofs.Typing.Acceptance
import ChainQuery.Proofs.Suggestion.Failures
import ChainQuery.Proofs.Query.Passages
import ChainQuery.Proofs.Query.Position
import ChainQuery.Proofs.Editor.History
import ChainQuery.Proofs.Typing.Guidance
import ChainQuery.Proofs.Editor.Submission
import ChainQuery.Proofs.Query.LastKeyword
import ChainQuery.Proofs.Typing.DumpClause
import ChainQuery.Proofs.Query.Arrangement
import ChainQuery.Proofs.Query.Continuation
import ChainQuery.Proofs.Query.WellFormed
import ChainQuery.Proofs.Json.Filling
import ChainQuery.Proofs.Service.Agreement
import ChainQuery.Proofs.Typing.Operators
import ChainQuery.Proofs.Query.Growth
import ChainQuery.Proofs.Editor.Retention
import ChainQuery.Proofs.Query.FilterLists
import ChainQuery.Proofs.Token.Locality
import ChainQuery.Proofs.Token.Slices
import ChainQuery.Proofs.Query.FilterGroups
import ChainQuery.Proofs.Query.Division
import ChainQuery.Proofs.Query.Spaces
import ChainQuery.Proofs.Suggestion.Exclusion
import ChainQuery.Proofs.Suggestion.Tables
import ChainQuery.Proofs.Service.Requests
