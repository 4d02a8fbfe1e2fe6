import EventFinder.Main
import EventFinder.Proofs.Analysis.Windows
import EventFinder.Proofs.CommandLine.Failure
import EventFinder.Proofs.CommandLine.Searches
import EventFinder.Proofs.Event.Records
import EventFinder.Proofs.Event.RoundTrip
import EventFinder.Proofs.Geo.Growth
import EventFinder.Proofs.Import.Lines
import EventFinder.Proofs.Query.Blame
import EventFinder.Proofs.Query.FreeText
import EventFinder.Proofs.Query.Mistyped
import EventFinder.Proofs.Query.Spelling
import EventFinder.Proofs.Query.Typing
import EventFinder.Proofs.Search.Area
import EventFinder.Proofs.Search.Factors
import EventFinder.Proofs.Search.FixedFields
import EventFinder.Proofs.Search.LetterCase
import EventFinder.Proofs.Search.PartialText
import EventFinder.Proofs.Search.RealRanges
import EventFinder.Proofs.Search.RecordOrder
import EventFinder.Proofs.Search.Tags
import EventFinder.Proofs.Store.Export
import EventFinder.Proofs.Store.Imports
import EventFinder.Proofs.Store.Status
import EventFinder.Proofs.Json.FiniteNumbers
import EventFinder.Proofs.Json.Numbers
