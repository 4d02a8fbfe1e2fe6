import EventFinder.Json.Printer
import EventFinder.Service

/-!
# Reports

What commands print: results and counts, for people or as JSON. Every report is whole lines.
-/

set_option autoImplicit false

namespace EventFinder

namespace CommandLine

/-- A natural number in decimal. -/
def decimal (n : Nat) : String := String.ofList (decimalDigits n)

/-- A text as a line. -/
def line (s : String) : String := s ++ "\n"

namespace Report

/-- One result for people: its score with three places, its identity, and its payload on a line of its
own. -/
def result (r : Result) : String :=
  line ("[" ++ r.score.fixed 3 ++ "] " ++ decimal r.identity.toNat) ++
    match r.payload with
    | some payload => line ("     " ++ payload)
    | none => ""

/-- Results for people. -/
def results (rs : Results) : String :=
  if rs.results.isEmpty then line "No results found."
  else
    String.join (rs.results.map result) ++
      line ("\n" ++ decimal rs.results.length ++ " of " ++ decimal rs.totalMatches ++ " match(es)")

/-- The members of one result in JSON. -/
def resultMembers (r : Result) : List (String × List Char) :=
  [("identity", decimalDigits r.identity.toNat), ("score", (r.score.jsonText .narrow).toList)] ++
    match r.payload with
    | some payload => [("payload", Json.quote payload)]
    | none => []

/-- Results in JSON. -/
def resultsJson (rs : Results) : String :=
  line (String.ofList (Json.braced
    [("totalMatches", decimalDigits rs.totalMatches),
     ("results", Json.bracketed (rs.results.map fun r => Json.braced (resultMembers r)))]))

/-- Counts for people. -/
def status (root : String) (s : Status) : String :=
  line ("Data directory: " ++ root) ++
    line ("Events:  " ++ decimal s.events) ++
    line ("Records: " ++ decimal s.records)

/-- Counts in JSON. -/
def statusJson (s : Status) : String :=
  line (String.ofList (Json.braced
    [("records", decimalDigits s.records), ("events", decimalDigits s.events)]))

end Report

end CommandLine

end EventFinder
