import EventFinder.CommandLine
import EventFinder.FileTree
import EventFinder.Proofs.CommandLine.Options
import EventFinder.Proofs.Json.Records
import EventFinder.Proofs.Search.FreeText

/-!
# Three ways to search

A text can be searched for as it is, as a query in JSON, or as a whole request in JSON. The three commands are
one program on every storage (`searches_agree`): they make the same request of the service, since what is written
as JSON is read back as it is, and since a free text in JSON is the query of the text.
-/

set_option autoImplicit false

namespace EventFinder

namespace CommandLine

/-! ## Requests in JSON -/

/-- The request for a page of a query, in JSON. -/
def requestJson (query : Json) (page : Page) : Json :=
  .object
    [("query", query), ("scoring", .bool !page.noScoring), ("includePayload", .bool page.payload),
     ("startIndex", .number (.integer page.start.toNat)), ("limit", .number (.integer page.limit.toNat))]

theorem toSource_requestJson (query : Json) (page : Page) :
    (requestJson query page).toSource =
      .object false
        [(.string (.ok "query") none, query.toSource),
         (.string (.ok "scoring") none, .bool !page.noScoring),
         (.string (.ok "includePayload") none, .bool page.payload),
         (.string (.ok "startIndex") none, .number (.ok (.integer page.start.toNat)) none),
         (.string (.ok "limit") none, .number (.ok (.integer page.limit.toNat)) none)] none := by
  simp [requestJson, Json.toSource, Json.toSourceMembers, Json.lookup]

/-- All that a request says is read from its JSON. -/
theorem draftOfJson_requestJson {query : Json} (hquery : query.toSource.whole = .ok query) (page : Page) :
    Request.draftOfJson (requestJson query page) =
      .ok ⟨query, !page.noScoring, page.payload, page.start, page.limit⟩ := by
  have hstart := Json.unsigned64_toNat page.start
  have hlimit := Json.unsigned64_toNat page.limit
  rw [Request.draftOfJson, Json.readAs, toSource_requestJson, Json.Source.record,
    if_neg Bool.false_ne_true]
  -- One member after another sets its part of the draft.
  rw [Json.readMembers_known ⟨query, true, false, 0, 10⟩ rfl rfl (by rw [hquery]; rfl),
    Json.readMembers_known ⟨query, !page.noScoring, false, 0, 10⟩ rfl rfl rfl,
    Json.readMembers_known ⟨query, !page.noScoring, page.payload, 0, 10⟩ rfl rfl rfl,
    Json.readMembers_known ⟨query, !page.noScoring, page.payload, page.start, 10⟩ rfl rfl
      (by rw [hstart]; rfl),
    Json.readMembers_known ⟨query, !page.noScoring, page.payload, page.start, page.limit⟩ rfl rfl
      (by rw [hlimit]; rfl)]
  rfl

theorem whole_freeTextJson (t : String) :
    (Query.freeTextJson t).toSource.whole = .ok (Query.freeTextJson t) := by
  have hsource : (Query.freeTextJson t).toSource =
      .object false
        [(.string (.ok "type") none, .string (.ok "event text") none),
         (.string (.ok "text") none, .string (.ok t) none)] none := by
    simp [Query.freeTextJson, Json.toSource, Json.toSourceMembers, Json.lookup]
  rw [hsource, Query.freeTextJson]
  simp [Json.Source.whole, Json.Source.wholeMembers, Json.Source.name, Json.Source.closed, Except.map, bind,
    Except.bind, pure, Except.pure]

/-- A request for a text in JSON is the request for the page of its query. -/
theorem ofJson_requestJson (context : Query.Context) (t : String) (page : Page) :
    Request.ofJson context (requestJson (Query.freeTextJson t) page) =
      .ok (Scene.paged (.standard (Query.freeText context.weights t)) page) := by
  rw [Request.ofJson, draftOfJson_requestJson (whole_freeTextJson t)]
  dsimp only
  rw [Query.ofJson_freeTextJson]
  rfl

theorem legible_freeTextJson (t : String) : Json.Legible 1 (Query.freeTextJson t) := by
  apply Json.Legible.object
  intro member hmember
  rcases List.mem_cons.1 hmember with rfl | hmember
  · exact .string 0 "event text"
  · rw [List.mem_singleton.1 hmember]
    exact .string 0 t

theorem legible_requestJson {query : Json} (hquery : Json.Legible 1 query) (page : Page) :
    Json.Legible 2 (requestJson query page) := by
  apply Json.Legible.object
  simp only [List.forall_mem_cons]
  exact ⟨hquery, .bool 1 _, .bool 1 _, Json.legible_unsigned64 1 _, Json.legible_unsigned64 1 _,
    List.forall_mem_nil _⟩

/-! ## Options of a page -/

/-- The options that ask for a page. -/
def pageOptions (page : Page) : List (Opt × String) :=
  [(.start, decimal page.start.toNat), (.limit, decimal page.limit.toNat)] ++
    (if page.noScoring then [(.noScoring, "")] else []) ++
    (if page.payload then [(.payload, "")] else []) ++
    (if page.json then [(.json, "")] else [])

/-- The option that asks for results in JSON, if it is wanted. -/
def jsonOptions (json : Bool) : List (Opt × String) := if json then [(.json, "")] else []

theorem takes_decimal {opt : Opt} (hopt : opt = .start ∨ opt = .limit) (n : UInt64) :
    opt.Takes (decimal n.toNat) := by
  have hunsigned : (Numeral.unsigned? (decimal n.toNat)).isSome = true := by
    rw [decimal, unsigned?_decimalDigits]
    rfl
  rcases hopt with rfl | rfl
  · exact ⟨hunsigned, nofun⟩
  · exact ⟨hunsigned, nofun⟩

/-- Options of a page are options of the commands that show results. -/
theorem takes_of_mem_pageOptions {page : Page} {o : Opt × String} (ho : o ∈ pageOptions page) :
    o.1 ∈ Opt.paging ∧ o.1.Takes o.2 := by
  have hflag : ∀ (b : Bool) (opt : Opt), opt ∈ Opt.paging → opt.Takes "" →
      ∀ o ∈ (if b then [(opt, "")] else []), o.1 ∈ Opt.paging ∧ o.1.Takes o.2 := by
    intro b opt hopt htakes o ho
    cases b with
    | true =>
        rw [List.mem_singleton.1 ho]
        exact ⟨hopt, htakes⟩
    | false => cases ho
  rw [pageOptions, List.mem_append, List.mem_append, List.mem_append] at ho
  rcases ho with ((ho | ho) | ho) | ho
  · have hstart : Opt.start ∈ Opt.paging := by decide
    have hlimit : Opt.limit ∈ Opt.paging := by decide
    rcases List.mem_cons.1 ho with rfl | ho
    · exact ⟨hstart, takes_decimal (Or.inl rfl) page.start⟩
    · rw [List.mem_singleton.1 ho]
      exact ⟨hlimit, takes_decimal (Or.inr rfl) page.limit⟩
  · exact hflag page.noScoring .noScoring (by decide) ⟨rfl, fun _ => rfl⟩ o ho
  · exact hflag page.payload .payload (by decide) ⟨rfl, fun _ => rfl⟩ o ho
  · exact hflag page.json .json (by decide) ⟨rfl, fun _ => rfl⟩ o ho

theorem nodup_pageOptions (page : Page) : ((pageOptions page).map Prod.fst).Nodup := by
  obtain ⟨start, limit, noScoring, payload, json⟩ := page
  cases noScoring <;> cases payload <;> cases json <;> simp [pageOptions]

/-- The options of a page ask for it. -/
theorem page_pageOptions (page : Page) (operand : Option String) : Given.page ⟨pageOptions page, operand⟩ = page := by
  obtain ⟨start, limit, noScoring, payload, json⟩ := page
  have hstart : (Numeral.unsigned? (decimal start.toNat)) = some start := unsigned?_decimalDigits start
  have hlimit : (Numeral.unsigned? (decimal limit.toNat)) = some limit := unsigned?_decimalDigits limit
  have hne : (Opt.limit == Opt.start) = false := by decide
  cases noScoring <;> cases payload <;> cases json <;>
    simp [Given.page, Given.number, Given.value?, Given.has, pageOptions, List.lookup_cons, hne, hstart, hlimit]

/-! ## One program -/

/-- The words ask for a command on a data directory. -/
def Asks (words : List String) (directory : Option String) (command : Command) : Prop :=
  ∃ verbosity quiet, Arguments.ofList words = .ok ⟨directory, verbosity, quiet, command⟩

theorem asks_search {directory : Option String} (hdirectory : directory ≠ some "") (t : String) (page : Page) :
    Asks (lineWords directory .search (pageOptions page) t) directory (.search t page) := by
  refine ⟨0, false, ofList_lineWords hdirectory (fun _ ho => takes_of_mem_pageOptions ho)
    (nodup_pageOptions page) rfl ?_⟩
  rw [Given.command?, page_pageOptions]
  rfl

theorem asks_query {directory : Option String} (hdirectory : directory ≠ some "") (query : String) (page : Page) :
    Asks (lineWords directory .query (pageOptions page) query) directory (.query query page) := by
  refine ⟨0, false, ofList_lineWords hdirectory (fun _ ho => takes_of_mem_pageOptions ho)
    (nodup_pageOptions page) rfl ?_⟩
  rw [Given.command?, page_pageOptions]
  rfl

theorem asks_request {directory : Option String} (hdirectory : directory ≠ some "") (request : String)
    (json : Bool) :
    Asks (lineWords directory .request (jsonOptions json) request) directory (.request request json) := by
  refine ⟨0, false, ofList_lineWords hdirectory ?_ ?_ rfl ?_⟩
  · intro o ho
    cases json with
    | true =>
        rw [List.mem_singleton.1 ho]
        exact ⟨List.mem_cons_self, rfl, fun _ => rfl⟩
    | false => cases ho
  · cases json <;> simp [jsonOptions]
  · cases json <;> rfl

section Programs

variable {m : Type → Type} [Monad m] [Storage m] (environment : Environment) {now now' : Int64}
  {input input' : ByteArray}

/-- What is asked for decides what is done: commands that do the same in every scene, and import nothing, are the
same program. -/
theorem run_congr {words words' : List String} {directory : Option String} {command command' : Command}
    (asks : Asks words directory command) (asks' : Asks words' directory command')
    (himport : (importFile command : m FileContent) = importFile command')
    (h : ∀ root service file, Scene.perform ⟨root, service, now, input, file⟩ command =
      Scene.perform ⟨root, service, now', input', file⟩ command') :
    (run environment now input words : m Outcome) = run environment now' input' words' := by
  obtain ⟨verbosity, quiet, harguments⟩ := asks
  obtain ⟨verbosity', quiet', harguments'⟩ := asks'
  have hrun : (runArguments environment now input ⟨directory, verbosity, quiet, command⟩ :
      ExceptT Failure m String) =
      runArguments environment now' input' ⟨directory, verbosity', quiet', command'⟩ := by
    simp only [runArguments, himport, h]
  simp only [run, harguments, harguments', hrun]

end Programs

section Scenes

variable (root : String) (service : Service) (now : Int64) (input : ByteArray) (file : FileContent) (t : String)
  (page : Page)

/-- What a search for a text does. -/
theorem perform_search :
    Scene.perform ⟨root, service, now, input, file⟩ (.search t page) =
      Scene.answer ⟨root, service, 0, .empty, .missing⟩
        (Scene.paged (.standard (Query.freeText service.settings.weights t)) page) page.json := rfl

/-- The query of the text in JSON does the same. -/
theorem perform_query {query : String} (hquery : Json.ofText query = .ok (Query.freeTextJson t)) :
    Scene.perform ⟨root, service, now, input, file⟩ (.query query page) =
      Scene.answer ⟨root, service, 0, .empty, .missing⟩
        (Scene.paged (.standard (Query.freeText service.settings.weights t)) page) page.json := by
  have hrequest : service.request now (Query.freeTextJson t) =
      .ok (.standard (Query.freeText service.settings.weights t)) := by
    rw [Service.request, Query.ofJson_freeTextJson]
    rfl
  have hread : Scene.readJson query = .ok (Query.freeTextJson t) := by
    rw [Scene.readJson, hquery, Except.mapError]
  simp only [Scene.perform, bind, Except.bind, hread, hrequest]
  rfl

theorem perform_request_of_read {text : String} {value : Json} {request : Request} (json : Bool)
    (hdash : text ≠ "-") (hvalue : Json.ofText text = .ok value)
    (hrequest : Request.ofJson (service.context now) value = .ok request) :
    Scene.perform ⟨root, service, now, input, file⟩ (.request text json) =
      Scene.answer ⟨root, service, 0, .empty, .missing⟩ request json := by
  simp only [Scene.perform, if_neg hdash, Scene.readJson, hvalue, hrequest, bind, Except.bind, pure, Except.pure,
    Except.mapError]
  rfl

/-- The request for that page of the query does the same. -/
theorem perform_request {text : String}
    (htext : Json.ofText text = .ok (requestJson (Query.freeTextJson t) page)) :
    Scene.perform ⟨root, service, now, input, file⟩ (.request text page.json) =
      Scene.answer ⟨root, service, 0, .empty, .missing⟩
        (Scene.paged (.standard (Query.freeText service.settings.weights t)) page) page.json := by
  apply perform_request_of_read root service now input file page.json _ htext
  · exact ofJson_requestJson (service.context now) t page
  · -- A dash alone is no JSON, so the request is not on the standard input.
    rintro rfl
    have hnone : (match Json.ofText "-" with | .ok _ => true | .error _ => false) = false := by
      decide +kernel
    rw [htext] at hnone
    cases hnone

end Scenes

/-- A text, the query of the text in JSON, and the request for a page of that query can be asked for on command
lines, and what is written as JSON on them is read back as it is. Whatever the lines look like that ask for the
three, they are one program. -/
theorem searches_agree (directory : Option String) (hdirectory : directory ≠ some "") (t : String)
    (page : Page) :
    (Asks (lineWords directory .search (pageOptions page) t) directory (.search t page) ∧
      Asks (lineWords directory .query (pageOptions page) (Query.freeTextJson t).text) directory
        (.query (Query.freeTextJson t).text page) ∧
      Asks (lineWords directory .request (jsonOptions page.json)
          (requestJson (Query.freeTextJson t) page).text) directory
        (.request (requestJson (Query.freeTextJson t) page).text page.json)) ∧
    (Json.ofText (Query.freeTextJson t).text = .ok (Query.freeTextJson t) ∧
      Json.ofText (requestJson (Query.freeTextJson t) page).text =
        .ok (requestJson (Query.freeTextJson t) page)) ∧
    ∀ {m : Type → Type} [Monad m] [Storage m] (environment : Environment) (now now' now'' : Int64)
      (input input' input'' : ByteArray) (words words' words'' : List String) (query request : String),
      Asks words directory (.search t page) →
      Asks words' directory (.query query page) → Json.ofText query = .ok (Query.freeTextJson t) →
      Asks words'' directory (.request request page.json) →
      Json.ofText request = .ok (requestJson (Query.freeTextJson t) page) →
        (run environment now input words : m Outcome) = run environment now' input' words' ∧
          (run environment now input words : m Outcome) = run environment now'' input'' words'' := by
  refine ⟨⟨asks_search hdirectory t page, asks_query hdirectory _ page, asks_request hdirectory _ page.json⟩,
    ⟨Json.ofText_text (legible_freeTextJson t) (by decide),
      Json.ofText_text (legible_requestJson (legible_freeTextJson t) page) (by decide)⟩, ?_⟩
  intro m _ _ environment now now' now'' input input' input'' words words' words'' query request hsearch hquery
    hqueryText hrequest hrequestText
  constructor
  · apply run_congr environment hsearch hquery rfl
    intro root service file
    rw [perform_search, perform_query _ _ _ _ _ _ _ hqueryText]
  · apply run_congr environment hsearch hrequest rfl
    intro root service file
    rw [perform_search, perform_request _ _ _ _ _ _ _ hrequestText]

/-- Five results behind the first one, with payloads. -/
def dashedPage : Page := ⟨1, 5, false, true, false⟩

/-- A text that begins with a dash is searched for in all three ways. -/
theorem searches_agree_dashed :
    (some "data" ≠ some "") ∧
    (run (fun _ => none) 0 .empty
        ["--data-dir=data", "search", "--start=1", "--limit=5", "--payload", "--", "-live"] :
          StateM FileTree Outcome) =
      run (fun _ => none) 1 .empty
        ["--data-dir=data", "query", "--start=1", "--limit=5", "--payload",
         "\x7b\"type\":\"event text\",\"text\":\"-live\"\x7d"] ∧
    (run (fun _ => none) 0 .empty
        ["--data-dir=data", "search", "--start=1", "--limit=5", "--payload", "--", "-live"] :
          StateM FileTree Outcome) =
      run (fun _ => none) 2 .empty
        ["--data-dir=data", "request",
         "\x7b\"query\":\x7b\"type\":\"event text\",\"text\":\"-live\"\x7d,\"scoring\":true," ++
           "\"includePayload\":true,\"startIndex\":1,\"limit\":5\x7d"] := by
  have hsearch : lineWords (some "data") .search (pageOptions dashedPage) "-live" =
      ["--data-dir=data", "search", "--start=1", "--limit=5", "--payload", "--", "-live"] := by decide +kernel
  have hquery : lineWords (some "data") .query (pageOptions dashedPage) (Query.freeTextJson "-live").text =
      ["--data-dir=data", "query", "--start=1", "--limit=5", "--payload",
       "\x7b\"type\":\"event text\",\"text\":\"-live\"\x7d"] := by decide +kernel
  have hrequest : lineWords (some "data") .request (jsonOptions false)
      (requestJson (Query.freeTextJson "-live") dashedPage).text =
      ["--data-dir=data", "request",
       "\x7b\"query\":\x7b\"type\":\"event text\",\"text\":\"-live\"\x7d,\"scoring\":true," ++
         "\"includePayload\":true,\"startIndex\":1,\"limit\":5\x7d"] := by decide +kernel
  have hdirectory : some "data" ≠ some "" := by decide
  obtain ⟨⟨asksSearch, asksQuery, asksRequest⟩, ⟨readQuery, readRequest⟩, hagree⟩ :=
    searches_agree (some "data") hdirectory "-live" dashedPage
  rw [← hsearch, ← hquery, ← hrequest]
  exact ⟨hdirectory, hagree (fun _ => none) 0 1 2 .empty .empty .empty _ _ _ _ _ asksSearch asksQuery readQuery
    asksRequest readRequest⟩

end CommandLine

end EventFinder
