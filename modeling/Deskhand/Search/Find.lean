import Deskhand.Json.Access
import Deskhand.Search.Offline
import Deskhand.Search.Soup

/-!
# Searching

A query is sent to a search page. Its direct answer and the texts of the first pages it lists make up
the result; failing those, what it suggests; failing everything, a made-up answer (`perform_search`).
-/

namespace Deskhand.Search

/-- What comes back from the web. -/
inductive Response where
  | answer (status : Int) (text : Text)
  | failed

/-- Whether an answer of a status is no error (`ok`). Statuses from 600 on are none. -/
def isOk (status : Int) : Bool := status < 400 || 600 ≤ status

/-- The text of an answer that is no error. -/
def Response.text? : Response → Option Text
  | .answer status text => if isOk status then some text else none
  | .failed => none

/-- The web as a search finds it. -/
structure Web where
  searchUrl : Option Text
  search : Response
  pages : Table Response

/-- The response for a page. -/
def Web.page (w : Web) (url : Text) : Response := (w.pages.get? url).getD .failed

/-- A request that was made. -/
structure Request where
  url : Option Text
  /-- The query that was sent along. -/
  query : Option Json
  seconds : Nat

/-- Why a search fails. -/
inductive Fault where
  /-- The query is of a kind that is no text. -/
  | notText (misuse : Json.Misuse)
  /-- A time lies before the first year. -/
  | clockRange

/-- The family of a fault. -/
def Fault.family : Fault → Family
  | .notText misuse => misuse.family
  | .clockRange => .overflow

/-- The message for a fault. -/
def Fault.message : Fault → Text
  | .notText misuse => misuse.message
  | .clockRange => "date value out of range"

/-- The made-up answer to a query. -/
def offline (c : Clock) : Json → Except Fault Text
  | .text query =>
    match offline? c query with
    | some t => .ok t
    | none => .error .clockRange
  | v => .error (.notText (.noMember v.kindName "lower"))

/-- A direct answer, and where it comes from. -/
structure Direct where
  text : Text
  source : Text

/-- A page that a search lists. -/
structure Link where
  title : Text
  url : Text

/-- A page and what it says. -/
structure Source where
  link : Link
  content : Text

section Pages

variable [Soup]

/-- The direct answer on a search page. -/
def direct? (page : Soup.Element) : Option Direct :=
  (Soup.select page "#answers .answer").head?.map fun e ↦
    { text := Soup.text e []
      source := ((Soup.first? e ".answer-url").map (Soup.text · [])).getD [] }

/-- The link of a result. -/
def link? (result : Soup.Element) : Option Link :=
  match Soup.first? result "h3 a" with
  | some e => (Soup.attribute? e "href").map fun url ↦ { title := Soup.text e [], url }
  | none => none

/-- How many results count. -/
def resultCount : Nat := 5

/-- The links of the first results on a search page. -/
def links (page : Soup.Element) : List Link :=
  ((Soup.select page "article.result").take resultCount).filterMap link?

/-- The suggestions on a search page, if it has any. -/
def suggestions? (page : Soup.Element) : Option (List Text) :=
  match Soup.select page "#suggestions .suggestion" with
  | [] => none
  | found =>
    some ((found.filterMap fun e ↦
      (Soup.attribute? e "value").map (Text.trimChars fun c ↦ c == '•' || c == ' ')).take 5)

/-- Chooses elements that say nothing about a page's subject. -/
def clutter : Text := "script, style, nav, footer, header, aside, .ads, .comments, .sidebar"

/-- Where the content of a page is looked for, in this order. -/
def contentPlaces : List Text :=
  ["main", "article", ".content", ".post-content", ".entry-content", "#content", ".main-content",
    ".article-body", ".post-body"]

/-- The text of the first content place, if a page has one. -/
def mainText (page : Soup.Element) : Text :=
  ((contentPlaces.findSome? (Soup.first? page)).map (Soup.text · " ")).getD []

/-- The text of a page's body. -/
def bodyText (page : Soup.Element) : Text := ((Soup.body? page).map (Soup.text · " ")).getD []

/-- At most a thousand characters; a longer text ends in dots. -/
def shorten (t : Text) : Text := if t.length > 1000 then t.take 997 ++ "...".toList else t

/-- What a page says, if it says anything. -/
def content? (page : Soup.Element) : Option Text :=
  let page := Soup.without page clutter
  let main := mainText page
  let t := if main.isEmpty then bodyText page else main
  if t.isEmpty then none else some (shorten (Text.trim (Text.collapse t)))

/-- What a link contributes to the result: a page that cannot be had or read is unavailable, one that
says nothing contributes nothing. -/
def source? (web : Web) (link : Link) : Option Source :=
  let unavailable : Source := ⟨link, "Content unavailable"⟩
  match web.page link.url with
  | .failed => some unavailable
  | .answer status text =>
    if isOk status then
      match Soup.parse? text with
      | some page => (content? page).map (⟨link, ·⟩)
      | none => some unavailable
    else none

end Pages

/-- A source under its number. -/
def sourceText (number : Nat) (s : Source) : Text :=
  phrase ["SOURCE ", Text.ofNat number, ": ", s.link.title, "\nURL: ", s.link.url,
    "\nCONTENT SUMMARY: ", s.content, "\n\n"]

/-- Sources, numbered from `number` on. -/
def sourceTexts (number : Nat) : List Source → Text
  | [] => []
  | s :: rest => sourceText number s ++ sourceTexts (number + 1) rest

/-- The result of a direct answer and sources. -/
def report (direct : Option Direct) (sources : List Source) : Text :=
  (match direct with
    | some d => phrase ["DIRECT ANSWER: ", d.text, "\nSource: ", d.source, "\n\n"]
    | none => [])
  ++ if sources.isEmpty then []
    else "CONTENT FROM TOP SOURCES:\n\n".toList ++ sourceTexts 1 sources

/-- What suggestions say about a query. -/
def suggestionReport (query : Json) (suggestions : List Text) : Text :=
  phrase ["No direct results found for '", query.display, "'. Related searches: ",
    Text.join ", " suggestions]

/-- The request for a search. -/
def searchRequest (web : Web) (query : Json) : Request where
  url := web.searchUrl
  query := some query
  seconds := 10

/-- The request for a page. -/
def pageRequest (link : Link) : Request where
  url := some link.url
  query := none
  seconds := 5

/-- The result of a search, and the requests made for it (`perform_search`). -/
def run [Soup] (web : Web) (c : Clock) (query : Json) : Except Fault Text × List Request :=
  let first := searchRequest web query
  match web.search.text?.bind Soup.parse? with
  | none => (offline c query, [first])
  | some page =>
    let direct := direct? page
    let links := links page
    if links.isEmpty && direct.isNone then
      match suggestions? page with
      | some suggestions => (.ok (suggestionReport query suggestions), [first])
      | none => (offline c query, [first])
    else
      let text := report direct (links.filterMap (source? web))
      (if text.isEmpty then offline c query else .ok (Text.trim text),
        first :: links.map pageRequest)

end Deskhand.Search
