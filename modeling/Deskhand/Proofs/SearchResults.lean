import Deskhand.Html.Select
import Deskhand.Proofs.Editing
import Deskhand.Proofs.UsableAnswer
import Mathlib.Data.List.DropRight

/-!
# What a search finds

Whatever the web answers and whatever library reads its pages, a search for a text ends with a result
that is not empty, after six requests at most (`perform_search`). A search page that lists something
leads to a result made of its direct answer and of what each listed page contributes. A contribution
depends on nothing but the link and the answer for its address, so a page that cannot be had changes
nothing about the others.
-/

namespace Deskhand

namespace Text

/-! ### Runs of white space -/

private theorem trimRight_concat {c : Char} (hc : isBlank c = false) (a : Text) :
    trimRight (a ++ [c]) = a ++ [c] := trimRight_eq_self (by simpa using hc)

/-- Words are not empty. -/
theorem ne_nil_of_mem_wordsFrom {word current t : Text} (h : word ∈ wordsFrom current t) :
    word ≠ [] := by
  have hreverse : ∀ {current : Text}, current.isEmpty = false → current.reverse ≠ [] := by simp
  induction t generalizing current with
  | nil =>
    rw [wordsFrom] at h
    cases hcurrent : current.isEmpty with
    | true => simp [hcurrent] at h
    | false =>
      rw [hcurrent, if_neg Bool.false_ne_true, List.mem_singleton] at h
      exact h ▸ hreverse hcurrent
  | cons c t ih =>
    rw [wordsFrom] at h
    split at h
    · cases hcurrent : current.isEmpty with
      | true => exact ih (by simpa [hcurrent] using h)
      | false =>
        rw [hcurrent, if_neg Bool.false_ne_true, List.mem_cons] at h
        exact h.elim (fun h ↦ h ▸ hreverse hcurrent) ih
    · exact ih h

/-- Inside a run of white space nothing is left to drop at the left. -/
theorem trimLeft_collapseFrom (inRun : Bool) (t : Text) :
    trimLeft (collapseFrom inRun t) = collapseFrom true t := by
  induction t generalizing inRun with
  | nil => rfl
  | cons c t ih =>
    cases hc : isBlank c with
    | false =>
      simp only [collapseFrom, hc, Bool.false_eq_true, if_false]
      exact List.dropWhile_cons_of_neg (by simp [hc])
    | true =>
      simp only [collapseFrom, hc, if_true]
      cases inRun with
      | true => exact ih true
      | false =>
        rw [if_neg Bool.false_ne_true, trimLeft, List.dropWhile_cons_of_pos isBlank_space]
        exact ih true

/-- The words after the current one, joined by blanks, are what collapsing leaves; in a run of white
space there is no current word. -/
theorem join_wordsFrom (t : Text) :
    join " " (wordsFrom [] t) = trimRight (collapseFrom true t) ∧
      ∀ word : Text, ∀ c, isBlank c = false → join " " (wordsFrom (c :: word.reverse) t) =
        trimRight (word ++ [c] ++ collapseFrom false t) := by
  induction t with
  | nil =>
    refine ⟨rfl, fun word c hc ↦ ?_⟩
    rw [collapseFrom, List.append_nil, trimRight_concat hc]
    simp [wordsFrom, join]
  | cons d t ih =>
    cases hd : isBlank d with
    | false =>
      simp only [wordsFrom, collapseFrom, hd, Bool.false_eq_true, if_false]
      refine ⟨ih.2 [] d hd, fun word c _ ↦ ?_⟩
      have hnext := ih.2 (word ++ [c]) d hd
      rw [List.reverse_append, List.reverse_singleton, List.singleton_append] at hnext
      rw [hnext, List.append_assoc _ [d]]
      rfl
    | true =>
      simp only [wordsFrom, collapseFrom, hd, if_true, List.isEmpty_nil, List.isEmpty_cons,
        Bool.false_eq_true, if_false]
      refine ⟨ih.1, fun word c hc ↦ ?_⟩
      rw [List.reverse_cons, List.reverse_reverse, ← List.singleton_append (x := ' '),
        trimRight_append, trimRight_append [' '], ← ih.1]
      cases hwords : wordsFrom [] t with
      | nil =>
        have hspace : trimRight [' '] = [] := by simp [trimRight, isBlank_space]
        simp [join, trimRight_concat hc, hspace]
      | cons first rest =>
        have hfirst : first ≠ [] :=
          ne_nil_of_mem_wordsFrom (hwords ▸ List.mem_cons_self : first ∈ wordsFrom [] t)
        have hjoin : join " " (first :: rest) ≠ [] := by
          cases rest <;> simp [join, hfirst]
        rw [if_neg hjoin, if_neg (by simp)]
        simp [join]

/-- With each run of white space made one blank, and none at the ends, a text is its words with blanks
between them. -/
theorem trim_collapse (t : Text) : trim (collapse t) = join " " (words t) := by
  rw [trim, collapse, trimLeft_collapseFrom, words, (join_wordsFrom t).1]

/-- Of a text with a visible character something is left. -/
theorem trim_ne_nil {c : Char} {t : Text} (hc : isBlank c = false) (hmem : c ∈ t) :
    trim t ≠ [] := by
  intro h
  have hblank : ∀ d ∈ trimLeft t, isBlank d = true := List.rdropWhile_eq_nil_iff.mp h
  have hnil : trimLeft t = [] := by
    cases hleft : trimLeft t with
    | nil => rfl
    | cons d rest =>
      have hhead := List.head?_dropWhile_not isBlank t
      rw [← trimLeft, hleft] at hhead
      have hd := hblank d (hleft ▸ List.mem_cons_self)
      simp [hd] at hhead
  have hall := List.dropWhile_eq_nil_iff.mp hnil c hmem
  rw [hc] at hall
  cases hall

end Text

private theorem Clock.dayNumber_ne_zero {c : Clock} (h : 2 ≤ c.year) : c.dayNumber ≠ 0 := by
  unfold dayNumber
  dsimp only
  omega

namespace Search

/-! ### Summaries -/

/-- The words of a text with single blanks between them, cut off at a thousand characters. -/
def summary (t : Text) : Text :=
  let t := Text.join " " (Text.words t)
  if t.length ≤ 1000 then t else t.take 997 ++ ['.', '.', '.']

private theorem length_summary_le (t : Text) : (summary t).length ≤ 1000 := by
  unfold summary
  dsimp only
  split
  · assumption
  · rw [List.length_append, List.length_take]
    have hdots : ['.', '.', '.'].length = 3 := rfl
    omega

private theorem shorten_eq (t : Text) : shorten (Text.trim (Text.collapse t)) = summary t := by
  rw [Text.trim_collapse]
  unfold shorten summary
  dsimp only
  by_cases h : (Text.join " " (Text.words t)).length ≤ 1000
  · rw [if_pos h, if_neg (by omega)]
  · rw [if_neg h, if_pos (by omega)]
    rfl

section Pages

variable [Soup]

/-! ### What a search page lists -/

/-- The direct answer of a search page is its first `answer`, with the address that stands in it. -/
def answer? (page : Soup.Element) : Option Direct :=
  match Soup.select page "#answers .answer" with
  | [] => none
  | e :: _ =>
    match Soup.first? e ".answer-url" with
    | some address => some ⟨Soup.text e [], Soup.text address []⟩
    | none => some ⟨Soup.text e [], []⟩

/-- The title and the address of the first link inside a heading of a result, if it has an address. -/
def headingLink? (result : Soup.Element) : Option Link := do
  let e ← Soup.first? result "h3 a"
  let url ← Soup.attribute? e "href"
  some ⟨Soup.text e [], url⟩

/-- The links of those of the first five results of a search page that have one. -/
def listed (page : Soup.Element) : List Link :=
  ((Soup.select page "article.result").take 5).filterMap headingLink?

private theorem direct?_eq (page : Soup.Element) : direct? page = answer? page := by
  unfold direct? answer?
  cases Soup.select page "#answers .answer" with
  | nil => rfl
  | cons e rest =>
    dsimp only [List.head?_cons, Option.map_some]
    cases Soup.first? e ".answer-url" <;> rfl

private theorem link?_eq (result : Soup.Element) : link? result = headingLink? result := by
  unfold link? headingLink?
  cases Soup.first? result "h3 a" with
  | none => rfl
  | some e =>
    change (Soup.attribute? e "href").map _ = (Soup.attribute? e "href").bind _
    cases Soup.attribute? e "href" <;> rfl

private theorem links_eq_listed (page : Soup.Element) : links page = listed page := by
  unfold links listed
  rw [funext link?_eq]
  rfl

private theorem length_listed_le (page : Soup.Element) : (listed page).length ≤ 5 :=
  (List.length_filterMap_le _ _).trans (List.length_take_le _ _)

/-! ### Contributions -/

/-- The text of a page without its clutter: that of its first content place, or else that of its
body, if one of them has a text. -/
def pageText? (page : Soup.Element) : Option Text :=
  let rest := Soup.without page
    "script, style, nav, footer, header, aside, .ads, .comments, .sidebar"
  let place? := ["main", "article", ".content", ".post-content", ".entry-content", "#content",
    ".main-content", ".article-body", ".post-body"].findSome? fun s : String ↦ Soup.first? rest s
  ((place?.toList ++ (Soup.body? rest).toList).map (Soup.text · " ")).find? (· ≠ [])

/-- What a link contributes when its address is answered in some way: nothing after an error or from
a page without a text. -/
def contribution (link : Link) : Response → Option Source
  | .failed => some ⟨link, "Content unavailable"⟩
  | .answer status text =>
    if 400 ≤ status ∧ status < 600 then none
    else match Soup.parse? text with
      | none => some ⟨link, "Content unavailable"⟩
      | some page => (pageText? page).map fun t ↦ ⟨link, summary t⟩

omit [Soup] in
private theorem find?_texts {α : Type} (place? body? : Option α) (text : α → Text) :
    ((place?.toList ++ body?.toList).map text).find? (· ≠ []) =
      let main := (place?.map text).getD []
      let t := if main.isEmpty then (body?.map text).getD [] else main
      if t.isEmpty then none else some t := by
  have hlast : (body?.toList.map text).find? (· ≠ []) =
      if ((body?.map text).getD []).isEmpty then none else some ((body?.map text).getD []) := by
    cases body? with
    | none => rfl
    | some e => cases h : text e <;> simp [h]
  cases place? with
  | none => exact hlast
  | some e =>
    cases h : text e with
    | nil => simpa [h] using hlast
    | cons c t => simp [h]

private theorem content?_eq (page : Soup.Element) :
    content? page = (pageText? page).map summary := by
  have htext : ∀ t : Text, (if t.isEmpty then none else some (shorten (Text.trim (Text.collapse t)))) =
      (if t.isEmpty then none else some t).map summary := by
    intro t
    rw [shorten_eq]
    split <;> rfl
  unfold content? pageText?
  dsimp only
  rw [htext, find?_texts]
  rfl

omit [Soup] in
private theorem isOk_iff (status : Int) :
    isOk status = true ↔ ¬ (400 ≤ status ∧ status < 600) := by
  rw [isOk, Bool.or_eq_true, decide_eq_true_eq, decide_eq_true_eq]
  omega

/-- What a link contributes depends on the answer for its address alone. -/
theorem source?_eq (web : Web) (link : Link) :
    source? web link = contribution link (web.page link.url) := by
  unfold source?
  cases web.page link.url with
  | failed => rfl
  | answer status text =>
    dsimp only [contribution]
    by_cases herror : 400 ≤ status ∧ status < 600
    · have hok : isOk status = false := Bool.not_eq_true _ ▸ fun hok ↦ (isOk_iff status).mp hok herror
      rw [if_pos herror, hok]
      rfl
    · rw [if_neg herror, if_pos ((isOk_iff status).mpr herror)]
      cases Soup.parse? text with
      | none => rfl
      | some page =>
        dsimp only
        rw [content?_eq, Option.map_map]
        rfl

/-- A contribution is one of its link, and has at most a thousand characters. -/
theorem of_contribution {link : Link} {r : Response} {s : Source}
    (h : contribution link r = some s) : s.link = link ∧ s.content.length ≤ 1000 := by
  cases r with
  | failed =>
    have hlength : "Content unavailable".toList.length = 19 := rfl
    obtain rfl := Option.some.inj h
    exact ⟨rfl, by rw [hlength]; omega⟩
  | answer status text =>
    have hlength : "Content unavailable".toList.length = 19 := rfl
    rw [contribution] at h
    split at h
    · cases h
    · split at h
      · obtain rfl := Option.some.inj h
        exact ⟨rfl, by rw [hlength]; omega⟩
      · obtain ⟨t, -, rfl⟩ := Option.map_eq_some_iff.mp h
        exact ⟨rfl, length_summary_le t⟩

/-- The contributions of links, in their order. -/
def sourcesOf (web : Web) (links : List Link) : List Source :=
  links.filterMap fun link ↦ contribution link (web.page link.url)

/-- What comes from other addresses does not depend on the answer for one address. -/
theorem sourcesOf_isolated {web web' : Web} {url : Text}
    (h : ∀ other, other ≠ url → web'.page other = web.page other) (links : List Link) :
    (sourcesOf web' links).filter (·.link.url ≠ url) =
      (sourcesOf web links).filter (·.link.url ≠ url) := by
  induction links with
  | nil => rfl
  | cons link links ih =>
    have hone : ∀ w : Web, (sourcesOf w (link :: links)).filter (·.link.url ≠ url) =
        ((contribution link (w.page link.url)).toList.filter (·.link.url ≠ url)) ++
          (sourcesOf w links).filter (·.link.url ≠ url) := by
      intro w
      rw [sourcesOf, List.filterMap_cons]
      cases contribution link (w.page link.url) with
      | none => rfl
      | some s => rw [← List.filter_append]; rfl
    rw [hone, hone, ih]
    congr 1
    by_cases hurl : link.url = url
    · have hdropped : ∀ r : Response,
          (contribution link r).toList.filter (·.link.url ≠ url) = [] := by
        intro r
        cases hs : contribution link r with
        | none => rfl
        | some s => simp [(of_contribution hs).1, hurl]
      rw [hdropped, hdropped]
    · rw [h _ hurl]

end Pages

/-! ### The result -/

/-- What a result says of a direct answer. -/
def directText (direct : Option Direct) : Text :=
  (direct.map fun d ↦
    ["DIRECT ANSWER: ".toList, d.text, "\nSource: ".toList, d.source, "\n\n".toList].flatten).getD []

/-- What a result says of a source under its number. -/
def entryText (s : Source) (number : Nat) : Text :=
  ["SOURCE ".toList, Text.ofNat number, ": ".toList, s.link.title, "\nURL: ".toList, s.link.url,
    "\nCONTENT SUMMARY: ".toList, s.content, "\n\n".toList].flatten

/-- What a result says of sources, which are numbered from one on. -/
def sourcesText (sources : List Source) : Text :=
  if sources = [] then []
  else "CONTENT FROM TOP SOURCES:\n\n".toList ++
    (sources.zipIdx 1).flatMap fun entry ↦ entryText entry.1 entry.2

private theorem sourceTexts_eq (number : Nat) (sources : List Source) :
    sourceTexts number sources =
      (sources.zipIdx number).flatMap fun entry ↦ entryText entry.1 entry.2 := by
  induction sources generalizing number with
  | nil => rfl
  | cons s rest ih =>
    have hentry : sourceText number s = entryText s number := rfl
    rw [sourceTexts, ih, List.zipIdx_cons, List.flatMap_cons, hentry]

private theorem report_eq (direct : Option Direct) (sources : List Source) :
    report direct sources = directText direct ++ sourcesText sources := by
  unfold report directText sourcesText
  simp only [List.isEmpty_iff, sourceTexts_eq]
  cases direct <;> rfl

private theorem report_eq_nil_iff (direct : Option Direct) (sources : List Source) :
    report direct sources = [] ↔ direct = none ∧ sources = [] := by
  rw [report_eq, List.append_eq_nil_iff]
  refine and_congr ?_ ?_
  · cases direct <;> simp [directText]
  · by_cases h : sources = [] <;> simp [sourcesText, h]

private theorem trim_report_ne_nil {direct : Option Direct} {sources : List Source}
    (h : report direct sources ≠ []) : Text.trim (report direct sources) ≠ [] := by
  cases direct with
  | some d =>
    exact Text.trim_ne_nil (c := 'D') (Text.isBlank_of_visible (by decide))
      (by simp [report_eq, directText])
  | none =>
    have hsources : sources ≠ [] := fun hnil ↦ h ((report_eq_nil_iff _ _).mpr ⟨rfl, hnil⟩)
    exact Text.trim_ne_nil (c := 'C') (Text.isBlank_of_visible (by decide))
      (by simp [report_eq, directText, sourcesText, hsources])

private theorem phrase_cons_ne_nil {t : Text} (h : t ≠ []) (rest : List Text) : phrase (t :: rest) ≠
    [] :=
  List.append_ne_nil_of_left_ne_nil h _

/-- A made-up answer is not empty. -/
theorem offline?_ne_nil {c : Clock} {query result : Text} (h : offline? c query = some result) :
    result ≠ [] := by
  unfold offline? at h
  dsimp only at h
  split at h
  · obtain rfl := Option.some.inj h
    split
    · rw [homeWeather]
      exact phrase_cons_ne_nil (by decide) _
    · rw [placeWeather]
      exact phrase_cons_ne_nil (by decide) _
  · split at h
    · obtain ⟨utc, -, h⟩ := Option.bind_eq_some_iff.mp h
      obtain ⟨east, -, h⟩ := Option.bind_eq_some_iff.mp h
      obtain rfl := Option.some.inj h
      exact phrase_cons_ne_nil (by decide) _
    · obtain rfl := Option.some.inj h
      rw [generalAnswer]
      exact phrase_cons_ne_nil (by decide) _

/-- From the second year on there is a made-up answer to every text, and it is not empty. -/
theorem exists_offline_ne_nil {c : Clock} (h : 2 ≤ c.year) (query : Text) :
    ∃ result, offline c (.text query) = .ok result ∧ result ≠ [] := by
  obtain ⟨result, hresult⟩ := exists_offline (Clock.dayNumber_ne_zero h) query
  refine ⟨result, hresult, ?_⟩
  unfold offline at hresult
  dsimp only at hresult
  split at hresult
  · next t ht =>
    obtain rfl := Except.ok.inj hresult
    exact offline?_ne_nil ht
  · cases hresult

section Searches

variable [Soup] {web : Web} {page : Soup.Element} {c : Clock}

/-- A search page has a link that counts or a direct answer. -/
def Lists (page : Soup.Element) : Prop := listed page ≠ [] ∨ answer? page ≠ none

/-- A result tells what the page of a search lists: its direct answer and the contributions of its
links. Where these say nothing, it is made up. -/
structure Tells (web : Web) (c : Clock) (query : Text) (page : Soup.Element) (result : Text) :
    Prop where
  found : ¬ (answer? page = none ∧ sourcesOf web (listed page) = []) →
    result = Text.trim (directText (answer? page) ++ sourcesText (sourcesOf web (listed page)))
  madeUp : answer? page = none → sourcesOf web (listed page) = [] →
    offline c (.text query) = .ok result

private theorem isEmpty_iff_not_lists :
    ((links page).isEmpty && (direct? page).isNone) = true ↔ ¬ Lists page := by
  rw [Bool.and_eq_true, List.isEmpty_iff, Option.isNone_iff_eq_none, links_eq_listed, direct?_eq,
    Lists, not_or, not_not, not_not]

/-- The links or the direct answer of a search page lead to requests for the links and to a
report. -/
theorem run_of_lists (hpage : web.search.text?.bind Soup.parse? = some page) (h : Lists page)
    (c : Clock) (query : Json) :
    run web c query =
      (if report (answer? page) (sourcesOf web (listed page)) = [] then offline c query
        else .ok (Text.trim (report (answer? page) (sourcesOf web (listed page)))),
      searchRequest web query :: (listed page).map pageRequest) := by
  have hsources : (listed page).filterMap (source? web) = sourcesOf web (listed page) := by
    rw [sourcesOf]
    exact congrArg (List.filterMap · _) (funext (source?_eq web))
  rw [run, hpage]
  dsimp only
  rw [if_neg (isEmpty_iff_not_lists.not.mpr (not_not.mpr h)), links_eq_listed, direct?_eq, hsources]
  simp only [List.isEmpty_iff]

private theorem exists_run_of_not_lists (hpage : web.search.text?.bind Soup.parse? = some page)
    (h : ¬ Lists page) (hyear : 2 ≤ c.year) (query : Text) : ∃ result, result ≠ [] ∧
      run web c (.text query) = (.ok result, [searchRequest web (.text query)]) := by
  obtain ⟨made, hmade, hne⟩ := exists_offline_ne_nil hyear query
  rw [run, hpage]
  dsimp only
  rw [if_pos (isEmpty_iff_not_lists.mpr h)]
  cases suggestions? page with
  | none => exact ⟨made, hne, by rw [hmade]⟩
  | some suggestions => exact ⟨_, phrase_cons_ne_nil (by decide) _, rfl⟩

/-- A search ends with a result that is not empty after six requests at most. Where the search page
lists something, the result tells that, and each link was requested once, in order. -/
theorem exists_run_tells (h : 2 ≤ c.year) (web : Web) (query : Text) :
    ∃ result requests, run web c (.text query) = (.ok result, requests) ∧ result ≠ [] ∧
      requests.length ≤ 6 ∧
      ∀ page, web.search.text?.bind Soup.parse? = some page → Lists page →
        Tells web c query page result ∧
          requests = searchRequest web (.text query) :: (listed page).map pageRequest := by
  obtain ⟨made, hmade, hne⟩ := exists_offline_ne_nil h query
  have hone : [searchRequest web (.text query)].length ≤ 6 := Nat.le_add_left 1 5
  cases hpage : web.search.text?.bind Soup.parse? with
  | none =>
    refine ⟨made, [searchRequest web (.text query)], ?_, hne, hone, fun page hpage ↦ ?_⟩
    · rw [run, hpage, hmade]
    · cases hpage
  | some page =>
    by_cases hlists : Lists page
    · have hrun := run_of_lists hpage hlists c (.text query)
      have hlength :
          (searchRequest web (.text query) :: (listed page).map pageRequest).length ≤ 6 := by
        have := length_listed_le page
        rw [List.length_cons, List.length_map]
        omega
      by_cases hreport : report (answer? page) (sourcesOf web (listed page)) = []
      · have hnothing := (report_eq_nil_iff _ _).mp hreport
        rw [if_pos hreport, hmade] at hrun
        refine ⟨made, _, hrun, hne, hlength, fun page' hpage' _ ↦ ?_⟩
        obtain rfl := Option.some.inj hpage'
        exact ⟨⟨fun hno ↦ absurd hnothing hno, fun _ _ ↦ hmade⟩, rfl⟩
      · rw [if_neg hreport] at hrun
        refine ⟨_, _, hrun, trim_report_ne_nil hreport, hlength, fun page' hpage' _ ↦ ?_⟩
        obtain rfl := Option.some.inj hpage'
        refine ⟨⟨fun _ ↦ by rw [report_eq], fun hdirect hsources ↦ ?_⟩, rfl⟩
        exact absurd ((report_eq_nil_iff _ _).mpr ⟨hdirect, hsources⟩) hreport
    · obtain ⟨result, hresult, hrun⟩ := exists_run_of_not_lists hpage hlists h query
      refine ⟨result, _, hrun, hresult, hone, fun page' hpage' hlists' ↦ ?_⟩
      obtain rfl := Option.some.inj hpage'
      exact absurd hlists' hlists

private theorem bind_parse?_of_answer {status : Int} {text : Text}
    (hsearch : web.search = .answer status text) (hstatus : ¬ (400 ≤ status ∧ status < 600))
    (hpage : Soup.parse? text = some page) :
    web.search.text?.bind Soup.parse? = some page := by
  have hok : web.search.text? = some text := by
    rw [hsearch, Response.text?, if_pos ((isOk_iff status).mpr hstatus)]
  rw [hok]
  exact hpage

end Searches

end Search

namespace Assistant

open Search Service

/-- From the second year on a search for a text never fails, whatever library reads the pages: it has
a result that is not empty, makes six requests at most and changes nothing else at the desk. Where the
search page lists something, the result tells its direct answer and the contributions of those of the
first five results that have a link, in order and numbered from one on; each is a contribution of the
link and the answer for its address alone and has at most a thousand characters, so that another answer
for one address leaves all others as they are. -/
theorem search_contains_failures [Soup] {d : Desk} (h : 2 ≤ d.clock.year) (query : Text) :
    ∃ result requests,
      search (.text query) d = .ok result { d with requested := d.requested ++ requests } ∧
      result ≠ [] ∧ requests.length ≤ 6 ∧
      ∀ status text page, d.web.search = .answer status text → ¬ (400 ≤ status ∧ status < 600) →
        Soup.parse? text = some page → Lists page →
        requests = searchRequest d.web (.text query) :: (listed page).map pageRequest ∧
        Tells d.web d.clock query page result ∧
        (∀ s ∈ sourcesOf d.web (listed page), s.content.length ≤ 1000) ∧
        ∀ web' url, (∀ other, other ≠ url → web'.page other = d.web.page other) →
          (sourcesOf web' (listed page)).filter (·.link.url ≠ url) =
            (sourcesOf d.web (listed page)).filter (·.link.url ≠ url) := by
  obtain ⟨result, requests, hrun, hne, hlength, htells⟩ := exists_run_tells h d.web query
  refine ⟨result, requests, ?_, hne, hlength, ?_⟩
  · rw [search, bind_of_ok (run_get d), hrun]
    rfl
  · intro status text page hsearch hstatus hpage hlists
    obtain ⟨htell, hrequests⟩ := htells page (bind_parse?_of_answer hsearch hstatus hpage) hlists
    refine ⟨hrequests, htell, fun s hs ↦ ?_, fun web' url hother ↦ ?_⟩
    · obtain ⟨link, -, hlink⟩ := List.mem_filterMap.mp hs
      exact (of_contribution hlink).2
    · exact sourcesOf_isolated hother (listed page)

/-- A search page that lists two pages. -/
def resultsPage : Text :=
  "<article class=result><h3><a href=u>One</a></h3></article>".toList ++
    "<article class=result><h3><a href=v>Two</a></h3></article>".toList

/-- A desk with such a search page. The first page that it lists cannot be had. -/
def Desk.withResults : Desk := { Desk.ready with
  web := {
    searchUrl := none
    search := .answer 200 resultsPage
    pages := [("v".toList, .answer 200 "<main>so  it\n is</main>".toList)] } }

/-- The page that cannot be had is told to be unavailable, and the other one is told. -/
theorem search_contains_failures_two : ∃ result requests,
    search (.text "lean") Desk.withResults = .ok result
      { Desk.withResults with requested := Desk.withResults.requested ++ requests } ∧
    result ≠ [] ∧ requests.length ≤ 6 ∧
    result = "CONTENT FROM TOP SOURCES:\n\nSOURCE 1: One\nURL: u\n".toList ++
      "CONTENT SUMMARY: Content unavailable\n\nSOURCE 2: Two\nURL: v\n".toList ++
      "CONTENT SUMMARY: so it is".toList := by
  let page : Soup.Element := (⟨[], [], Html.parse resultsPage, []⟩ : Html.Found)
  have hsources : (sourcesOf Desk.withResults.web (listed page)).isEmpty = false := by
    decide +kernel
  have hne : sourcesOf Desk.withResults.web (listed page) ≠ [] := fun hnil ↦ by
    rw [hnil] at hsources
    cases hsources
  have hlists : Lists page := .inl fun hnil ↦ hne (by rw [hnil]; rfl)
  obtain ⟨result, requests, hsearch, hresult, hlength, htells⟩ :=
    search_contains_failures (d := Desk.withResults) (by decide) "lean"
  obtain ⟨-, htell, -, -⟩ := htells 200 resultsPage page rfl (by decide) rfl hlists
  exact ⟨result, requests, hsearch, hresult, hlength,
    (htell.found fun hno ↦ hne hno.2).trans (by decide +kernel)⟩

end Assistant

end Deskhand
