import Deskhand.Memory.Exchange

/-!
# Preferences

What the remembered exchanges tell about a user: the delays asked for, the corrections made and the
applications used. Delays and applications are listed once, in the order of their first mention.
-/

namespace Deskhand

/-- What is known about a user's preferences. -/
structure Preferences where
  delays : List Text := []
  corrections : List Text := []
  applications : List Text := []
  deriving DecidableEq

namespace Preferences

/-- A list with an item added, unless there is none or it is listed. -/
def addNew (items : List Text) : Option Text → List Text
  | some t => if t.isEmpty || items.contains t then items else items ++ [t]
  | none => items

/-- How much of a correction is listed. -/
def correctionLength : Nat := 50

/-- The delay command of a preferred delay. -/
def delayCommand (delay : Text) : Text := "DELAY ".toList ++ delay

/-- The preferences with those of one more exchange. -/
def learn (p : Preferences) (e : Exchange) : Preferences where
  delays := addNew (addNew p.delays e.corrections.delay)
    ((e.requirements.delay.filter (!·.isEmpty)).map delayCommand)
  corrections :=
    if e.intent = .correction then p.corrections ++ [e.said.take correctionLength]
    else p.corrections
  applications := addNew p.applications e.requirements.application

/-- The preferences that exchanges show (`extract_user_preferences`). -/
def ofExchanges (exchanges : List Exchange) : Preferences := exchanges.foldl learn {}

/-- Preferences as an object. -/
def toJson (p : Preferences) : Json :=
  let texts (ts : List Text) : Json := .list (ts.map .text)
  .object [("preferred_delays", texts p.delays), ("corrections_made", texts p.corrections),
    ("specific_apps", texts p.applications), ("common_phrases", .list [])]

/-- A list of texts within a sentence. -/
def shownList (ts : List Text) : Text := (Json.list (ts.map .text)).shown

/-- Preferences in words, if there are any. -/
def summary? (p : Preferences) : Option Text :=
  let part (label : String) (ts : List Text) : List Text :=
    if ts.isEmpty then [] else [label.toList ++ shownList ts]
  let parts := part "Prefers delays: " p.delays ++ part "Past corrections: " p.corrections
    ++ part "Uses apps: " p.applications
  if parts.isEmpty then none else some ("USER PREFERENCES: ".toList ++ Text.join " | " parts)

end Preferences

end Deskhand
