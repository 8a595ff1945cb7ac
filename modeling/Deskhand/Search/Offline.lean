import Deskhand.Failure
import Deskhand.Search.Clock
import Deskhand.Text.Blank
import Deskhand.Text.Case

/-!
# Answers without a search

When nothing can be found, an answer is made up: about the weather, about the time, or about
anything.
-/

namespace Deskhand.Search

/-- A part of a day and how warm it is, in degrees above or below thirty. -/
def warmth (hour : Nat) : Int :=
  if 5 ≤ hour && hour < 12 then -2
  else if 12 ≤ hour && hour < 17 then 3
  else if 17 ≤ hour && hour < 20 then 0
  else -5

/-- Whole degrees Fahrenheit. -/
def fahrenheit (celsius : Int) : Int := (celsius * 9 + 160) / 5

/-- Words that are no part of a place's name. -/
def fillWords : List String := ["the", "current", "today", "now"]

/-- The place that a query in lower case asks about. -/
def place (query : Text) : Text :=
  match Text.splitOn query "in " with
  | _ :: part :: _ =>
    let names := ((Text.words part).take 2).filter fun w ↦
      !(fillWords.any fun (f : String) ↦ f.toList == w)
    Text.join " " (names.map Text.capitalize)
  | _ => "Amritsar"

/-- Lines of words and numbers, one after the other. -/
def phrase (parts : List Text) : Text := parts.flatten

/-- A temperature. -/
def degrees (n : Int) : Text := Text.ofInt n ++ "°C".toList

/-- The weather at home. -/
def homeWeather (t : Int) : Text :=
  phrase ["Current Weather in Amritsar, Punjab (Mock Data):\n\nTemperature: ", degrees t, " (",
    Text.ofInt (fahrenheit t), "°F)\nCondition: Partly Cloudy\nHumidity: 65%\nWind: 12 km/h\n\n",
    "Forecast:\n- Today: High of ", degrees (t + 2), ", Low of ", degrees (t - 6),
    ", Partly Cloudy\n- Tomorrow: High of ", degrees (t + 1), ", Low of ", degrees (t - 7),
    ", Mostly Sunny\n\nSource: AccuWeather (Mock Data)\n",
    "https://www.accuweather.com/en/in/amritsar/189473/weather-forecast/189473"]

/-- The weather at some place. -/
def placeWeather (place : Text) (t : Int) : Text :=
  phrase ["Current Weather in ", place, " (Mock Data):\n\nTemperature: ", degrees (t - 2), " (",
    Text.ofInt (fahrenheit (t - 2)),
    "°F)\nCondition: Mostly Sunny\nHumidity: 60%\nWind: 10 km/h\n\n",
    "Forecast:\n- Today: High of ", degrees t, ", Low of ", degrees (t - 8),
    ", Clear Skies\n- Tomorrow: High of ", degrees (t + 1), ", Low of ", degrees (t - 7),
    ", Partly Cloudy\n\nSource: AccuWeather (Mock Data)\nhttps://www.accuweather.com/en/in/",
    Text.replaceAll (Text.lower place) " " "-", "/weather-forecast/"]

/-- The time here and elsewhere, unless it lies before the first year. -/
def timeAnswer? (c : Clock) : Option Text := do
  let utc ← c.timeBefore? 330
  let east ← c.timeBefore? 570
  pure (phrase ["Current Time (Mock Data):\n\nLocal Time: ", c.time, "\nDate: ", c.date,
    "\n\nTime Zones:\n- IST (India): ", c.time, "\n- UTC/GMT: ", utc, "\n- EST (US East): ", east,
    "\n\nSource: TimeAndDate.com (Mock Data)\nhttps://www.timeanddate.com/worldclock/"])

/-- Something about anything. -/
def generalAnswer (query : Text) : Text :=
  let title := Text.title query
  let path := Text.replaceAll (Text.lower query) " " "-"
  phrase ["Search Results for '", query, "' (Mock Data):\n\n1. ", title,
    " - An Overview\nComprehensive information about ", query,
    " including history, applications, and recent developments.\nhttps://en.wikipedia.org/wiki/",
    path, "\n\n2. Understanding ", title, "\nA beginner's guide to ", query,
    " with practical examples and explanations.\nhttps://www.britannica.com/topic/", path,
    "\n\n3. The Complete Guide to ", title, "\nEverything you need to know about ", query,
    " in one place.\nhttps://www.howtogeek.com/guide/", path]

/-- The made-up answer to a query, unless a time in it lies before the first year
(`get_mock_search_results`). -/
def offline? (c : Clock) (query : Text) : Option Text :=
  let lower := Text.lower query
  if Text.has lower "weather" || Text.has lower "temperature" then
    let place := place lower
    let t := 30 + warmth c.hour
    some (if Text.lower place == "amritsar".toList then homeWeather t else placeWeather place t)
  else if Text.has lower "time" then timeAnswer? c
  else some (generalAnswer query)

end Deskhand.Search
