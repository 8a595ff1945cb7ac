import Deskhand.Bench.Coverage
import Deskhand.Bench.Path
import Deskhand.Text.Pad

/-!
# The table of a coverage report

A line for each file, the least covered first, and a line for all of them.
-/

namespace Deskhand.Bench

/-- The coverage of a file. -/
structure FileCoverage where
  name : Text
  statements : Int
  percent : Binary64
  missing : List Json

/-- The whole number a value stands for. -/
def wholeOf : Json → Int
  | .int n => n
  | .bool b => if b then 1 else 0
  | _ => 0

/-- The number in a field of an object; zero if there is none. -/
def countAt (key : Text) (v : Json) : Int := ((v.field? key).map wholeOf).getD 0

/-- The percentage in a field of an object; zero if there is none. -/
def percentAt (key : Text) (v : Json) : Binary64 := ((v.field? key).map numberOf).getD (.zero false)

namespace FileCoverage

/-- The coverage of a file in a report. -/
def ofEntry (file : Text) (v : Json) : FileCoverage :=
  let summary : Json := .object (fieldsAt "summary" v)
  { name := Path.fromHome file
    statements := countAt "num_statements" summary
    percent := percentAt "percent_covered" summary
    missing := match v.field? "missing_lines" with
      | some (.list items) => items
      | _ => [] }

/-- Whether a file comes no later than another: the less covered first, then the larger. -/
def comesFirst (a b : FileCoverage) : Bool :=
  match a.percent.order? b.percent with
  | some .lt => true
  | some .gt => false
  | _ => a.statements ≥ b.statements

/-- The lines that are missing, the first dozen of them. -/
def missingText (f : FileCoverage) : Text :=
  Text.join "," ((f.missing.take 12).map Json.display)
    ++ if f.missing.length > 12 then ['…'] else []

end FileCoverage

/-- The columns all lines have, for names of some width. -/
def columns (width : Nat) (name : Text) (statements missing : Int) (percent : Binary64) : Text :=
  [Text.padEnd width name, "  ".toList, Text.padStart 5 (Text.ofInt statements), "  ".toList,
    Text.padStart 4 (Text.ofInt missing), "  ".toList, Text.padStart 4 (percent.fixedText 0),
    ['%']].flatten

/-- The table of a report. -/
def coverageTable (report : Json) : List Text :=
  let files := ((fieldsAt "files" report).map fun (file, v) ↦ FileCoverage.ofEntry file v).mergeSort
    FileCoverage.comesFirst
  let totals : Json := .object (fieldsAt "totals" report)
  let width := files.foldl (fun w f ↦ max w f.name.length) 4
  let dashes := List.replicate (width + 42) '-'
  let statements := countAt "num_statements" totals
  (Text.padEnd width "Name" ++ "  Stmts  Miss  Cover  Missing".toList) :: dashes
    :: files.map (fun f ↦ columns width f.name f.statements f.missing.length f.percent
      ++ "  ".toList ++ f.missingText)
    ++ [dashes, columns width "TOTAL" statements (statements - countAt "covered_lines" totals)
      (percentAt "percent_covered" totals)]

/-- The part of the report with the benchmarks that failed, the first eight of them. -/
def errorLines (errors : List (Text × Json)) : List Text :=
  if errors.isEmpty then []
  else
    ('\n' :: Text.ofNat errors.length ++ " bench error(s):".toList)
      :: (errors.take 8).map fun (name, v) ↦ "  ".toList ++ name ++ ": ".toList ++ v.display

end Deskhand.Bench
