import PackageStaging.Text.Blank

namespace PackageStaging.Text

def dropReturn (line : List Char) : List Char :=
  if line.getLast? = some '\r' then line.dropLast else line

/-- The pieces between line feeds: all but the last one were ended by a line feed, and the last one
is a line only when it holds something. -/
def linesOfPieces : List (List Char) → List (List Char)
  | [] => []
  | [last] => if last.isEmpty then [] else [last]
  | piece :: pieces => dropReturn piece :: linesOfPieces pieces

def lines (s : String) : List String :=
  (linesOfPieces (s.toList.splitOnP (· == '\n'))).map String.ofList

def items (s : String) : List String := (lines s).filterMap nonBlank?

def ofItems (xs : List String) : String :=
  String.join ((xs.filterMap nonBlank?).map (· ++ "\n"))

end PackageStaging.Text
