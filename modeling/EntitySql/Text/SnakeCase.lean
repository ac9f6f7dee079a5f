import EntitySql.Text.Cluster
import EntitySql.Text.Numeral
/-!
# Snake case

Turns keys such as `measureUnitId` or `HTTPServer` into `measure_unit_id` and `http_server`. A key is
cut into words at delimiters, where letters change from lower to upper case, between letters and
digits, and before the last capital of a run that a small letter follows. The words are written in
lower case with underscores between them.
-/

namespace EntitySql.Text

namespace SnakeCase

/-- What a cluster looks like to the word rules. -/
inductive Shape
  | delimiter
  | lowerCase
  | upperCase
  | digit
  | other
deriving DecidableEq, Repr

/-- The shape of a cluster. A cluster with two different case forms that equals one of them has that
case. -/
def shape (cluster : List Char) : Shape :=
  if cluster == ['_'] || cluster == ['-'] || cluster == [' '] then .delimiter
  else if cluster.all isDigit then .digit
  else
    let loweredAlready := lower cluster == cluster
    let raisedAlready := !cluster.any isRaisable
    if raisedAlready && !loweredAlready then .upperCase
    else if loweredAlready && !raisedAlready then .lowerCase
    else .other

/-- Whether a word ends after a cluster of shape `here`, given the shapes that follow. -/
def endsWord (here : Shape) (following : List Shape) : Bool :=
  match here, following with
  | .lowerCase, .upperCase :: _ | .lowerCase, .digit :: _ | .upperCase, .digit :: _
  | .digit, .lowerCase :: _ | .digit, .upperCase :: _ => true
  | .upperCase, .upperCase :: .lowerCase :: _ => true
  | _, _ => false

/-- The words of a sequence of clusters that continues the word `current`. Delimiters are dropped, and
the words on both sides of one are kept even if empty. -/
def words (current : List Char) : List (List Char) → List (List Char)
  | [] => [current]
  | c :: rest =>
    if shape c = .delimiter then current :: words [] rest
    else if endsWord (shape c) ((rest.take 2).map shape) then (current ++ c) :: words [] rest
    else words (current ++ c) rest

end SnakeCase

/-- The key in snake case. -/
def snakeCase (key : String) : String :=
  match clusters key.toList with
  | [] => ""
  | cs => "_".intercalate ((SnakeCase.words [] cs).map fun word => String.ofList (lower word))

end EntitySql.Text
