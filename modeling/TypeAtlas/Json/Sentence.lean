import TypeAtlas.Json.Record

namespace TypeAtlas.Json

-- A line, counted from one, and a column, counted from zero in bytes.
structure Location where
  line : Nat
  column : Nat

-- The place behind a text.
def Location.behind (text : List Char) : Location :=
  ⟨text.count '\n' + 1, Text.byteSize (text.reverse.takeWhile (· != '\n'))⟩

-- A text that ends early does so at its end, and what an object lacks is noticed right behind it.
def Problem.location (text : List Char) : Problem → Location
  | .text .ended => .behind text
  | _ => .behind (text.reverse.dropWhile isSpace).reverse

def Problem.subject : Problem → String
  | .text .ended => "EOF while parsing a value"
  | .text .malformed => "expected value"
  | problem => problem.message?.getD ""

def Problem.sentence (problem : Problem) (text : List Char) : String :=
  let place := problem.location text
  problem.subject ++ " at line " ++ toString place.line ++ " column " ++ toString place.column

end TypeAtlas.Json
