namespace TypeAtlas.Text

-- Drops the carriage return of a line ending from a line held in reverse.
def dropReturn : List Char → List Char
  | '\r' :: line => line
  | line => line

-- The lines of a text, given the characters, in reverse, that its first line already has.
def linesAfter (line : List Char) : List Char → List (List Char)
  | [] => if line.isEmpty then [] else [line.reverse]
  | c :: rest =>
    if c = '\n' then (dropReturn line).reverse :: linesAfter [] rest
    else linesAfter (c :: line) rest

-- A line ends at a line feed, and one carriage return right before the line feed belongs to the
-- ending. A last line without an ending counts unless it is empty.
def lines (text : List Char) : List (List Char) :=
  linesAfter [] text

-- What follows the line a text begins with, if that line has an ending.
def afterLine? : List Char → Option (List Char)
  | [] => none
  | c :: rest => if c = '\n' then some rest else afterLine? rest

theorem afterLine?_length {text rest : List Char} (h : afterLine? text = some rest) :
    rest.length < text.length := by
  induction text with
  | nil => simp [afterLine?] at h
  | cons c tail ih =>
    simp only [afterLine?] at h
    split at h
    · cases h
      simp
    · have := ih h
      simp only [List.length_cons]
      omega

end TypeAtlas.Text
