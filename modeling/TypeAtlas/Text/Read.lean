import TypeAtlas.Text.Blank
import TypeAtlas.Text.Word

namespace TypeAtlas.Text

-- The rest of a text that begins with the given word.
def after? : List Char → List Char → Option (List Char)
  | [], text => some text
  | _ :: _, [] => none
  | w :: word, c :: text => if w = c then after? word text else none

theorem after?_eq_some_iff {word text rest : List Char} :
    after? word text = some rest ↔ text = word ++ rest := by
  induction word generalizing text with
  | nil => simp [after?, eq_comm]
  | cons w word ih =>
    cases text with
    | nil => simp [after?]
    | cons c text =>
      simp only [after?, List.cons_append, List.cons.injEq]
      split
      · rename_i h
        simp [h, ih]
      · rename_i h
        simp [eq_comm, h]

-- The first of some words that a text begins with, and the rest.
def word? (words : List String) (text : List Char) : Option (String × List Char) :=
  words.findSome? fun word => (after? word.toList text).map fun rest => (word, rest)

theorem word?_length {words : List String} {text rest : List Char} {word : String}
    (h : word? words text = some (word, rest)) : rest.length ≤ text.length := by
  obtain ⟨w, _, hw⟩ := List.exists_of_findSome?_eq_some h
  obtain ⟨r, hr, he⟩ := Option.map_eq_some_iff.mp hw
  cases he
  simp [after?_eq_some_iff.mp hr]

-- A name: a letter or underscore, then the longest run of characters that may follow.
def name? (follows : Char → Bool) : List Char → Option (List Char × List Char)
  | [] => none
  | c :: rest =>
    if isNameStart c then some (c :: rest.takeWhile follows, rest.dropWhile follows) else none

-- Digits or other characters of one class, at least one of them.
def run? (among : Char → Bool) : List Char → Option (List Char × List Char)
  | [] => none
  | c :: rest =>
    if among c then some (c :: rest.takeWhile among, rest.dropWhile among) else none

theorem length_dropWhile_le (p : Char → Bool) (text : List Char) :
    (text.dropWhile p).length ≤ text.length :=
  (List.dropWhile_suffix p).length_le

theorem blanks?_length {text rest : List Char} (h : blanks? text = some rest) :
    rest.length < text.length := by
  cases text with
  | nil => simp [blanks?] at h
  | cons c tail =>
    simp only [blanks?] at h
    split at h
    · cases h
      exact Nat.lt_succ_of_le (length_dropWhile_le isBlank tail)
    · cases h

theorem indents?_length {text rest : List Char} (h : indents? text = some rest) :
    rest.length < text.length := by
  cases text with
  | nil => simp [indents?] at h
  | cons c tail =>
    simp only [indents?] at h
    split at h
    · cases h
      exact Nat.lt_succ_of_le (length_dropWhile_le isIndent tail)
    · cases h

-- What follows a bracketed attribute that is closed on its line.
def attribute? : List Char → Option (List Char)
  | '[' :: rest =>
    match rest.dropWhile fun c => c != ']' && c != '\n' with
    | ']' :: rest => some rest
    | _ => none
  | _ => none

theorem attribute?_length {text rest : List Char} (h : attribute? text = some rest) :
    rest.length < text.length := by
  unfold attribute? at h
  split at h
  · rename_i tail
    split at h
    · rename_i inner heq
      cases h
      have hle := length_dropWhile_le (fun c => c != ']' && c != '\n') tail
      rw [heq] at hle
      simp only [List.length_cons] at hle ⊢
      omega
    · cases h
  · cases h

-- What follows the attributes a text begins with and the blanks after each.
def afterAttributes (blank : Char → Bool) (text : List Char) : List Char :=
  match _h : attribute? text with
  | some rest => afterAttributes blank (rest.dropWhile blank)
  | none => text
termination_by text.length
decreasing_by
  exact Nat.lt_of_le_of_lt (length_dropWhile_le blank rest) (attribute?_length _h)

end TypeAtlas.Text
