import TypeAtlas.Json.Node

namespace TypeAtlas.Json

def Blank (text : List Char) : Prop :=
  ∀ c ∈ text, isSpace c = true

def IsDigits (text : List Char) : Prop :=
  text ≠ [] ∧ ∀ c ∈ text, c.isDigit = true

inductive SpellsFraction : List Char → List Char → Prop
  | absent : SpellsFraction [] []
  | present {ds : List Char} : IsDigits ds → SpellsFraction ('.' :: ds) ds

inductive SpellsExponent : List Char → Option Exponent → Prop
  | absent : SpellsExponent [] none
  | unsigned {e : Char} {ds : List Char} :
      e = 'e' ∨ e = 'E' → IsDigits ds → SpellsExponent (e :: ds) (some ⟨false, ds⟩)
  | plus {e : Char} {ds : List Char} :
      e = 'e' ∨ e = 'E' → IsDigits ds → SpellsExponent (e :: '+' :: ds) (some ⟨false, ds⟩)
  | minus {e : Char} {ds : List Char} :
      e = 'e' ∨ e = 'E' → IsDigits ds → SpellsExponent (e :: '-' :: ds) (some ⟨true, ds⟩)

-- No zero stands in front of other digits.
def SpellsNumeral (text : List Char) (n : Numeral) : Prop :=
  ∃ fraction exponent, text = (if n.negative then ['-'] else []) ++ n.whole ++ fraction ++ exponent ∧
    IsDigits n.whole ∧ (n.whole = ['0'] ∨ n.whole.head? ≠ some '0') ∧
    SpellsFraction fraction n.fraction ∧ SpellsExponent exponent n.exponent

-- The inside of a string. A character stands for itself or is escaped, by a letter or by its code in
-- four digits, or in twice four digits where four are too few.
inductive SpellsChars : List Char → List Char → Prop
  | done : SpellsChars [] []
  | plain {c : Char} {text cs : List Char} :
      c ≠ '\x22' → c ≠ '\\' → ¬c < ' ' → SpellsChars text cs → SpellsChars (c :: text) (c :: cs)
  | letter {e c : Char} {text cs : List Char} :
      escape? e = some c → SpellsChars text cs → SpellsChars ('\\' :: e :: text) (c :: cs)
  | code {digits text cs : List Char} {n : Nat} :
      digits.length = 4 → Text.hexNumber? digits = some n → n < 0xD800 ∨ 0xDFFF < n →
      SpellsChars text cs →
      SpellsChars ('\\' :: 'u' :: (digits ++ text)) (Char.ofNat n :: cs)
  | codes {front back text cs : List Char} {high low : Nat} :
      front.length = 4 → Text.hexNumber? front = some high → 0xD800 ≤ high → high ≤ 0xDBFF →
      back.length = 4 → Text.hexNumber? back = some low → 0xDC00 ≤ low → low ≤ 0xDFFF →
      SpellsChars text cs →
      SpellsChars ('\\' :: 'u' :: (front ++ '\\' :: 'u' :: (back ++ text)))
        (Char.ofNat (0x10000 + (high - 0xD800) * 0x400 + (low - 0xDC00)) :: cs)

def SpellsString (text : List Char) (s : String) : Prop :=
  ∃ inside, text = '\x22' :: (inside ++ ['\x22']) ∧ SpellsChars inside s.toList

def SpellsKey (text : List Char) (name : String) : Prop :=
  ∃ before key after, text = before ++ key ++ after ++ [':'] ∧
    Blank before ∧ SpellsString key name ∧ Blank after

mutual

-- The texts that are JSON, from their first to their last sign, with the trees they stand for.
inductive Spells : List Char → Node → Prop
  | null : Spells ['n', 'u', 'l', 'l'] .null
  | yes : Spells ['t', 'r', 'u', 'e'] (.bool true)
  | no : Spells ['f', 'a', 'l', 's', 'e'] (.bool false)
  | num {text : List Char} {n : Numeral} : SpellsNumeral text n → Spells text (.num n)
  | str {text : List Char} {s : String} : SpellsString text s → Spells text (.str (some s))
  | emptyArr {blank : List Char} : Blank blank → Spells ('[' :: (blank ++ [']'])) (.arr [] .closed)
  | arr {text : List Char} {items : List Node} :
      SpellsItems text items → Spells ('[' :: (text ++ [']'])) (.arr items .closed)
  | emptyObj {blank : List Char} : Blank blank → Spells ('{' :: (blank ++ ['}'])) (.obj [] .closed)
  | obj {text : List Char} {members : List (Option String × Node)} :
      SpellsMembers text members → Spells ('{' :: (text ++ ['}'])) (.obj members .closed)

inductive SpellsItems : List Char → List Node → Prop
  | last {before text after : List Char} {node : Node} :
      Blank before → Spells text node → Blank after → SpellsItems (before ++ text ++ after) [node]
  | next {before text after rest : List Char} {node : Node} {nodes : List Node} :
      Blank before → Spells text node → Blank after → SpellsItems rest nodes →
      SpellsItems (before ++ text ++ after ++ ',' :: rest) (node :: nodes)

inductive SpellsMembers : List Char → List (Option String × Node) → Prop
  | last {key before text after : List Char} {name : String} {node : Node} :
      SpellsKey key name → Blank before → Spells text node → Blank after →
      SpellsMembers (key ++ before ++ text ++ after) [(some name, node)]
  | next {key before text after rest : List Char} {name : String} {node : Node}
      {members : List (Option String × Node)} :
      SpellsKey key name → Blank before → Spells text node → Blank after →
      SpellsMembers rest members →
      SpellsMembers (key ++ before ++ text ++ after ++ ',' :: rest) ((some name, node) :: members)

end

end TypeAtlas.Json
