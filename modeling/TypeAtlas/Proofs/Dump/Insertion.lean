import TypeAtlas.Proofs.Dump.EnumBody
import TypeAtlas.Proofs.Dump.FieldLine
import TypeAtlas.Proofs.Dump.Header
import TypeAtlas.Proofs.Dump.Nesting
import TypeAtlas.Proofs.Dump.Origin

namespace TypeAtlas.Dump

open Text

-- What the search for the block of a header comes to where the header's line and some lines below it
-- end.
inductive Opening (text : List Char) : Prop
  | finds (header : Header) (inner : List Char) (ends : inner <:+ text)
      (found : ∀ more, opened? (text ++ '\n' :: more) = some (header, inner ++ '\n' :: more))
  | fails (none : ∀ more, opened? (text ++ '\n' :: more) = none)
  | goesOn (header : Header) (behind : ∀ more,
      opened? (text ++ '\n' :: more) = (opening? true false more).map fun inner => (header, inner))

theorem opening (text : List Char) : Opening text := by
  cases hread : Header.read? text with
  | none =>
      refine .fails fun more => ?_
      rw [opened?, Header.read?_break, hread]
      rfl
  | some found =>
      obtain ⟨header, rest⟩ := found
      have hopened (more : List Char) : opened? (text ++ '\n' :: more) =
          if header.isGeneric then none
          else (opening? false false (rest ++ '\n' :: more)).map fun inner => (header, inner) := by
        rw [opened?, Header.read?_break, hread]
        rfl
      by_cases hgeneric : header.isGeneric
      · exact .fails fun more => (hopened more).trans (if_pos hgeneric)
      · cases lineSearch false false rest with
        | finds inner ends _ found =>
            refine .finds header inner (ends.trans (Header.read?_suffix hread)) fun more => ?_
            rw [hopened, if_neg hgeneric, found, Option.map_some]
        | fails _ none =>
            refine .fails fun more => ?_
            rw [hopened, if_neg hgeneric, none, Option.map_none]
        | goesOn _ behind =>
            refine .goesOn header fun more => ?_
            rw [hopened, if_neg hgeneric, behind]

-- A brace right below the text would open the block of a header in it.
def AwaitsBrace (text : List Char) : Prop :=
  ∃ line ∈ lineStarts text, ∃ found ∈ opened? (line ++ ['\n', '{']), found.2 = []

instance (text : List Char) : Decidable (AwaitsBrace text) :=
  inferInstanceAs (Decidable (∃ line ∈ lineStarts text, _))

-- The modes and depths of the blocks that are open below a text.
def openBlocks (text : List Char) : List (Mode × Nat) :=
  (lineStarts text).filterMap fun line =>
    (opened? (line ++ ['\n'])).bind fun found => within? .code 0 found.2

-- What follows the opening brace, and what the closing brace, of each enum that the index lists.
def enumSpans (text : List Char) : List (List Char × List Char) :=
  (lineStarts text).filterMap fun line =>
    (opened? line).bind fun found =>
      if found.1.kind = .enumType ∧ Index.origin? text .enumType found.1.name = some line then
        (enclosed? found.2).map fun block => (found.2, block.2)
      else none

-- Whether the end `back` of a text begins within an enum, its closing brace not reached yet.
def InEnum (text back : List Char) : Prop :=
  ∃ span ∈ enumSpans text, span.2.length + 1 < back.length ∧ back.length ≤ span.1.length

-- Whether the end `back` of a text begins with the brace that closes an enum.
def EndsEnum (text back : List Char) : Prop :=
  ∃ span ∈ enumSpans text, span.2.length + 1 = back.length

instance (text back : List Char) : Decidable (InEnum text back) :=
  inferInstanceAs (Decidable (∃ span ∈ enumSpans text, _))

instance (text back : List Char) : Decidable (EndsEnum text back) :=
  inferInstanceAs (Decidable (∃ span ∈ enumSpans text, _))

theorem mem_enumSpans {text line inner body after : List Char} {header : Header}
    (hline : line ∈ lineStarts text) (hopened : opened? line = some (header, inner))
    (hkind : header.kind = .enumType)
    (horigin : Index.origin? text .enumType header.name = some line)
    (hclosed : enclosed? inner = some (body, after)) : (inner, after) ∈ enumSpans text := by
  refine List.mem_filterMap.mpr ⟨line, hline, ?_⟩
  rw [hopened, Option.bind_some, if_pos ⟨hkind, horigin⟩, hclosed, Option.map_some]

-- Lines that say nothing where they stand, between a text `front` with its line break and `back`:
-- they begin no header and keep to the depth they are met at, and no brace is awaited that they
-- would keep from being found.
structure Unseen (front inserted back : List Char) : Prop where
  headers : ∀ line ∈ lineStarts inserted, Header.read? line = none
  silent : ∀ line ∈ lines (inserted ++ ['\n']), Silent line
  awaited : AwaitsBrace front →
    opening? true false (inserted ++ '\n' :: back) = opening? true false back
  blocks : ∀ state ∈ openBlocks front, within? state.1 state.2 (inserted ++ ['\n']) = some state

-- A block above or around the place where lines are inserted, without them and with them.
inductive Around (inserted back : List Char) (block block' : List Char × List Char) : Prop
  | apart (same : block'.1 = block.1)
  | inside (front rest : List Char) (hback : back = rest ++ '}' :: block.2)
      (hbody : block.1 = front ++ '\n' :: rest)
      (hbody' : block'.1 = front ++ '\n' :: (inserted ++ '\n' :: rest))

-- The block of a header above unseen lines is the same, or it has the lines in it.
theorem Unseen.enclosed {front inserted back line inner : List Char} {header : Header}
    (h : Unseen front inserted back) (hline : line ∈ lineStarts front)
    (hopened : opened? (line ++ ['\n']) = some (header, inner ++ ['\n'])) :
    Option.Rel (Around inserted back) (enclosed? (inner ++ '\n' :: back))
      (enclosed? (inner ++ '\n' :: (inserted ++ '\n' :: back))) := by
  cases hwithin : within? .code 0 (inner ++ ['\n']) with
  | none =>
      obtain ⟨body, after, hclosed⟩ := exists_enclosed?_of_not_within hwithin
      have happend (more : List Char) :
          enclosed? (inner ++ '\n' :: more) = some (body, after ++ more) := by
        have hmore := enclosedFrom_append hclosed more
        rwa [List.append_assoc, List.singleton_append] at hmore
      rw [happend, happend]
      exact .some (.apart rfl)
  | some state =>
      have hstate : state ∈ openBlocks front := by
        refine List.mem_filterMap.mpr ⟨line, hline, ?_⟩
        rw [hopened, Option.bind_some, hwithin]
      have hopen (more : List Char) : enclosed? (inner ++ '\n' :: more) =
          (enclosedFrom state.1 state.2 [] more).map
            fun block => (inner ++ '\n' :: block.1, block.2) := by
        have hmore := enclosedFrom_of_within? hwithin more
        simp only [List.append_assoc, List.singleton_append] at hmore
        exact hmore
      have hkeeps := enclosedFrom_of_within? (h.blocks state hstate) back
      simp only [List.append_assoc, List.singleton_append] at hkeeps
      rw [hopen, hopen, hkeeps]
      cases hrest : enclosedFrom state.1 state.2 [] back with
      | none => exact .none
      | some block =>
          exact .some (.inside inner block.1 (eq_of_enclosedFrom hrest) rfl rfl)

end TypeAtlas.Dump
