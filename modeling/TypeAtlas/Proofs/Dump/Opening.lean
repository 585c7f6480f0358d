import TypeAtlas.Dump.Index
import TypeAtlas.Proofs.Text.Line

namespace TypeAtlas.Dump

open Text

-- The headers of a dump, without the order in which its lines are reached.
theorem sightings_eq (text : List Char) :
    sightings text = (sighting? text).toList ++ (laterLines text).filterMap sighting? := by
  fun_induction sightings text with
  | case1 text first rest hrest ih =>
      rw [ih, laterLines_of_afterLine? hrest, List.filterMap_cons]
      cases sighting? rest with
      | none => rfl
      | some sighting => rfl
  | case2 text first hnone => rw [laterLines_eq_nil hnone, List.filterMap_nil, List.append_nil]

-- What follows the brace that opens the block of a header.
def opening? (below comment : Bool) : List Char → Option (List Char)
  | [] => none
  | '/' :: '/' :: rest => opening? below true rest
  | c :: rest =>
    if c = '\n' then opening? true false rest
    else if comment then opening? below true rest
    else if c = '{' then some rest
    else if c = ';' || c = '}' then none
    else if isLayout c || !below then opening? below false rest
    else none

-- A character that begins no comment, in the order in which its uses are tried.
theorem opening?_cons {below comment : Bool} {c : Char} {rest : List Char}
    (h : ∀ tail, c = '/' → rest = '/' :: tail → False) :
    opening? below comment (c :: rest) =
      if c = '\n' then opening? true false rest
      else if comment then opening? below true rest
      else if c = '{' then some rest
      else if c = ';' || c = '}' then none
      else if isLayout c || !below then opening? below false rest
      else none :=
  opening?.eq_3 below comment c rest h

theorem ne_nil_of_opening? {below comment : Bool} {text inner : List Char}
    (h : opening? below comment text = some inner) : text ≠ [] := by
  rintro rfl
  cases h

-- Looking for the opening brace and reading the block are two steps.
theorem bodyFrom?_eq (below comment : Bool) (text : List Char) :
    bodyFrom? below comment text =
      (opening? below comment text).bind fun inner => (enclosed? inner).map Prod.fst := by
  fun_induction bodyFrom? below comment text with
  | case1 => rfl
  | case2 below comment rest ih => exact ih
  | case3 below comment rest hslash ih =>
      rw [opening?_cons hslash, if_pos rfl]
      exact ih
  | case4 below c rest hslash hbreak ih =>
      rw [opening?_cons hslash, if_neg hbreak, if_pos rfl]
      exact ih
  | case5 below comment rest hcomment hslash hbreak =>
      rw [opening?_cons hslash, if_neg hbreak, if_neg hcomment, if_pos rfl]
      rfl
  | case6 below comment c rest hslash hbreak hcomment hbrace hend =>
      rw [opening?_cons hslash, if_neg hbreak, if_neg hcomment, if_neg hbrace, if_pos hend]
      rfl
  | case7 below comment c rest hslash hbreak hcomment hbrace hend hskip ih =>
      rw [opening?_cons hslash, if_neg hbreak, if_neg hcomment, if_neg hbrace, if_neg hend,
        if_pos hskip]
      exact ih
  | case8 below comment c rest hslash hbreak hcomment hbrace hend hskip =>
      rw [opening?_cons hslash, if_neg hbreak, if_neg hcomment, if_neg hbrace, if_neg hend,
        if_neg hskip]
      rfl

-- Two slashes in a row are seen in a text that goes on only if they are in the text, or it ends
-- before the second.
theorem slashes_append {c : Char} {rest : List Char}
    (h : ∀ tail, c = '/' → rest = '/' :: tail → False) (hrest : rest ≠ []) (more : List Char) :
    ∀ tail, c = '/' → rest ++ more = '/' :: tail → False := by
  intro tail hc hmore
  obtain ⟨d, rest, rfl⟩ := List.exists_cons_of_ne_nil hrest
  obtain ⟨rfl, -⟩ := List.cons.inj hmore
  exact h rest hc rfl

-- An opening brace within a text is found whatever follows the text. As long as the brace is ahead,
-- something is left where the search stands, so a comment begins in both texts or in neither.
theorem opening?_append {below comment : Bool} {text inner : List Char}
    (h : opening? below comment text = some inner) (more : List Char) :
    opening? below comment (text ++ more) = some (inner ++ more) := by
  fun_induction opening? below comment text with
  | case1 => cases h
  | case2 below comment rest ih => exact ih h
  | case3 below comment rest hslash ih =>
      rw [List.cons_append, opening?_cons (slashes_append hslash (ne_nil_of_opening? h) more),
        if_pos rfl]
      exact ih h
  | case4 below c rest hslash hbreak ih =>
      rw [List.cons_append, opening?_cons (slashes_append hslash (ne_nil_of_opening? h) more),
        if_neg hbreak, if_pos rfl]
      exact ih h
  | case5 below comment rest hcomment hslash hbreak =>
      cases h
      have hslash : ∀ tail, '{' = '/' → inner ++ more = '/' :: tail → False := by
        intro tail hc
        cases hc
      rw [List.cons_append, opening?_cons hslash, if_neg hbreak, if_neg hcomment, if_pos rfl]
  | case6 => cases h
  | case7 below comment c rest hslash hbreak hcomment hbrace hend hskip ih =>
      rw [List.cons_append, opening?_cons (slashes_append hslash (ne_nil_of_opening? h) more),
        if_neg hbreak, if_neg hcomment, if_neg hbrace, if_neg hend, if_pos hskip]
      exact ih h
  | case8 => cases h

-- What the search for an opening brace comes to on a line: the line decides it, or the search goes on
-- behind the line.
inductive LineSearch (below comment : Bool) (line : List Char) : Prop
  | finds (inner : List Char) (ends : inner <:+ line)
      (alone : opening? below comment line = some inner)
      (found : ∀ more, opening? below comment (line ++ '\n' :: more) = some (inner ++ '\n' :: more))
  | fails (alone : opening? below comment line = none)
      (none : ∀ more, opening? below comment (line ++ '\n' :: more) = none)
  | goesOn (alone : opening? below comment line = none)
      (behind : ∀ more,
        opening? below comment (line ++ '\n' :: more) = opening? true false more)

-- Two slashes in a row do not come about at the end of a line.
theorem slashes_break {c : Char} {rest : List Char}
    (h : ∀ tail, c = '/' → rest = '/' :: tail → False) (more : List Char) :
    ∀ tail, c = '/' → rest ++ '\n' :: more = '/' :: tail → False := by
  intro tail hc hrest
  cases rest with
  | nil => cases hrest
  | cons d rest => exact slashes_append h (List.cons_ne_nil d rest) _ tail hc hrest

theorem LineSearch.cons {below below' comment comment' : Bool} {c : Char} {line : List Char}
    (hslash : ∀ tail, c = '/' → line = '/' :: tail → False)
    (hstep : ∀ rest, (∀ tail, c = '/' → rest = '/' :: tail → False) →
      opening? below comment (c :: rest) = opening? below' comment' rest)
    (h : LineSearch below' comment' line) : LineSearch below comment (c :: line) := by
  have hline := hstep line hslash
  have hmore (more : List Char) := hstep (line ++ '\n' :: more) (slashes_break hslash more)
  cases h with
  | finds inner ends alone found =>
      exact .finds inner (ends.trans (List.suffix_cons c line)) (hline.trans alone) fun more =>
        (hmore more).trans (found more)
  | fails alone none => exact .fails (hline.trans alone) fun more => (hmore more).trans (none more)
  | goesOn alone behind =>
      exact .goesOn (hline.trans alone) fun more => (hmore more).trans (behind more)

theorem lineSearch (below comment : Bool) (line : List Char) : LineSearch below comment line := by
  fun_induction opening? below comment line with
  | case1 below comment =>
      refine .goesOn rfl fun more => ?_
      rw [List.nil_append, opening?_cons (by rintro _ ⟨⟩), if_pos rfl]
  | case2 below comment rest ih =>
      cases ih with
      | finds inner ends alone found =>
          exact .finds inner (ends.trans (List.suffix_append ['/', '/'] rest)) alone found
      | fails alone none => exact .fails alone none
      | goesOn alone behind => exact .goesOn alone behind
  | case3 below comment rest hslash ih =>
      refine ih.cons hslash fun more hmore => ?_
      rw [opening?_cons hmore, if_pos rfl]
  | case4 below c rest hslash hbreak ih =>
      refine ih.cons hslash fun more hmore => ?_
      rw [opening?_cons hmore, if_neg hbreak, if_pos rfl]
  | case5 below comment rest hcomment hslash hbreak =>
      have hfinds (more : List Char) : opening? below comment ('{' :: more) = some more := by
        rw [opening?_cons (by rintro _ ⟨⟩), if_neg hbreak, if_neg hcomment, if_pos rfl]
      exact .finds rest (List.suffix_cons '{' rest) (hfinds rest) fun more => hfinds _
  | case6 below comment c rest hslash hbreak hcomment hbrace hend =>
      have hfails {more : List Char} (hmore : ∀ tail, c = '/' → more = '/' :: tail → False) :
          opening? below comment (c :: more) = none := by
        rw [opening?_cons hmore, if_neg hbreak, if_neg hcomment, if_neg hbrace, if_pos hend]
      exact .fails (hfails hslash) fun more => hfails (slashes_break hslash more)
  | case7 below comment c rest hslash hbreak hcomment hbrace hend hskip ih =>
      refine ih.cons hslash fun more hmore => ?_
      rw [opening?_cons hmore, if_neg hbreak, if_neg hcomment, if_neg hbrace, if_neg hend,
        if_pos hskip]
  | case8 below comment c rest hslash hbreak hcomment hbrace hend hskip =>
      have hfails {more : List Char} (hmore : ∀ tail, c = '/' → more = '/' :: tail → False) :
          opening? below comment (c :: more) = none := by
        rw [opening?_cons hmore, if_neg hbreak, if_neg hcomment, if_neg hbrace, if_neg hend,
          if_neg hskip]
      exact .fails (hfails hslash) fun more => hfails (slashes_break hslash more)

-- The search passes over a line comment.
theorem opening?_comment {text : List Char} (h : '\n' ∉ text) (below : Bool) (more : List Char) :
    opening? below true (text ++ '\n' :: more) = opening? true false more := by
  suffices hall : ∀ comment, comment = true →
      opening? below comment (text ++ '\n' :: more) = opening? true false more from hall true rfl
  intro comment hcomment
  fun_induction opening? below comment text with
  | case1 below comment => rw [List.nil_append, opening?_cons (by rintro _ ⟨⟩), if_pos rfl]
  | case2 below comment rest ih =>
      exact ih (fun hrest => h (List.mem_cons_of_mem _ (List.mem_cons_of_mem _ hrest))) rfl
  | case3 => exact absurd List.mem_cons_self h
  | case4 below c rest hslash hbreak ih =>
      rw [List.cons_append, opening?_cons (slashes_break hslash more), if_neg hbreak, if_pos rfl]
      exact ih (fun hrest => h (List.mem_cons_of_mem _ hrest)) rfl
  | case5 _ _ _ hcode => exact absurd hcomment hcode
  | case6 _ _ _ _ _ _ hcode => exact absurd hcomment hcode
  | case7 _ _ _ _ _ _ hcode => exact absurd hcomment hcode
  | case8 _ _ _ _ _ _ hcode => exact absurd hcomment hcode

theorem brace_of_opening? {below comment : Bool} {text inner : List Char}
    (h : opening? below comment text = some inner) : '{' :: inner <:+ text := by
  fun_induction opening? below comment text with
  | case1 => cases h
  | case2 below comment rest ih => exact (ih h).trans (List.suffix_append ['/', '/'] rest)
  | case3 below comment rest hslash ih => exact (ih h).trans (List.suffix_cons _ rest)
  | case4 below c rest hslash hbreak ih => exact (ih h).trans (List.suffix_cons c rest)
  | case5 below comment rest =>
      cases h
      exact List.suffix_rfl
  | case6 => cases h
  | case7 below comment c rest hslash hbreak hcomment hbrace hend hskip ih =>
      exact (ih h).trans (List.suffix_cons c rest)
  | case8 => cases h

theorem opening?_suffix {below comment : Bool} {text inner : List Char}
    (h : opening? below comment text = some inner) : inner <:+ text :=
  (List.suffix_cons '{' inner).trans (brace_of_opening? h)

-- A line break at the end of a text opens nothing.
theorem opening?_finalBreak (below comment : Bool) (text : List Char) :
    opening? below comment (text ++ ['\n']) =
      (opening? below comment text).map (· ++ ['\n']) := by
  cases lineSearch below comment text with
  | finds inner ends alone found => rw [found, alone, Option.map_some]
  | fails alone none => rw [none, alone, Option.map_none]
  | goesOn alone behind =>
      rw [behind, alone, Option.map_none]
      rfl

end TypeAtlas.Dump
