import TypeAtlas.Proofs.Dump.EnumBody
import TypeAtlas.Proofs.Dump.FieldLine
import TypeAtlas.Proofs.Dump.Header
import TypeAtlas.Proofs.Dump.Nesting
import TypeAtlas.Proofs.Dump.Origin

namespace TypeAtlas.Text

-- A text with a carriage return before each line feed.
def crlf (text : List Char) : List Char :=
  text.flatMap fun c => if c = '\n' then ['\r', '\n'] else [c]

@[simp] theorem crlf_break (rest : List Char) : crlf ('\n' :: rest) = '\r' :: '\n' :: crlf rest := rfl

theorem crlf_cons {c : Char} (h : c ≠ '\n') (rest : List Char) : crlf (c :: rest) = c :: crlf rest := by
  rw [crlf, List.flatMap_cons, if_neg h]
  rfl

theorem crlf_append (front back : List Char) : crlf (front ++ back) = crlf front ++ crlf back :=
  List.flatMap_append

theorem crlf_of_not_mem {line : List Char} (h : '\n' ∉ line) : crlf line = line := by
  induction line with
  | nil => rfl
  | cons c line ih =>
      obtain ⟨hc, hline⟩ := List.ne_and_not_mem_of_not_mem_cons h
      rw [crlf_cons (Ne.symm hc), ih hline]

theorem laterLines_crlf (text : List Char) : laterLines (crlf text) = (laterLines text).map crlf := by
  induction text with
  | nil => rfl
  | cons c text ih =>
      by_cases hc : c = '\n'
      · subst hc
        simp [laterLines, ih]
      · simp [crlf_cons hc, laterLines, hc, ih]

theorem lineStarts_crlf (text : List Char) : lineStarts (crlf text) = (lineStarts text).map crlf := by
  rw [lineStarts, laterLines_crlf]
  rfl

theorem afterLine?_crlf (text : List Char) : afterLine? (crlf text) = (afterLine? text).map crlf := by
  induction text with
  | nil => rfl
  | cons c text ih =>
      by_cases hc : c = '\n'
      · subst hc
        rfl
      · simp [crlf_cons hc, afterLine?, hc, ih]

theorem attribute?_crlf (text : List Char) : attribute? (crlf text) = (attribute? text).map crlf := by
  cases text with
  | nil => rfl
  | cons c text =>
      by_cases hopen : c = '['
      · subst hopen
        rw [crlf_cons (by decide), attribute?_cons, attribute?_cons]
        induction text with
        | nil => rfl
        | cons c text ih =>
            by_cases hbreak : c = '\n'
            · subst hbreak
              rfl
            · by_cases hclose : c = ']'
              · subst hclose
                rfl
              · have hinside : inAttribute c = true := by simp [inAttribute, hclose, hbreak]
                rw [crlf_cons hbreak, List.dropWhile_cons_of_pos hinside,
                  List.dropWhile_cons_of_pos hinside]
                exact ih
      · by_cases hbreak : c = '\n'
        · subst hbreak
          rfl
        · rw [crlf_cons hbreak, attribute?_of_ne hopen, attribute?_of_ne hopen, Option.map_none]

end TypeAtlas.Text

namespace TypeAtlas.Dump

open Text

theorem keepsUpTo_crlf : KeepsUpTo wordStops crlf where
  keeps {c} hc rest := by
    refine crlf_cons ?_ rest
    rintro rfl
    exact hc (by decide)
  stopped {text} htext := by
    cases text with
    | nil => exact htext
    | cons c rest =>
        by_cases hc : c = '\n'
        · subst hc
          exact .cons (by decide) _
        · rw [crlf_cons hc]
          exact .cons (htext c rfl) _

theorem trimStart_crlf (text : List Char) : trimStart (crlf text) = crlf (trimStart text) := by
  induction text with
  | nil => rfl
  | cons c text ih =>
      by_cases hc : c = '\n'
      · subst hc
        exact ih
      · rw [crlf_cons hc, trimStart, trimStart, List.dropWhile_cons, List.dropWhile_cons]
        split
        · exact ih
        · rw [crlf_cons hc]

-- Blanks are passed with or without a carriage return among them.
theorem unnoticed_crlf : Unnoticed crlf where
  toKeepsUpTo := keepsUpTo_crlf
  trims := trimStart_crlf
  blanks text := by
    cases text with
    | nil => rfl
    | cons c text =>
        by_cases hc : c = '\n'
        · subst hc
          exact congrArg some (trimStart_crlf text)
        · simp only [crlf_cons hc, blanks?, trimStart_crlf]
          split
          · rfl
          · rfl

theorem enumMembers_crlf (text : List Char) : enumMembers (crlf text) = enumMembers text := by
  induction hn : text.length using Nat.strongRecOn generalizing text with
  | ind n ih =>
      have hrest {rest : List Char} (hlength : rest.length ≤ text.length) :
          membersBehind (crlf rest) = membersBehind rest := by
        rw [membersBehind, membersBehind, afterLine?_crlf]
        cases hnext : afterLine? rest with
        | none => rfl
        | some next =>
            have hshort := afterLine?_length hnext
            exact ih next.length (by omega) next rfl
      rw [enumMembers_eq, enumMembers_eq text, EnumMember.read?_change unnoticed_crlf]
      cases hread : EnumMember.read? text with
      | none => exact hrest (Nat.le_refl _)
      | some found =>
          exact congrArg (found.1 :: ·) (hrest (EnumMember.read?_suffix hread).length_le)

theorem storage?_crlf (text : List Char) : storage? (crlf text) = storage? text := by
  induction hn : text.length using Nat.strongRecOn generalizing text with
  | ind n ih =>
      rw [storage?_eq, storage?_eq text, storageField?_change unnoticed_crlf, afterLine?_crlf]
      cases storageField? text with
      | some type => rfl
      | none =>
          cases hnext : afterLine? text with
          | none => rfl
          | some next => exact ih next.length (hn ▸ afterLine?_length hnext) next rfl

-- The lines of a text have the same weight with either ending.
theorem sameWeight_crlf (text : List Char) :
    List.Forall₂ SameWeight (lines (crlf text)) (lines text) := by
  induction text using lineInduction with
  | last line hline =>
      rw [crlf_of_not_mem hline]
      exact List.forall₂_same.mpr fun _ _ => ⟨rfl, rfl⟩
  | step line rest hline ih =>
      have hreturn : '\n' ∉ line ++ ['\r'] := by simpa using hline
      have hending : crlf (line ++ '\n' :: rest) = (line ++ ['\r']) ++ '\n' :: crlf rest := by
        rw [crlf_append, crlf_of_not_mem hline, crlf_break, List.append_assoc,
          List.singleton_append]
      have hwithout : withoutReturn (line ++ ['\r']) = line := by
        simp [withoutReturn, dropReturn]
      rw [hending, lines_line hreturn, lines_line hline, hwithout]
      obtain ⟨hread, hbalance⟩ := sameWeight_withoutReturn line
      exact .cons ⟨hread.symm, hbalance.symm⟩ ih

theorem fields_crlf (rules : Rules) (kind : Kind) (body : List Char) :
    fields rules kind (crlf body) = fields rules kind body := by
  have hlines : fieldLines (crlf body) = fieldLines body := by
    rw [fieldLines, fieldLines, fields_topLines_congr (sameWeight_crlf body)]
  rw [fields, fields, fieldFindings, fieldFindings, hlines]

theorem stem?_crlf (text : List Char) :
    Header.stem? (crlf text) = (Header.stem? text).map fun found => (found.1, crlf found.2) := by
  have hindent : ∀ c ∈ wordStops, isIndent c = false := by decide
  exact Header.stem?_change keepsUpTo_crlf
    (keepsUpTo_crlf.afterAttributes hindent attribute?_crlf (text.dropWhile isIndent))

theorem opening?_return (below comment : Bool) (rest : List Char) :
    opening? below comment ('\r' :: rest) = opening? below comment rest := by
  rw [opening?_cons (by rintro _ ⟨⟩)]
  cases comment with
  | true => rfl
  | false => rfl

theorem slashes_crlf {c : Char} {rest : List Char}
    (h : ∀ tail, c = '/' → rest = '/' :: tail → False) :
    ∀ tail, c = '/' → crlf rest = '/' :: tail → False := by
  intro tail hc hrest
  cases rest with
  | nil => cases hrest
  | cons d rest =>
      by_cases hd : d = '\n'
      · subst hd
        cases hrest
      · rw [crlf_cons hd] at hrest
        obtain ⟨rfl, -⟩ := List.cons.inj hrest
        exact h rest hc rfl

theorem opening?_crlf (below comment : Bool) (text : List Char) :
    opening? below comment (crlf text) = (opening? below comment text).map crlf := by
  fun_induction opening? below comment text with
  | case1 => rfl
  | case2 below comment rest ih => exact ih
  | case3 below comment rest hslash ih =>
      rw [crlf_break, opening?_return, opening?_cons (by rintro _ ⟨⟩), if_pos rfl]
      exact ih
  | case4 below c rest hslash hbreak ih =>
      rw [crlf_cons hbreak, opening?_cons (slashes_crlf hslash), if_neg hbreak, if_pos rfl]
      exact ih
  | case5 below comment rest hcomment hslash hbreak =>
      rw [crlf_cons hbreak, opening?_cons (slashes_crlf hslash), if_neg hbreak, if_neg hcomment,
        if_pos rfl, Option.map_some]
  | case6 below comment c rest hslash hbreak hcomment hbrace hend =>
      rw [crlf_cons hbreak, opening?_cons (slashes_crlf hslash), if_neg hbreak, if_neg hcomment,
        if_neg hbrace, if_pos hend, Option.map_none]
  | case7 below comment c rest hslash hbreak hcomment hbrace hend hskip ih =>
      rw [crlf_cons hbreak, opening?_cons (slashes_crlf hslash), if_neg hbreak, if_neg hcomment,
        if_neg hbrace, if_neg hend, if_pos hskip]
      exact ih
  | case8 below comment c rest hslash hbreak hcomment hbrace hend hskip =>
      rw [crlf_cons hbreak, opening?_cons (slashes_crlf hslash), if_neg hbreak, if_neg hcomment,
        if_neg hbrace, if_neg hend, if_neg hskip, Option.map_none]

-- The filler of a header takes in the carriage return before the line break at which it ends.
theorem filler_crlf (text : List Char) :
    (crlf text).dropWhile Header.isFiller = crlf (text.dropWhile Header.isFiller) ∨
      ∃ rest, text.dropWhile Header.isFiller = '\n' :: rest ∧
        (crlf text).dropWhile Header.isFiller = '\n' :: crlf rest := by
  induction text with
  | nil => exact .inl rfl
  | cons c text ih =>
      by_cases hc : c = '\n'
      · subst hc
        exact .inr ⟨text, rfl, rfl⟩
      · rw [crlf_cons hc, List.dropWhile_cons, List.dropWhile_cons]
        split
        · exact ih
        · exact .inl (crlf_cons hc text).symm

theorem opened?_eq (text : List Char) :
    opened? text = (Header.stem? text).bind fun stem =>
      if stem.1.isGeneric then none
      else (opening? false false (Header.withBase stem).2).map fun inner =>
        ((Header.withBase stem).1, inner) := by
  rw [opened?, Header.read?_eq, Option.bind_map]
  rfl

theorem opened?_crlf (text : List Char) :
    opened? (crlf text) = (opened? text).map fun found => (found.1, crlf found.2) := by
  rw [opened?_eq, opened?_eq, stem?_crlf]
  refine map_bind_map fun stem => ?_
  have hbase : (Header.withBase (stem.1, crlf stem.2)).1 = (Header.withBase stem).1 ∧
      opening? false false (Header.withBase (stem.1, crlf stem.2)).2 =
        (opening? false false (Header.withBase stem).2).map crlf := by
    simp only [Header.withBase]
    rcases filler_crlf stem.2 with heq | ⟨rest, hrest, heq⟩
    · rw [heq, Header.baseAfter_change keepsUpTo_crlf]
      exact ⟨rfl, opening?_crlf _ _ _⟩
    · rw [heq, hrest]
      exact ⟨rfl, opening?_crlf true false rest⟩
  split
  · rfl
  · rw [hbase.1, hbase.2, Option.map_map, Option.map_map]
    rfl

-- The quote that ends the literal a mode is in.
def Mode.quote? : Mode → Option Char
  | literal quote | escape quote => some quote
  | _ => none

-- Only quotation marks begin a literal, so a carriage return ends none.
theorem Mode.quote?_next {mode : Mode} (h : mode.quote? ≠ some '\r') (c : Char) :
    (mode.next c).quote? ≠ some '\r' := by
  have hcode : (Mode.afterCode c).quote? ≠ some '\r' := by
    grind [Mode.afterCode, Mode.quote?]
  cases mode <;> grind [Mode.next, Mode.quote?]

theorem Mode.next_return_break {mode : Mode} (h : mode.quote? ≠ some '\r')
    (hescape : ∀ quote, mode ≠ .escape quote) : (mode.next '\r').next '\n' = mode.next '\n' := by
  cases mode with
  | code => rfl
  | slash => rfl
  | lineComment => rfl
  | blockComment => rfl
  | star => rfl
  | literal quote =>
      have hquote : '\r' ≠ quote := fun heq => h (congrArg some heq.symm)
      simp [next, hquote]
  | escape quote => exact absurd rfl (hescape quote)

-- A carriage return before a line break moves no brace, unless a backslash stands before it.
theorem enclosedFrom_crlf {mode : Mode} {text : List Char} (depth : Nat)
    (hmode : mode.quote? ≠ some '\r') (hescape : ∀ quote, mode = .escape quote → text.head? ≠ some '\n')
    (h : ¬['\\', '\n'] <:+: text) :
    enclosedFrom mode depth [] (crlf text) =
      (enclosedFrom mode depth [] text).map fun block => (crlf block.1, crlf block.2) := by
  induction text generalizing mode depth with
  | nil => rfl
  | cons c text ih =>
      have hnext : ∀ quote, mode.next c = .escape quote → text.head? ≠ some '\n' := by
        intro quote hquote hbreak
        obtain ⟨rest, rfl⟩ := List.head?_eq_some_iff.mp hbreak
        rw [Mode.eq_of_next_escape hquote] at h
        exact h (List.prefix_append ['\\', '\n'] rest).isInfix
      have hrest (depth : Nat) := ih depth (Mode.quote?_next hmode c) hnext
        fun hpart => h (hpart.trans (List.suffix_cons c text).isInfix)
      by_cases hc : c = '\n'
      · subst hc
        have hcode : ∀ quote, mode ≠ .escape quote := fun quote hquote => hescape quote hquote rfl
        rw [crlf_break, enclosedFrom_of_no_brace mode.brace?_return,
          enclosedFrom_of_no_brace (Mode.brace?_break _), Mode.next_return_break hmode hcode,
          enclosedFrom_of_no_brace mode.brace?_break, hrest depth]
        simp only [Option.map_map]
        rfl
      · rw [crlf_cons hc, enclosedFrom_cons, enclosedFrom_cons]
        have hmap (depth : Nat) : (enclosedFrom (mode.next c) depth [] (crlf text)).map
            (fun block => (c :: block.1, block.2)) =
              ((enclosedFrom (mode.next c) depth [] text).map
                fun block => (c :: block.1, block.2)).map
                  fun block => (crlf block.1, crlf block.2) := by
          rw [hrest depth, Option.map_map, Option.map_map]
          refine congrArg (fun f => Option.map f _) (funext fun block => ?_)
          simp only [Function.comp_apply, crlf_cons hc]
        split
        · rfl
        · exact hmap _
        · exact hmap _
        · exact hmap _

theorem opened?_suffix {text inner : List Char} {header : Header}
    (h : opened? text = some (header, inner)) : inner <:+ text := by
  obtain ⟨found, hread, h⟩ := Option.bind_eq_some_iff.mp h
  split at h
  · cases h
  · obtain ⟨inner, hopening, hfound⟩ := Option.map_eq_some_iff.mp h
    cases hfound
    exact (opening?_suffix hopening).trans (Header.read?_suffix hread)

-- A declaration has the same header with either line ending, and the endings of its body's lines
-- differ.
theorem declares?_crlf {line : List Char} (h : ¬['\\', '\n'] <:+: line) :
    declares? (crlf line) =
      (declares? line).map fun d => { d with body := crlf d.body } := by
  rw [declares?_eq, declares?_eq, opened?_crlf]
  cases hopened : opened? line with
  | none => rfl
  | some found =>
      have hinner : ¬['\\', '\n'] <:+: found.2 :=
        fun hpart => h (hpart.trans (opened?_suffix hopened).isInfix)
      have hclosed : enclosed? (crlf found.2) =
          (enclosed? found.2).map fun block => (crlf block.1, crlf block.2) :=
        enclosedFrom_crlf 0 (by decide) (by rintro _ ⟨⟩) hinner
      simp only [Option.map_some, Option.bind_some, hclosed, Option.map_map]
      rfl

end TypeAtlas.Dump
